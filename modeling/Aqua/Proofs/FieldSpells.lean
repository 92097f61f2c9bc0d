import Aqua.Proofs.FieldRoundTrip
import Aqua.Proofs.FieldWidth
import Aqua.Wire.Spells

/-! # What the field readers accept

The converse of reading back: where a field reader succeeds, the bytes it took are the ones the value is
written with. Strings and binary data come out shorter than 65536 bytes, and a property block is a length
followed by exactly that many bytes of properties.
-/

namespace Aqua

open Wire Wire.Reader

/-- A length in front of its content is the length of the content. -/
theorem be16Bytes_append_eq {length : UInt16} {content : Bytes} (size : content.length = length.toNat) :
    content.length < 2 ^ 16 ∧ be16Bytes length ++ content = putTruncated content := by
  refine ⟨size ▸ length.toNat_lt, ?_⟩
  rw [putTruncated, size, UInt16.ofNat_toNat]

theorem decodeUtf8String_spells : Spells decodeUtf8String fun s bytes =>
    (stringBytes s).length < 2 ^ 16 ∧ bytes = putTruncated (stringBytes s) where
  reads related := related.right ▸ decodeUtf8String_reads related.left
  sound read inside := by
    rw [decodeUtf8String, decodeU16Bytes_eq] at read
    obtain ⟨length, mid, head, read⟩ := bind_eq_ok_iff.mp read
    obtain ⟨_, rfl, front⟩ := Spells.u16.sound head inside
    obtain ⟨_, after, taken, read⟩ := bind_eq_ok_iff.mp read
    obtain ⟨content, ⟨rfl, size⟩, behind⟩ := (Spells.sliceOr _ _).sound taken front.within
    cases known : fromUtf8 content with
    | none =>
      rw [known] at read
      cases read
    | some s =>
      rw [known] at read
      cases read
      have whole := front.append behind
      obtain ⟨short, same⟩ := be16Bytes_append_eq size
      rw [same] at whole
      rw [stringBytes_of_fromUtf8 known]
      exact ⟨_, ⟨short, rfl⟩, whole⟩

theorem stringField_spells {α : Type} (wrap : String → α) : Spells (stringField wrap) fun a bytes =>
    ∃ s, wrap s = a ∧ (stringBytes s).length < 2 ^ 16 ∧ bytes = putTruncated (stringBytes s) :=
  decodeUtf8String_spells.map

theorem binary_spells : Spells binary fun content bytes =>
    content.length < 2 ^ 16 ∧ bytes = putTruncated content where
  reads related := related.right ▸ binary_reads related.left
  sound read inside := by
    obtain ⟨length, mid, head, read⟩ := bind_eq_ok_iff.mp read
    obtain ⟨_, rfl, front⟩ := Spells.u16.sound head inside
    obtain ⟨_, ⟨rfl, size⟩, behind⟩ := (Spells.slice _).sound read front.within
    have whole := front.append behind
    obtain ⟨short, same⟩ := be16Bytes_append_eq size
    rw [same] at whole
    exact ⟨_, ⟨short, rfl⟩, whole⟩

theorem binaryField_spells {α : Type} (wrap : Bytes → α) : Spells (binaryField wrap) fun a bytes =>
    ∃ content, wrap content = a ∧ content.length < 2 ^ 16 ∧ bytes = putTruncated content :=
  binary_spells.map

theorem UserProperty.tryFrom_spells : Spells UserProperty.tryFrom fun property bytes =>
    ((stringBytes property.key).length < 2 ^ 16 ∧ (stringBytes property.value).length < 2 ^ 16) ∧
      bytes = putTruncated (stringBytes property.key) ++ putTruncated (stringBytes property.value) := by
  refine (decodeUtf8String_spells.bind fun _ => decodeUtf8String_spells.bind fun _ => .pure _).congr ?_
  intro property bytes
  constructor
  · rintro ⟨key, _, _, ⟨short, rfl⟩, ⟨value, _, _, ⟨short', rfl⟩, ⟨rfl, rfl⟩, rfl⟩, rfl⟩
    rw [List.append_nil]
    exact ⟨⟨short, short'⟩, rfl⟩
  · rintro ⟨⟨short, short'⟩, rfl⟩
    refine ⟨_, _, _, ⟨short, rfl⟩, ⟨_, _, [], ⟨short', rfl⟩, ⟨rfl, rfl⟩, rfl⟩, ?_⟩
    rw [List.append_nil]

theorem ProtocolName.tryFrom_spells : Spells ProtocolName.tryFrom fun name bytes =>
    (stringBytes name.value).length < 2 ^ 16 ∧ bytes = putTruncated (stringBytes name.value) where
  reads related := related.right ▸ ProtocolName.tryFrom_reads related.left
  sound read inside := by
    obtain ⟨content, mid, inner, read⟩ := bind_eq_ok_iff.mp read
    obtain ⟨bytes, ⟨short, rfl⟩, stands⟩ := binary_spells.sound inner inside
    cases known : fromUtf8 content with
    | none =>
      rw [known] at read
      cases read
    | some s =>
      rw [known] at read
      cases read
      rw [stringBytes_of_fromUtf8 known]
      exact ⟨_, ⟨short, rfl⟩, stands⟩

theorem u16Field_spells {α : Type} (wrap : UInt16 → α) :
    Spells (wrap <$> (u16 : FieldReader UInt16)) fun a bytes => ∃ value, wrap value = a ∧ bytes = be16Bytes value :=
  Spells.u16.map

theorem u32Field_spells {α : Type} (wrap : UInt32 → α) :
    Spells (u32Field wrap) fun a bytes => ∃ value, wrap value = a ∧ bytes = be32Bytes value :=
  (Spells.u32Slice _).map

theorem flagField_spells {α : Type} (zero one : α) : Spells (flagField zero one) fun a bytes =>
    a = zero ∧ bytes = [0x00] ∨ a = one ∧ bytes = [0x01] where
  reads related := by
    rcases related with ⟨rfl, rfl⟩ | ⟨rfl, rfl⟩
    · exact (Reads.index _).bind_nil (Reads.pure _)
    · exact (Reads.index _).bind_nil (Reads.pure _)
  sound read inside := by
    obtain ⟨byte, mid, inner, read⟩ := bind_eq_ok_iff.mp read
    obtain ⟨_, rfl, stands⟩ := Spells.index.sound inner inside
    split at read
    · next zero_ =>
      cases read
      exact ⟨_, .inl ⟨rfl, rfl⟩, zero_ ▸ stands⟩
    split at read
    · next one_ =>
      cases read
      exact ⟨_, .inr ⟨rfl, rfl⟩, one_ ▸ stands⟩
    · cases read

/-- A length field is any field that is read as the length on its own. -/
theorem decodeVariableLength_spells :
    Spells decodeVariableLength fun n field => Reads decodeVariableLength field n where
  reads related := related
  sound {buf pos n next} read inside := by
    obtain ⟨before, rest, rfl, rfl⟩ : ∃ before rest, buf = before ++ rest ∧ pos = before.length :=
      ⟨buf.take pos, buf.drop pos, (List.take_append_drop pos buf).symm, by
        rw [List.length_take, min_eq_left inside]⟩
    have shifted := decodeDigits_shift before rest 4 0 0 0
    obtain ⟨⟨value, used⟩, alone, same⟩ := Outcome.bind_eq_ok_iff.mp (shifted.symm.trans read)
    cases same
    have whole : used ≤ rest.length := decodeVariableLength_lawful.within alone (Nat.zero_le _)
    have size : (rest.take used).length = used := by
      rw [List.length_take, min_eq_left whole]
    refine ⟨rest.take used, ?_, before, rest.drop used, ?_, rfl, ?_⟩
    · apply decodeVariableLength_reads
      rw [size]
      exact decodeVariableLength_lawful.stable alone (by rw [List.take_take, min_self])
    · rw [List.take_append_drop]
    · rw [size]

section Blocks

variable {σ π : Type} {property : σ → UInt8 → FieldReader σ} {admits : σ → π → Prop} {store : σ → π → σ}
  {wire : π → Bytes}

/-- The bytes of a property block with these properties: a length and the properties. -/
def BlockOf (wire : π → Bytes) (parts : List π) (bytes : Bytes) : Prop :=
  ∃ field, Reads decodeVariableLength field (parts.flatMap wire).length ∧ bytes = field ++ parts.flatMap wire

theorem propertyBlock_spells
    (spells : ∀ set, Spells (propertyItem property set) fun next bytes =>
      ∃ part, admits set part ∧ next = store set part ∧ bytes = wire part)
    (nonempty : ∀ part, wire part ≠ []) (set : σ) :
    Spells (propertyBlock property set) fun next bytes => ∃ parts, Admitted admits store set parts ∧
      next = parts.foldl store set ∧ BlockOf wire parts bytes where
  reads related := by
    obtain ⟨parts, admitted, rfl, field, length, rfl⟩ := related
    refine length.bind fun before after => ?_
    have reads (set : σ) (part : π) (fits : admits set part) :
        Reads (propertyItem property set) (wire part) (store set part) :=
      (spells set).reads ⟨part, fits, rfl, rfl⟩
    exact block_reads (.of_admitted reads nonempty admitted) before after
  sound {buf pos next last} read inside := by
    obtain ⟨length, start, head, run⟩ := bind_eq_ok_iff.mp read
    obtain ⟨field, reads, front⟩ := decodeVariableLength_spells.sound head inside
    have entered : block .invalidFormat (propertyItem property) (start + length) set buf start =
        .ok (next, last) := run
    obtain ⟨parts, admitted, rfl, behind, rfl⟩ :=
      (block_eq_ok_iff spells nonempty front.within).mp entered
    have size : length = (parts.flatMap wire).length := Nat.add_left_cancel behind.length
    exact ⟨_, ⟨parts, admitted, rfl, field, size ▸ reads, rfl⟩, front.append behind⟩

/-- The same by what the lists are, and what they leave in the set. -/
theorem propertyBlock_collects {acceptable : List π → Prop} {collect : List π → σ} {set : σ}
    (spells : ∀ set, Spells (propertyItem property set) fun next bytes =>
      ∃ part, admits set part ∧ next = store set part ∧ bytes = wire part)
    (nonempty : ∀ part, wire part ≠ [])
    (accepted : ∀ {parts}, Admitted admits store set parts ↔ acceptable parts)
    (collects : ∀ {parts}, acceptable parts → parts.foldl store set = collect parts) :
    Spells (propertyBlock property set) fun next bytes => ∃ parts, acceptable parts ∧ next = collect parts ∧
      BlockOf wire parts bytes := by
  refine (propertyBlock_spells spells nonempty set).congr fun next bytes => ?_
  constructor
  · rintro ⟨parts, admitted, rfl, block⟩
    have fine := accepted.mp admitted
    exact ⟨parts, fine, collects fine, block⟩
  · rintro ⟨parts, fine, rfl, block⟩
    exact ⟨parts, accepted.mpr fine, (collects fine).symm, block⟩

end Blocks

end Aqua
