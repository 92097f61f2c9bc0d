import Aqua.Proofs.VariableLength

/-! # Fields read back

Every field reader returns what the corresponding writer wrote, wherever the bytes stand. A
property is its identifier followed by such a field; `propertyBlock_reads` puts them together behind
their announced length.
-/

namespace Aqua

open Wire Wire.Reader

theorem fromUtf8_stringBytes (s : String) : fromUtf8 (stringBytes s) = some s := by
  have same : (⟨(stringBytes s).toArray⟩ : ByteArray) = s.toByteArray := by simp [stringBytes]
  rw [fromUtf8, same, String.fromUTF8?, dif_pos s.isValidUTF8]
  rfl

/-- Bytes behind a length that fits in two bytes. -/
theorem prefixed_reads {α : Type} {f : UInt16 → FieldReader α} {bytes : Bytes} {a : α}
    (small : bytes.length < 2 ^ 16)
    (content : ∀ n : UInt16, n.toNat = bytes.length → Reads (f n) bytes a) :
    Reads (u16 >>= f) (putTruncated bytes) a :=
  (Reads.u16 _).bind (content _ (UInt16.toNat_ofNat_of_lt' small))

theorem decodeUtf8String_reads {s : String} (small : (stringBytes s).length < 2 ^ 16) :
    Reads decodeUtf8String (putTruncated (stringBytes s)) s := by
  rw [decodeUtf8String, decodeU16Bytes_eq]
  refine prefixed_reads small fun n same => ?_
  rw [same]
  refine (Reads.sliceOr _ _).bind_nil ?_
  rw [fromUtf8_stringBytes]
  exact Reads.pure s

theorem stringField_reads {α : Type} (wrap : String → α) {s : String}
    (small : (stringBytes s).length < 2 ^ 16) :
    Reads (stringField wrap) (putTruncated (stringBytes s)) (wrap s) :=
  (decodeUtf8String_reads small).map

theorem UserProperty.tryFrom_reads {property : UserProperty}
    (key : (stringBytes property.key).length < 2 ^ 16)
    (value : (stringBytes property.value).length < 2 ^ 16) :
    Reads UserProperty.tryFrom
      (putTruncated (stringBytes property.key) ++ putTruncated (stringBytes property.value))
      property :=
  (decodeUtf8String_reads key).bind ((decodeUtf8String_reads value).bind_nil (Reads.pure _))

theorem binary_reads {bytes : Bytes} (small : bytes.length < 2 ^ 16) :
    Reads binary (putTruncated bytes) bytes := by
  refine prefixed_reads small fun n same => ?_
  rw [same]
  exact Reads.slice bytes

theorem binaryField_reads {α : Type} (wrap : Bytes → α) {bytes : Bytes}
    (small : bytes.length < 2 ^ 16) : Reads (binaryField wrap) (putTruncated bytes) (wrap bytes) :=
  (binary_reads small).map

theorem ProtocolName.tryFrom_reads {s : String} (small : (stringBytes s).length < 2 ^ 16) :
    Reads ProtocolName.tryFrom (putTruncated (stringBytes s)) ⟨s⟩ := by
  refine (binary_reads small).bind_nil ?_
  rw [fromUtf8_stringBytes]
  exact Reads.pure _

theorem PacketId.tryFrom_reads (id : PacketId) : Reads PacketId.tryFrom (be16Bytes id.value) id :=
  (Reads.u16 _).map

theorem nonzeroU16Field_reads {α : Type} (wrap : UInt16 → α) {value : UInt16}
    (nonzero : value ≠ 0) : Reads (nonzeroU16Field wrap) (be16Bytes value) (wrap value) := by
  refine (Reads.u16 value).bind_nil ?_
  rw [if_neg nonzero]
  exact Reads.pure _

theorem u32Field_reads {α : Type} (wrap : UInt32 → α) (value : UInt32) :
    Reads (u32Field wrap) (be32Bytes value) (wrap value) := (Reads.u32Slice _ _).map

theorem PayloadFormatIndicator.tryFrom_reads (indicator : PayloadFormatIndicator) :
    Reads PayloadFormatIndicator.tryFrom [indicator.toByte] indicator := by
  apply (Reads.index _).bind_nil
  cases indicator <;> exact Reads.pure _

theorem SubscriptionIdentifier.tryFrom_reads {id : SubscriptionIdentifier}
    (small : id.value < 2 ^ 28) :
    Reads SubscriptionIdentifier.tryFrom (encodeVariableBytes id.value) id :=
  (encodeVariableBytes_reads small).map

section Properties

variable {σ : Type} {property : σ → UInt8 → FieldReader σ}

theorem propertyItem_reads {set next : σ} {id : UInt8} {value : Bytes}
    (read : Reads (property set id) value next) :
    Reads (propertyItem property set) (id :: value) next ∧ id :: value ≠ [] :=
  ⟨(Reads.index id).bind read, List.cons_ne_nil _ _⟩

/-- A property that may be missing, with its identifier. -/
theorem optionalProperty_items {α : Type} (property : σ → UInt8 → FieldReader σ) {value : Option α}
    {id : UInt8} {bytes : α → Bytes} (store : Option α → σ)
    (read : ∀ a ∈ value, Reads (property (store none) id) (bytes a) (store (some a))) :
    Items (propertyItem property) (store none) ((value.map fun a => id :: bytes a).getD [])
      (store value) := by
  apply Items.option store
  intro a present
  rw [Option.mem_def.mp present]
  exact propertyItem_reads (read a present)

/-- A property block is read back when its length fits in the length field. -/
theorem propertyBlock_reads {set next : σ} {bytes : Bytes} (small : bytes.length < 2 ^ 28)
    (items : Items (propertyItem property) set bytes next) :
    Reads (propertyBlock property set) (encodeVariableBytes bytes.length ++ bytes) next := by
  apply (encodeVariableBytes_reads small).bind
  intro before after
  exact block_reads items before after

/-- A property block takes at least the bytes of its length. -/
theorem propertyBlock_progresses (lawful : ∀ set id, Lawful (property set id)) (set : σ) :
    Progresses (propertyBlock property set) :=
  decodeVariableLength_progresses.bind fun _ =>
    Lawful.position.bind fun _ => propertyLoop_lawful lawful _ _

end Properties

end Aqua
