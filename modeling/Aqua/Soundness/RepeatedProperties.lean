import Aqua.Proofs.FieldSpells
import Aqua.Proofs.PacketGrammar
import Aqua.Spec.RepeatedProperties
import Aqua.Wire.Refusal

/-! # Which repetitions are rejected

A block of well-formed properties is refused exactly if one of them is not legal or the table of the packet
lets one of the repeated identifiers occur once. The tables leave single properties of all four packets
unchecked, so the last value wins there.
-/

namespace Aqua

open Wire Wire.Reader

variable {buf bytes content : Bytes} {pos next : ℕ} {F : Format Unit} {legal : Prop}

private theorem byte_takes {byte : UInt8} (stands : Stands buf pos [byte] next) :
    Format.byte.Takes buf pos byte next :=
  (Describes.index (ε := MqttError)).takes ((Reads.index byte).stands stands)

private theorem u16_takes {value : UInt16} (stands : Stands buf pos (be16Bytes value) next) :
    Format.u16.Takes buf pos value next :=
  (Describes.u16 (ε := MqttError)).takes ((Reads.u16 value).stands stands)

/-- A string takes its bytes if they are UTF-8. -/
theorem string_decides (short : content.length < 2 ^ 16) (stands : Stands buf pos (putTruncated content) next) :
    Grammar.string.Decides buf pos (fromUtf8 content ≠ none) next := by
  obtain ⟨front, behind⟩ := stands.split
  have size : (UInt16.ofNat content.length).toNat = content.length := UInt16.toNat_ofNat_of_lt' short
  refine (u16_takes front).bind_decides ?_
  rw [size]
  have taken : (Format.bytesChecked content.length).Takes buf _ content next :=
    (Describes.sliceOr (MqttError.insufficientBytes) _).takes ((Reads.sliceOr _ content).stands behind)
  exact taken.bind_decides .guard

private theorem ValueBytes.decides (value : ValueBytes F bytes legal) (stands : Stands buf pos bytes next) :
    F.Decides buf pos legal next := by
  cases value with
  | flag byte => exact (byte_takes stands).bind_decides .guard
  | u32 value =>
    exact (Describes.takes_unit (u32Field_meets MessageExpiryInterval.mk) ((u32Field_reads _ value).stands stands)).decides
  | nonzero16 value => exact (u16_takes stands).bind_decides .guard
  | string short => exact string_decides short stands
  | stringPair shortKey shortValue =>
    obtain ⟨first, second⟩ := stands.split
    exact (string_decides shortKey first).bind (string_decides shortValue second)
  | binary short =>
    exact (Describes.takes_unit (binaryField_meets CorrelationData.mk)
      ((binaryField_reads _ short).stands stands)).decides
  | variableLength reads =>
    exact ((decodeVariableLength_describes.takes (reads.stands stands)).ignore).decides

section Properties

variable {table : Grammar.PropertyTable} {rule : Grammar.PropertyRule} {id : UInt8} {seen : List UInt8}
  {p : WireProperty} {ps : List WireProperty} {endPos : ℕ}

/-- The table lets the identifier occur once. -/
def Grammar.PropertyTable.Once (table : Grammar.PropertyTable) (id : UInt8) : Prop :=
  ∃ rule, table id = some rule ∧ rule.once = true

private theorem Grammar.PropertyRule.format_takes (fresh : rule.once = true → id ∉ seen)
    (takes : rule.value.Takes buf pos () next) :
    (rule.format id seen).Takes buf pos (id :: seen) next where
  uncut cut := takes.uncut cut.right
  spans := ⟨fresh, takes.spans, rfl⟩
  only spans := ⟨spans.right.right, (takes.only spans.right.left).right⟩

private theorem Grammar.PropertyRule.format_refuses_value (refused : rule.value.Refuses buf pos) :
    (rule.format id seen).Refuses buf pos where
  uncut cut := refused.uncut cut.right
  unmet _ next spans := refused.unmet () next spans.right.left

private theorem Grammar.PropertyRule.format_refuses_again (once : rule.once = true) (again : id ∈ seen) :
    (rule.format id seen).Refuses buf pos where
  uncut cut := cut.left once again
  unmet _ _ spans := spans.left once again

/-- One property behind the identifiers seen. -/
def propertyFormat (table : Grammar.PropertyTable) (seen : List UInt8) : Format (List UInt8) := do
  let id ← Format.byte
  (Grammar.property (table id) id seen).such Grammar.anySet

private theorem WireProperty.identifier_takes (stands : Stands buf pos p.wire next) :
    Format.byte.Takes buf pos p.id (pos + 1) ∧ Stands buf (pos + 1) p.value next := by
  have parts : Stands buf pos ([p.id] ++ p.value) next := stands
  obtain ⟨front, behind⟩ := parts.split
  exact ⟨byte_takes front, behind⟩

private theorem WireProperty.takes (legal : p.Legal table) (fresh : table.Once p.id → p.id ∉ seen)
    (stands : Stands buf pos p.wire next) :
    (propertyFormat table seen).Takes buf pos (p.id :: seen) next := by
  obtain ⟨rule, known, _, value, holds⟩ := legal
  obtain ⟨identifier, behind⟩ := identifier_takes stands
  refine identifier.bind (.such trivial ?_)
  rw [known]
  exact Grammar.PropertyRule.format_takes (fun once => fresh ⟨rule, known, once⟩)
    ((value.decides behind).takes holds)

private theorem WireProperty.refuses (formed : p.Formed table)
    (spoilt : ¬ p.Legal table ∨ table.Once p.id ∧ p.id ∈ seen) (stands : Stands buf pos p.wire next) :
    (propertyFormat table seen).Refuses buf pos := by
  obtain ⟨identifier, behind⟩ := identifier_takes stands
  refine identifier.bind_refuses_iff.mpr (.such ?_)
  rcases spoilt with illegal | ⟨⟨rule, known, once⟩, again⟩
  · cases known : table p.id with
    | none => exact Format.fail_refuses
    | some rule =>
      obtain ⟨legal, value⟩ := formed rule known
      refine Grammar.PropertyRule.format_refuses_value ((value.decides behind).refuses fun holds => ?_)
      exact illegal ⟨rule, known, legal, value, holds⟩
  · rw [known]
    exact Grammar.PropertyRule.format_refuses_again once again

/-- A property that is not legal, or a second occurrence of an identifier that may occur once. -/
def Spoilt (table : Grammar.PropertyTable) (seen : List UInt8) (ps : List WireProperty) : Prop :=
  (∃ p ∈ ps, ¬ p.Legal table) ∨ ∃ id, table.Once id ∧
    (id ∈ seen ∧ id ∈ ps.map WireProperty.id ∨ (ps.map WireProperty.id).Duplicate id)

private theorem not_spoilt_nil : ¬ Spoilt table seen [] := by
  rintro (⟨_, wrong, _⟩ | ⟨_, _, ⟨_, wrong⟩ | wrong⟩)
  · cases wrong
  · cases wrong
  · cases wrong

/-- A list is spoilt by its first property or behind it. -/
theorem spoilt_cons_iff : Spoilt table seen (p :: ps) ↔
    (¬ p.Legal table ∨ table.Once p.id ∧ p.id ∈ seen) ∨ Spoilt table (p.id :: seen) ps := by
  unfold Spoilt
  constructor
  · rintro (⟨q, member, illegal⟩ | ⟨id, once, ⟨again, member⟩ | twice⟩)
    · rcases List.mem_cons.mp member with rfl | member
      · exact .inl (.inl illegal)
      · exact .inr (.inl ⟨q, member, illegal⟩)
    · rcases List.mem_cons.mp member with rfl | member
      · exact .inl (.inr ⟨once, again⟩)
      · exact .inr (.inr ⟨id, once, .inl ⟨List.mem_cons_of_mem _ again, member⟩⟩)
    · rcases List.duplicate_cons_iff.mp twice with ⟨rfl, member⟩ | twice
      · exact .inr (.inr ⟨p.id, once, .inl ⟨List.mem_cons_self, member⟩⟩)
      · exact .inr (.inr ⟨id, once, .inr twice⟩)
  · rintro ((illegal | ⟨once, again⟩) | ⟨q, member, illegal⟩ | ⟨id, once, ⟨again, member⟩ | twice⟩)
    · exact .inl ⟨p, List.mem_cons_self, illegal⟩
    · exact .inr ⟨p.id, once, .inl ⟨again, List.mem_cons_self⟩⟩
    · exact .inl ⟨q, List.mem_cons_of_mem _ member, illegal⟩
    · rcases List.mem_cons.mp again with rfl | again
      · exact .inr ⟨p.id, once, .inr (List.duplicate_cons_iff.mpr (.inl ⟨rfl, member⟩))⟩
      · exact .inr ⟨id, once, .inl ⟨again, List.mem_cons_of_mem _ member⟩⟩
    · exact .inr ⟨id, once, .inr (List.duplicate_cons_iff.mpr (.inr twice))⟩

/-- A block is refused exactly if its list is spoilt. -/
theorem properties_refuses_iff (formed : ∀ p ∈ ps, p.Formed table)
    (stands : Stands buf pos (ps.flatMap WireProperty.wire) endPos) :
    (Format.block (propertyFormat table) endPos seen).Refuses buf pos ↔ Spoilt table seen ps := by
  induction ps generalizing pos seen with
  | nil =>
    obtain rfl : endPos = pos := stands.length
    exact iff_of_false Format.block_not_refuses not_spoilt_nil
  | cons p ps ih =>
    obtain ⟨front, behind⟩ := stands.split
    have before : pos < endPos := by
      have far := behind.length
      have wide : p.wire.length = p.value.length + 1 := rfl
      omega
    rw [spoilt_cons_iff]
    by_cases spoilt : ¬ p.Legal table ∨ table.Once p.id ∧ p.id ∈ seen
    · have refused := WireProperty.refuses (formed p List.mem_cons_self) spoilt front
      exact iff_of_true (refused.block before) (.inl spoilt)
    · have legal : p.Legal table := not_not.mp fun illegal => spoilt (.inl illegal)
      have taken := WireProperty.takes legal (fun once again => spoilt (.inr ⟨once, again⟩)) front
      rw [taken.block_refuses_iff before, or_iff_right spoilt]
      exact ih (fun q member => formed q (List.mem_cons_of_mem p member)) behind

private theorem propertyBlock_refuses_iff {block : Bytes} (formed : ∀ p ∈ ps, p.Formed table)
    (whole : BlockOf WireProperty.wire ps block) (stands : Stands buf pos block next) :
    (table.block Grammar.anySet).Refuses buf pos ↔ Spoilt table [] ps := by
  obtain ⟨field, length, rfl⟩ := whole
  obtain ⟨front, behind⟩ := stands.split
  have size := behind.length
  have announced := decodeVariableLength_describes.takes (length.stands front)
  refine announced.bind_refuses_iff.trans (Format.Takes.position.bind_refuses_iff.trans ?_)
  rw [Format.ignore_refuses_iff, ← size]
  exact properties_refuses_iff formed behind

end Properties

namespace Carrier

variable {c : Carrier} {ps : List WireProperty} {build : Build} {remainingLength : ℕ} {block : Bytes}

private theorem versioned_five (table : Grammar.PropertyTable) :
    Grammar.versioned ⟨5⟩ table = table.block Grammar.anySet := by
  rw [Grammar.versioned, Format.part, if_pos (by decide)]

private theorem left_not_refuses (used : ℕ) : ¬ (Grammar.left build remainingLength used).Refuses buf pos := by
  intro refused
  by_cases enough : used ≤ remainingLength
  · exact refused.unmet _ pos ⟨rfl, .inl ⟨enough, rfl⟩⟩
  cases checks : build.overflowChecks with
  | true => exact refused.uncut ⟨Nat.lt_of_not_le enough, checks⟩
  | false => exact refused.unmet _ pos ⟨rfl, .inr ⟨Nat.lt_of_not_le enough, checks, rfl⟩⟩

/-- The length of the payload is not what a header is refused for. -/
theorem block_decides {start : ℕ} {payload : ℕ → Format Unit} (table : Grammar.PropertyTable) :
    (do
      Grammar.versioned ⟨5⟩ table
      let next ← Format.position
      let length ← Grammar.left build remainingLength (next - start)
      pure (payload length) : Format (Format Unit)).Refuses buf pos ↔
    (table.block Grammar.anySet).Refuses buf pos := by
  rw [versioned_five]
  refine Format.bind_refuses_iff fun _ mid => ?_
  rw [Format.Takes.position.bind_refuses_iff]
  rw [Format.bind_refuses_iff fun _ _ => Format.Takes.pure.not_refuses]
  exact left_not_refuses _

private theorem identifier_takes (delivery : Delivery)
    (stands : Stands buf pos (ClientPacket.identifier delivery) next) :
    (Grammar.publishIdentifier.part (delivery.qos = .qos1 ∨ delivery.qos = .qos2)).Takes buf pos () next := by
  have wide := stands.length
  have within := stands.within
  cases delivery with
  | atMostOnce =>
    obtain rfl : next = pos := wide
    exact .pure
  | atLeastOnce id =>
    have enough : pos + 1 ≤ buf.length := by
      rw [wide] at within
      exact Nat.le_of_succ_le within
    exact (u16_takes stands).ignore.atLeast enough
  | exactlyOnce id =>
    have enough : pos + 1 ≤ buf.length := by
      rw [wide] at within
      exact Nat.le_of_succ_le within
    exact (u16_takes stands).ignore.atLeast enough

/-- The header of a packet is refused where its property block is. -/
theorem header_refuses_iff (fits : c.Fits) (announced : c.front.length < remainingLength)
    (stands : Stands buf 0 c.front next) :
    (Grammar.header build ⟨5⟩ c.start remainingLength).Refuses buf 0 ↔
      (c.table.block Grammar.anySet).Refuses buf next := by
  cases c with
  | publish dup delivery retain topic =>
    obtain ⟨front, behind⟩ := stands.split
    have name := (string_decides fits front).takes (by rw [fromUtf8_stringBytes]; exact Option.some_ne_none _)
    refine Format.Takes.position.bind_refuses_iff.trans (name.bind_refuses_iff.trans ?_)
    refine (identifier_takes delivery behind).bind_refuses_iff.trans ?_
    exact block_decides _
  | subscribe id =>
    refine Format.Takes.position.bind_refuses_iff.trans ?_
    refine (u16_takes stands).ignore.bind_refuses_iff.trans ?_
    exact block_decides _
  | pubrel id reason =>
    obtain ⟨front, behind⟩ := stands.split
    have more : remainingLength ≠ 2 := by
      have wide : (pubrel id reason).front.length = 3 := rfl
      omega
    have known : reason.toByte = 0x00 ∨ reason.toByte = 0x92 := by
      cases reason
      · exact .inl rfl
      · exact .inr rfl
    have code : Grammar.pubrelReason.Decides buf _ (reason.toByte = 0x00 ∨ reason.toByte = 0x92) next :=
      (byte_takes behind).checked.bind_decides .guard
    refine (u16_takes front).ignore.bind_refuses_iff.trans ?_
    refine (Format.bind_refuses_iff fun _ _ => Format.Takes.pure.not_refuses).trans ?_
    rw [Format.part, if_pos more]
    exact (code.takes known).bind_refuses_iff.trans (by rw [versioned_five]; rfl)
  | disconnect reason =>
    have more : remainingLength ≠ 0 := Nat.ne_zero_of_lt announced
    have code : Grammar.disconnectReason.Decides buf _ (DisconnectReasonCode.ofByte? reason ≠ none) next :=
      (byte_takes stands).checked.bind_decides .guard
    refine (Format.bind_refuses_iff fun _ _ => Format.Takes.pure.not_refuses).trans ?_
    rw [Format.part, if_pos more]
    exact (code.takes fits).bind_refuses_iff.trans (by rw [versioned_five]; rfl)

/-- What the loop of a packet checks is what its table lets occur once. -/
theorem once_iff {id : UInt8} : c.table.Once id ↔ id ∈ c.checked := by
  constructor
  · rintro ⟨rule, known, once⟩
    cases c with
    | publish =>
      dsimp only [table, Grammar.publishTable] at known
      split_ifs at known <;> cases known <;> cases once <;> simp [checked, *] <;> decide
    | subscribe =>
      dsimp only [table, Grammar.subscribeTable] at known
      split_ifs at known <;> cases known <;> cases once
    | pubrel =>
      dsimp only [table, Grammar.pubrelTable] at known
      split_ifs at known <;> cases known <;> cases once
    | disconnect =>
      dsimp only [table, Grammar.disconnectTable] at known
      split_ifs at known <;> cases known <;> cases once <;> simp [checked, *] <;> decide
  · intro member
    cases c with
    | publish =>
      simp only [checked, List.mem_cons, List.not_mem_nil, or_false] at member
      rcases member with rfl | rfl | rfl | rfl <;> exact ⟨_, rfl, rfl⟩
    | subscribe => cases member
    | pubrel => cases member
    | disconnect =>
      simp only [checked, List.mem_cons, List.not_mem_nil, or_false] at member
      rcases member with rfl | rfl <;> exact ⟨_, rfl, rfl⟩

private theorem spoilt_iff : Spoilt c.table [] ps ↔ Repeats c.checked ps ∨ ∃ p ∈ ps, ¬ p.Legal c.table := by
  unfold Spoilt Repeats
  rw [or_comm]
  refine or_congr (exists_congr fun id => and_congr once_iff ?_) Iff.rfl
  simp only [List.not_mem_nil, false_and, false_or]

private theorem start_fresh (c : Carrier) : c.start.Fresh := by
  cases c with
  | publish dup delivery retain _ => exact .publish dup delivery.qos retain
  | subscribe => exact .subscribe
  | pubrel => exact .pubrel
  | disconnect => exact .disconnect

/-- A packet that repeats a property of which the protocol allows one is rejected exactly if its loop checks
one of the repeated identifiers or some property is not legal. -/
theorem repetition_rejected_iff (fits : c.Fits) (formed : ∀ p ∈ ps, p.Formed c.table)
    (whole : BlockOf WireProperty.wire ps block) (announced : c.front.length < remainingLength) (after : Bytes) :
    Repeats c.single ps → (c.Rejects build remainingLength block after ↔
      Repeats c.checked ps ∨ ∃ p ∈ ps, ¬ p.Legal c.table) := by
  intro _
  have stands : Stands (c.front ++ (block ++ after)) 0 (c.front ++ block) (c.front ++ block).length :=
    ⟨[], after, (List.append_assoc ..).symm, rfl, (Nat.zero_add _).symm⟩
  obtain ⟨front, behind⟩ := stands.split
  have describes := c.start.decodeVariableHeader_describes build ⟨5⟩ remainingLength c.start_fresh
  have halts := (c.start.decodeVariableHeader_lawful build remainingLength (some ⟨5⟩)).halts
    (c.front ++ (block ++ after)) 0
  calc c.Rejects build remainingLength block after
    _ ↔ (Grammar.header build ⟨5⟩ c.start remainingLength).Refuses (c.front ++ (block ++ after)) 0 :=
        describes.err_iff halts
    _ ↔ (c.table.block Grammar.anySet).Refuses (c.front ++ (block ++ after)) _ :=
        header_refuses_iff fits announced front
    _ ↔ Spoilt c.table [] ps := propertyBlock_refuses_iff formed whole behind
    _ ↔ Repeats c.checked ps ∨ ∃ p ∈ ps, ¬ p.Legal c.table := spoilt_iff

end Carrier

/-- A PUBLISH with two payload format indicators. -/
def formatsPublish : Carrier := .publish {} .atMostOnce {} {}

def twoFormats : List WireProperty := [⟨0x01, [0x00]⟩, ⟨0x01, [0x01]⟩]

def twoFormatsBlock : Bytes := [0x04, 0x01, 0x00, 0x01, 0x01]

private theorem formatsPublish_fits : formatsPublish.Fits := Nat.two_pow_pos 16

private theorem twoFormats_formed : ∀ p ∈ twoFormats, p.Formed formatsPublish.table := by
  intro p member rule known
  rcases List.mem_cons.mp member with rfl | member
  · cases known
    exact ⟨_, .flag 0x00⟩
  · obtain rfl := List.mem_singleton.mp member
    cases known
    exact ⟨_, .flag 0x01⟩

private theorem twoFormats_block : BlockOf WireProperty.wire twoFormats twoFormatsBlock :=
  ⟨[0x04], decodeVariableLength_reads (by decide), rfl⟩

theorem Carrier.repetition_rejected_iff_twoFormats : formatsPublish.Rejects ⟨true⟩ 7 twoFormatsBlock [] ↔
    Repeats formatsPublish.checked twoFormats ∨ ∃ p ∈ twoFormats, ¬ p.Legal formatsPublish.table :=
  repetition_rejected_iff formatsPublish_fits twoFormats_formed twoFormats_block (by decide) [] (by decide)

/-- Of two payload format indicators the second wins. -/
theorem twoFormats_accepted : ¬ ∀ (c : Carrier) (build : Build) (remainingLength : ℕ)
    (ps : List WireProperty) (block after : Bytes), c.Fits → (∀ p ∈ ps, p.Formed c.table) →
    BlockOf WireProperty.wire ps block → c.front.length < remainingLength → Repeats c.single ps →
    c.Rejects build remainingLength block after := by
  intro claim
  obtain ⟨e, error⟩ := claim formatsPublish ⟨true⟩ 7 twoFormats twoFormatsBlock [] formatsPublish_fits
    twoFormats_formed twoFormats_block (by decide) (by decide)
  have accepted : formatsPublish.start.decodeVariableHeader ⟨true⟩ 7 (some ⟨5⟩)
      (formatsPublish.front ++ (twoFormatsBlock ++ [])) 0 =
        .ok (.publish { pubProperties := some { payloadFormatIndicator := some .utf8 } }, 7) := by
    decide
  cases accepted.symm.trans error

end Aqua
