import Aqua.Proofs.ConnackBlock
import Aqua.Proofs.FieldWidth
import Aqua.Spec.ConnackReader
import Mathlib.Tactic.IntervalCases

/-! # The properties of a CONNACK, read back

Three fields are written without their length: the assigned client identifier, the reason string and the
authentication data. A block without them is read back as the set it was written from, and no other set
is written as the same block. A block with one of them is read as something else or not at all.
-/

namespace Aqua

open Wire Wire.Reader

namespace ConnackProperties

variable {set next p q : ConnackProperties} {id : UInt8} {buf block : Bytes} {pos last : ℕ}

/-- None of the fields that are written without a length is set. -/
def Delimited (p : ConnackProperties) : Prop :=
  p.assignedClientIdentifier = none ∧ p.reasonString = none ∧ p.authenticationData = none

instance (p : ConnackProperties) : Decidable p.Delimited := inferInstanceAs (Decidable (_ ∧ _ ∧ _))

/-- A property `id` with a value that is `width` bytes wide takes the first set to the second. -/
inductive Stores (set : ConnackProperties) : UInt8 → ℕ → ConnackProperties → Prop
  | sessionExpiryInterval (fresh : set.sessionExpiryInterval = none) (c : UInt32) :
      Stores set 0x11 4 { set with sessionExpiryInterval := some c }
  | receiveMaximum (fresh : set.receiveMaximum = none) (c : UInt16) :
      Stores set 0x21 2 { set with receiveMaximum := some c }
  | maximumQos (fresh : set.maximumQos = none) (c : UInt8) :
      Stores set 0x24 1 { set with maximumQos := some c }
  | retainAvailable (fresh : set.retainAvailable = none) (c : Bool) :
      Stores set 0x25 1 { set with retainAvailable := some c }
  | maximumPacketSize (fresh : set.maximumPacketSize = none) (c : UInt32) :
      Stores set 0x27 4 { set with maximumPacketSize := some c }
  | assignedClientIdentifier (fresh : set.assignedClientIdentifier = none) (c : String) :
      Stores set 0x12 (stringWidth c) { set with assignedClientIdentifier := some c }
  | topicAliasMaximum (fresh : set.topicAliasMaximum = none) (c : UInt16) :
      Stores set 0x22 2 { set with topicAliasMaximum := some c }
  | reasonString (fresh : set.reasonString = none) (c : String) :
      Stores set 0x1f (stringWidth c) { set with reasonString := some c }
  | userProperties (property : UserProperty) :
      Stores set 0x26 (stringWidth property.key + stringWidth property.value)
        { set with userProperties := set.userProperties ++ [(property.key, property.value)] }
  | wildcardSubscriptionAvailable (fresh : set.wildcardSubscriptionAvailable = none) (c : UInt8) :
      Stores set 0x28 1 { set with wildcardSubscriptionAvailable := some c }
  | subscriptionIdentifiersAvailable (fresh : set.subscriptionIdentifiersAvailable = none) (c : UInt8) :
      Stores set 0x29 1 { set with subscriptionIdentifiersAvailable := some c }
  | sharedSubscriptionAvailable (fresh : set.sharedSubscriptionAvailable = none) (c : UInt8) :
      Stores set 0x2a 1 { set with sharedSubscriptionAvailable := some c }
  | serverKeepAlive (fresh : set.serverKeepAlive = none) (c : UInt16) :
      Stores set 0x13 2 { set with serverKeepAlive := some c }
  | responseInformation (fresh : set.responseInformation = none) (c : String) :
      Stores set 0x1a (stringWidth c) { set with responseInformation := some c }
  | serverReference (fresh : set.serverReference = none) (c : String) :
      Stores set 0x1c (stringWidth c) { set with serverReference := some c }
  | authenticationMethod (fresh : set.authenticationMethod = none) (c : String) :
      Stores set 0x15 (stringWidth c) { set with authenticationMethod := some c }
  | authenticationData (fresh : set.authenticationData = none) (c : Bytes) :
      Stores set 0x16 (binaryWidth c) { set with authenticationData := some c }

/-- A property that may occur once is stored if it was not there. -/
theorem once_stores {α : Type} {current : Option α} {value : FieldReader α}
    {store : α → ConnackProperties} {width : α → ℕ} (sized : Sized value width)
    (stores : current = none → ∀ c, Stores set id (width c) (store c))
    (read : once current value store buf pos = .ok (next, last)) :
    ∃ width, last = pos + width ∧ Stores set id width next := by
  unfold once at read
  split at read
  · cases read
  · next absent =>
    obtain ⟨c, inner, rfl⟩ := map_eq_ok_iff.mp read
    exact ⟨_, sized inner, stores (Option.not_isSome_iff_eq_none.mp absent) c⟩

private theorem decodeU32Bytes_sized : Sized decodeU32Bytes fun _ => 4 := Sized.u32Slice _

/-- One entry of the table of properties. -/
theorem entry_stores {r r' : FieldReader ConnackProperties} {P : Prop} {a : UInt8}
    (here : id = a → r buf pos = .ok (next, last) → P) (there : r' buf pos = .ok (next, last) → P)
    (read : (if id = a then r else r') buf pos = .ok (next, last)) : P := by
  by_cases known : id = a
  · rw [if_pos known] at read
    exact here known read
  · rw [if_neg known] at read
    exact there read

/-- What the value behind an identifier can do. -/
theorem readProperty_stores (read : set.readProperty id buf pos = .ok (next, last)) :
    ∃ width, last = pos + width ∧ Stores set id width next := by
  revert read
  unfold readProperty
  apply entry_stores
  · rintro rfl read
    exact once_stores decodeU32Bytes_sized .sessionExpiryInterval read
  apply entry_stores
  · rintro rfl read
    exact once_stores Sized.u16 .receiveMaximum read
  apply entry_stores
  · rintro rfl read
    exact once_stores Sized.index .maximumQos read
  apply entry_stores
  · rintro rfl read
    exact once_stores (flagField_sized _ _) .retainAvailable read
  apply entry_stores
  · rintro rfl read
    exact once_stores decodeU32Bytes_sized .maximumPacketSize read
  apply entry_stores
  · rintro rfl read
    exact once_stores decodeUtf8String_sized .assignedClientIdentifier read
  apply entry_stores
  · rintro rfl read
    exact once_stores Sized.u16 .topicAliasMaximum read
  apply entry_stores
  · rintro rfl read
    exact once_stores decodeUtf8String_sized .reasonString read
  apply entry_stores
  · rintro rfl read
    obtain ⟨property, mid, inner, stored⟩ := bind_eq_ok_iff.mp read
    cases stored
    exact ⟨_, UserProperty.tryFrom_sized inner, .userProperties property⟩
  apply entry_stores
  · rintro rfl read
    exact once_stores Sized.index .wildcardSubscriptionAvailable read
  apply entry_stores
  · rintro rfl read
    exact once_stores Sized.index .subscriptionIdentifiersAvailable read
  apply entry_stores
  · rintro rfl read
    exact once_stores Sized.index .sharedSubscriptionAvailable read
  apply entry_stores
  · rintro rfl read
    exact once_stores Sized.u16 .serverKeepAlive read
  apply entry_stores
  · rintro rfl read
    exact once_stores decodeUtf8String_sized .responseInformation read
  apply entry_stores
  · rintro rfl read
    exact once_stores decodeUtf8String_sized .serverReference read
  apply entry_stores
  · rintro rfl read
    exact once_stores decodeUtf8String_sized .authenticationMethod read
  apply entry_stores
  · rintro rfl read
    exact once_stores binary_sized .authenticationData read
  rintro ⟨⟩

@[simp] theorem optionSize_none {α : Type} (size : α → ℕ) : optionSize none size = 0 := rfl

@[simp] theorem optionSize_some {α : Type} (a : α) (size : α → ℕ) : optionSize (some a) size = size a := rfl

/-- A set grows by the identifier and the value, lengths included. -/
theorem Stores.size {width : ℕ} (stores : Stores set id width next) :
    next.size 2 = set.size 2 + (1 + width) := by
  cases stores with
  | userProperties property =>
    simp only [ConnackProperties.size, List.map_append, List.sum_append, List.map_cons, List.map_nil,
      List.sum_cons, List.sum_nil, stringWidth]
    omega
  | _ fresh c =>
    simp only [ConnackProperties.size, fresh, optionSize_none, optionSize_some, stringWidth, binaryWidth]
    omega

/-- The three fields are never taken out again. -/
theorem Stores.delimited {width : ℕ} (stores : Stores set id width next) (delimited : next.Delimited) :
    set.Delimited ∧ id ≠ 0x12 ∧ id ≠ 0x1f ∧ id ≠ 0x16 := by
  obtain ⟨assigned, reason, data⟩ := delimited
  cases stores with
  | assignedClientIdentifier fresh c => cases assigned
  | reasonString fresh c => cases reason
  | authenticationData fresh c => cases data
  | _ => exact ⟨⟨assigned, reason, data⟩, by decide, by decide, by decide⟩

/-- The fields in the order in which they are written. -/
def part (p : ConnackProperties) : ℕ → Bytes
  | 0 => optionBytes p.sessionExpiryInterval fun c => 0x11 :: be32Bytes c
  | 1 => optionBytes p.receiveMaximum fun c => 0x21 :: be16Bytes c
  | 2 => optionBytes p.maximumQos fun c => [0x24, c]
  | 3 => optionBytes p.retainAvailable fun c => [0x25, if c then 1 else 0]
  | 4 => optionBytes p.maximumPacketSize fun c => 0x27 :: be32Bytes c
  | 5 => optionBytes p.assignedClientIdentifier fun c => 0x12 :: stringBytes c
  | 6 => optionBytes p.topicAliasMaximum fun c => 0x22 :: be16Bytes c
  | 7 => optionBytes p.reasonString fun c => 0x1f :: stringBytes c
  | 8 => p.userProperties.flatMap userBytes
  | 9 => optionBytes p.wildcardSubscriptionAvailable fun c => [0x28, c]
  | 10 => optionBytes p.subscriptionIdentifiersAvailable fun c => [0x29, c]
  | 11 => optionBytes p.sharedSubscriptionAvailable fun c => [0x2a, c]
  | 12 => optionBytes p.serverKeepAlive fun c => 0x13 :: be16Bytes c
  | 13 => optionBytes p.responseInformation fun c => 0x1a :: putTruncated (stringBytes c)
  | 14 => optionBytes p.serverReference fun c => 0x1c :: putTruncated (stringBytes c)
  | 15 => optionBytes p.authenticationMethod fun c => 0x15 :: putTruncated (stringBytes c)
  | 16 => optionBytes p.authenticationData fun c => 0x16 :: c
  | _ => []

/-- The first fields of a set. -/
def upTo (p : ConnackProperties) (count : ℕ) : ConnackProperties where
  sessionExpiryInterval := if 0 < count then p.sessionExpiryInterval else none
  receiveMaximum := if 1 < count then p.receiveMaximum else none
  maximumQos := if 2 < count then p.maximumQos else none
  retainAvailable := if 3 < count then p.retainAvailable else none
  maximumPacketSize := if 4 < count then p.maximumPacketSize else none
  assignedClientIdentifier := if 5 < count then p.assignedClientIdentifier else none
  topicAliasMaximum := if 6 < count then p.topicAliasMaximum else none
  reasonString := if 7 < count then p.reasonString else none
  userProperties := if 8 < count then p.userProperties else []
  wildcardSubscriptionAvailable := if 9 < count then p.wildcardSubscriptionAvailable else none
  subscriptionIdentifiersAvailable := if 10 < count then p.subscriptionIdentifiersAvailable else none
  sharedSubscriptionAvailable := if 11 < count then p.sharedSubscriptionAvailable else none
  serverKeepAlive := if 12 < count then p.serverKeepAlive else none
  responseInformation := if 13 < count then p.responseInformation else none
  serverReference := if 14 < count then p.serverReference else none
  authenticationMethod := if 15 < count then p.authenticationMethod else none
  authenticationData := if 16 < count then p.authenticationData else none

private theorem written_eq (p : ConnackProperties) : p.written = (List.range 17).flatMap p.part := by
  have range : List.range 17 = [0, 1, 2, 3, 4, 5, 6, 7, 8, 9, 10, 11, 12, 13, 14, 15, 16] := rfl
  simp only [range, List.flatMap_cons, List.flatMap_nil, List.append_nil, written, part, List.append_assoc]

abbrev connackItem : ConnackProperties → FieldReader ConnackProperties := propertyItem readProperty

private theorem once_reads {α : Type} {value : FieldReader α} {bytes : Bytes} {c : α}
    {store : α → ConnackProperties} (read : Reads value bytes c) :
    Reads (once none value store) bytes (store c) := read.map

private theorem retainAvailable_reads (c : Bool) :
    Reads (flagField false true) [if c then 1 else 0] c := by
  apply (Reads.index _).bind_nil
  cases c <;> exact Reads.pure _

private theorem user_items (start : ConnackProperties) {user : List (String × String)}
    (fits : ∀ property ∈ user, UserFits property) :
    Items connackItem start (user.flatMap userBytes)
      { start with userProperties := start.userProperties ++ user } := by
  induction user generalizing start with
  | nil =>
    rw [List.append_nil]
    exact .nil start
  | cons property user ih =>
    obtain ⟨⟨key, value⟩, others⟩ := List.forall_mem_cons.mp fits
    have pair : Reads UserProperty.tryFrom _ (⟨property.1, property.2⟩ : UserProperty) :=
      UserProperty.tryFrom_reads key value
    have first : Reads (start.readProperty 0x26) _
        { start with userProperties := start.userProperties ++ [property] } :=
      pair.bind_nil (Reads.pure _)
    obtain ⟨read, nonempty⟩ := propertyItem_reads first
    have rest := ih { start with userProperties := start.userProperties ++ [property] } others
    rw [List.append_assoc] at rest
    exact .cons read nonempty rest

/-- The field at this place is not one of the three without a length. -/
def Plain (p : ConnackProperties) (k : ℕ) : Prop :=
  (k = 5 → p.assignedClientIdentifier = none) ∧ (k = 7 → p.reasonString = none) ∧
    (k = 16 → p.authenticationData = none)

/-- Each field is read into what was read so far. -/
theorem part_items (checked : p.Checked) {k : ℕ} (lt : k < 17) (plain : p.Plain k) :
    Items connackItem (p.upTo k) (p.part k) (p.upTo (k + 1)) := by
  interval_cases k
  · exact optionalProperty_items readProperty (fun v => { p.upTo 0 with sessionExpiryInterval := v })
      fun c _ => once_reads (Reads.u32Slice _ c)
  · exact optionalProperty_items readProperty (fun v => { p.upTo 1 with receiveMaximum := v })
      fun c _ => once_reads (Reads.u16 c)
  · exact optionalProperty_items readProperty (fun v => { p.upTo 2 with maximumQos := v })
      fun c _ => once_reads (Reads.index c)
  · exact optionalProperty_items readProperty (fun v => { p.upTo 3 with retainAvailable := v })
      fun c _ => once_reads (retainAvailable_reads c)
  · exact optionalProperty_items readProperty (fun v => { p.upTo 4 with maximumPacketSize := v })
      fun c _ => once_reads (Reads.u32Slice _ c)
  · exact optionalProperty_items readProperty (fun v => { p.upTo 5 with assignedClientIdentifier := v })
      fun c present => nomatch (plain.1 rfl).symm.trans present
  · exact optionalProperty_items readProperty (fun v => { p.upTo 6 with topicAliasMaximum := v })
      fun c _ => once_reads (Reads.u16 c)
  · exact optionalProperty_items readProperty (fun v => { p.upTo 7 with reasonString := v })
      fun c present => nomatch (plain.2.1 rfl).symm.trans present
  · exact user_items (p.upTo 8) checked.userProperties
  · exact optionalProperty_items readProperty (fun v => { p.upTo 9 with wildcardSubscriptionAvailable := v })
      fun c _ => once_reads (Reads.index c)
  · exact optionalProperty_items readProperty (fun v => { p.upTo 10 with subscriptionIdentifiersAvailable := v })
      fun c _ => once_reads (Reads.index c)
  · exact optionalProperty_items readProperty (fun v => { p.upTo 11 with sharedSubscriptionAvailable := v })
      fun c _ => once_reads (Reads.index c)
  · exact optionalProperty_items readProperty (fun v => { p.upTo 12 with serverKeepAlive := v })
      fun c _ => once_reads (Reads.u16 c)
  · exact optionalProperty_items readProperty (fun v => { p.upTo 13 with responseInformation := v })
      fun c present => once_reads (decodeUtf8String_reads (checked.responseInformation c present))
  · exact optionalProperty_items readProperty (fun v => { p.upTo 14 with serverReference := v })
      fun c present => once_reads (decodeUtf8String_reads (checked.serverReference c present))
  · exact optionalProperty_items readProperty (fun v => { p.upTo 15 with authenticationMethod := v })
      fun c present => once_reads (decodeUtf8String_reads (checked.authenticationMethod c present))
  · exact optionalProperty_items readProperty (fun v => { p.upTo 16 with authenticationData := v })
      fun c present => nomatch (plain.2.2 rfl).symm.trans present

/-- The fields up to a place where one has no length. -/
theorem parts_items (checked : p.Checked) {count : ℕ} (within : count ≤ 17)
    (plain : ∀ k < count, p.Plain k) :
    Items connackItem {} ((List.range count).flatMap p.part) (p.upTo count) := by
  induction count with
  | zero => exact .nil _
  | succ count ih =>
    rw [List.range_succ, List.flatMap_append, List.flatMap_singleton]
    have earlier := ih (by omega) fun k lt => plain k (by omega)
    exact earlier.append (part_items checked within (plain count (Nat.lt_succ_self count)))

private theorem written_items (checked : p.Checked) (delimited : p.Delimited) :
    Items connackItem {} p.written p := by
  rw [written_eq]
  exact parts_items checked (le_refl 17) fun k _ =>
    ⟨fun _ => delimited.1, fun _ => delimited.2.1, fun _ => delimited.2.2⟩

private theorem readsBack_of_items (items : Items connackItem {} block p) : p.ReadsBack block := by
  have read := @block_reads _ _ MqttError.invalidFormat _ _ _ _ items [] []
  simp only [List.append_nil, List.nil_append, List.length_nil, Nat.zero_add] at read
  exact read

/-- A set that was read back is as large as its block. -/
theorem ReadsBack.size (reads : p.ReadsBack block) : p.size 2 = block.length := by
  refine block_invariant (fun set pos => set.size 2 = pos) ?_ rfl reads
  intro set pos next last before read
  obtain ⟨id, mid, first, value⟩ := bind_eq_ok_iff.mp read
  obtain ⟨_, rfl⟩ := index_eq_ok_iff.mp first
  obtain ⟨width, rfl, stores⟩ := readProperty_stores value
  rw [stores.size, before, Nat.add_assoc]

/-- The lengths that are not written are missing. -/
theorem size_eq_iff (p : ConnackProperties) : p.size 2 = p.size 0 ↔ p.Delimited := by
  unfold Delimited size
  cases p.assignedClientIdentifier <;> cases p.reasonString <;> cases p.authenticationData <;>
    simp <;> omega

private theorem delimited_of_items {t : ConnackProperties} (items : Items connackItem set block t)
    (delimited : t.Delimited) : set.Delimited := by
  induction items with
  | nil _ => exact delimited
  | cons read nonempty _ ih =>
    obtain ⟨id, mid, first, value⟩ := bind_eq_ok_iff.mp (read.start [])
    obtain ⟨width, _, stores⟩ := readProperty_stores value
    exact (stores.delimited (ih delimited)).1

/-- A set that is not delimited, written up to the first field without a length. -/
theorem undelimited_split (bad : ¬ q.Delimited) : ∃ count < 17, ∃ id content,
    (∀ k < count, q.Plain k) ∧ q.part count = id :: content ∧ (id = 0x12 ∨ id = 0x1f ∨ id = 0x16) := by
  by_cases assigned : q.assignedClientIdentifier = none
  · by_cases reason : q.reasonString = none
    · obtain ⟨data, known⟩ := Option.ne_none_iff_exists'.mp fun none => bad ⟨assigned, reason, none⟩
      refine ⟨16, by decide, 0x16, data, fun k lt => ?_, by rw [part, known]; rfl, .inr (.inr rfl)⟩
      exact ⟨fun _ => assigned, fun _ => reason, fun same => by omega⟩
    · obtain ⟨text, known⟩ := Option.ne_none_iff_exists'.mp reason
      refine ⟨7, by decide, 0x1f, stringBytes text, fun k lt => ?_, by rw [part, known]; rfl,
        .inr (.inl rfl)⟩
      exact ⟨fun _ => assigned, fun same => by omega, fun same => by omega⟩
  · obtain ⟨name, known⟩ := Option.ne_none_iff_exists'.mp assigned
    refine ⟨5, by decide, 0x12, stringBytes name, fun k lt => ?_, by rw [part, known]; rfl, .inl rfl⟩
    exact ⟨fun same => by omega, fun same => by omega, fun same => by omega⟩

/-- A set with one of the three fields is not written like a set without them. -/
theorem written_ne (checked : q.Checked) (bad : ¬ q.Delimited) (items : Items connackItem {} q.written p) :
    ¬ p.Delimited := by
  intro delimited
  obtain ⟨count, lt, id, content, plain, part, known⟩ := undelimited_split bad
  have split : ∀ count < 17,
      List.range 17 = List.range count ++ count :: List.range' (count + 1) (16 - count) := by decide
  rw [written_eq, split count lt, List.flatMap_append, List.flatMap_cons, part, List.cons_append] at items
  obtain ⟨mid, head, rest, same, nonempty, read, tail⟩ :=
    ((parts_items checked lt.le plain).after items).head (List.cons_ne_nil _ _)
  obtain ⟨first, _, index, value⟩ := bind_eq_ok_iff.mp (read.start rest)
  rw [← same] at index
  obtain ⟨starts, _⟩ := index_eq_ok_iff.mp index
  cases starts
  obtain ⟨_, _, stores⟩ := readProperty_stores value
  obtain ⟨_, other⟩ := stores.delimited (delimited_of_items tail delimited)
  rcases known with rfl | rfl | rfl
  · exact other.1 rfl
  · exact other.2.1 rfl
  · exact other.2.2 rfl

end ConnackProperties

open ConnackProperties

/-- A property set that is written is read back field by field, and no other set is written as the same
bytes, if and only if it has no assigned client identifier, no reason string and no authentication data. -/
theorem connack_readsBack_iff {p : ConnackProperties} {block : Bytes} (built : p.buildBytes = .ok block) :
    (p.ReadsBack block ∧ ∀ q : ConnackProperties, q.buildBytes = .ok block → q = p) ↔ p.Delimited := by
  obtain ⟨checked, rfl⟩ := buildBytes_eq_ok_iff.mp built
  constructor
  · rintro ⟨reads, _⟩
    rw [← size_eq_iff, reads.size, written_length]
  · intro delimited
    have reads := readsBack_of_items (written_items checked delimited)
    refine ⟨reads, fun q same => ?_⟩
    obtain ⟨checked', same⟩ := buildBytes_eq_ok_iff.mp same
    have items := written_items checked delimited
    rw [same] at items reads
    have delimited' : q.Delimited := not_not.mp fun bad => written_ne checked' bad items delimited
    have other := readsBack_of_items (written_items checked' delimited')
    cases other.symm.trans reads
    rfl

/-- All strings and binary data have at most 65535 bytes. -/
structure ConnackProperties.Fits (p : ConnackProperties) : Prop extends p.Checked where
  assignedClientIdentifier : ∀ s ∈ p.assignedClientIdentifier, (stringBytes s).length < 2 ^ 16
  reasonString : ∀ s ∈ p.reasonString, (stringBytes s).length < 2 ^ 16
  authenticationData : ∀ data ∈ p.authenticationData, data.length < 2 ^ 16

theorem connack_readsBack_iff_alias :
    (ReadsBack { topicAliasMaximum := some 5 } [0x22, 0x00, 0x05] ∧
      ∀ q : ConnackProperties, q.buildBytes = .ok [0x22, 0x00, 0x05] →
        q = { topicAliasMaximum := some 5 }) ↔
      Delimited { topicAliasMaximum := some 5 } :=
  connack_readsBack_iff (by decide)

/-- The reason `a(` and a byte 1, and the reason `a` with a wildcard property. -/
def shadowed : ConnackProperties := { reasonString := some "a(\x01" }
def shadowing : ConnackProperties := { reasonString := some "a", wildcardSubscriptionAvailable := some 1 }

private theorem fits_of_reason {reason : String} (short : (stringBytes reason).length < 2 ^ 16)
    {wildcard : Option UInt8} :
    Fits { reasonString := some reason, wildcardSubscriptionAvailable := wildcard } where
  userProperties := List.forall_mem_nil _
  responseInformation := fun s wrong => nomatch wrong
  serverReference := fun s wrong => nomatch wrong
  authenticationMethod := fun s wrong => nomatch wrong
  assignedClientIdentifier := fun s wrong => nomatch wrong
  reasonString := fun s same => by cases same; exact short
  authenticationData := fun s wrong => nomatch wrong

/-- Both are written as the same bytes. -/
theorem shadowed_not_readsBack :
    ¬ ∀ (p : ConnackProperties) (block : Bytes), p.Fits → p.buildBytes = .ok block →
      p.ReadsBack block ∧ ∀ q : ConnackProperties, q.Fits → q.buildBytes = .ok block → q = p := by
  intro claim
  have built : shadowed.buildBytes = .ok [0x1f, 0x61, 0x28, 0x01] := by decide
  have built' : shadowing.buildBytes = .ok [0x1f, 0x61, 0x28, 0x01] := by decide
  obtain ⟨_, unique⟩ := claim shadowed _ (fits_of_reason (by decide)) built
  have same := unique shadowing (fits_of_reason (by decide)) built'
  exact absurd same (by decide)

end Aqua
