import Aqua.Model.Response
import Aqua.Proofs.FieldRoundTrip

/-! # The properties of a CONNACK as they are written

`build_bytes` succeeds when the strings whose length it checks are short enough, and then its result is
the concatenation of its fields. Two strings and the authentication data have no length in front of them,
so the size of a block depends on whether one counts such lengths.
-/

namespace Aqua

open Wire Wire.Reader

theorem putChecked_eq_ok_iff {bytes written : Bytes} :
    putChecked bytes = .ok written ↔ bytes.length < 2 ^ 16 ∧ written = putTruncated bytes := by
  unfold putChecked
  split
  · next short => simp only [short, true_and, Outcome.ok.injEq, putTruncated, eq_comm]
  · next long => exact iff_of_false (fun wrong => by cases wrong) fun short => long short.1

@[simp] theorem putTruncated_length (bytes : Bytes) :
    (putTruncated bytes).length = bytes.length + 2 := by
  simp only [putTruncated, List.length_append, be16Bytes_length, Nat.add_comm]

theorem putCheckedString_eq_ok_iff {id : UInt8} {s : String} {written : Bytes} :
    putCheckedString id s = .ok written ↔
      (stringBytes s).length < 2 ^ 16 ∧ written = id :: putTruncated (stringBytes s) := by
  rw [putCheckedString, Outcome.bind_eq_ok_iff]
  simp only [putChecked_eq_ok_iff, Outcome.pure_eq, Outcome.ok.injEq]
  constructor
  · rintro ⟨_, ⟨short, rfl⟩, rfl⟩
    exact ⟨short, rfl⟩
  · rintro ⟨short, rfl⟩
    exact ⟨_, ⟨short, rfl⟩, rfl⟩

theorem putOption_checked {id : UInt8} {value : Option String} {written : Bytes} :
    putOption value (putCheckedString id) = .ok written ↔
      (∀ s ∈ value, (stringBytes s).length < 2 ^ 16) ∧
        written = optionBytes value fun s => id :: putTruncated (stringBytes s) := by
  cases value with
  | none => simp [putOption, optionBytes, eq_comm]
  | some s => simp [putOption, optionBytes, putCheckedString_eq_ok_iff]

/-- The size of a property that may be missing. -/
def optionSize {α : Type} (value : Option α) (size : α → ℕ) : ℕ := (value.map size).getD 0

theorem optionBytes_length {α : Type} (value : Option α) (bytes : α → Bytes) :
    (optionBytes value bytes).length = optionSize value fun a => (bytes a).length := by
  cases value <;> rfl

namespace ConnackProperties

variable {p : ConnackProperties} {block : Bytes}

def userBytes (property : String × String) : Bytes :=
  0x26 :: (putTruncated (stringBytes property.1) ++ putTruncated (stringBytes property.2))

/-- Both strings of a user property fit behind their lengths. -/
def UserFits (property : String × String) : Prop :=
  (stringBytes property.1).length < 2 ^ 16 ∧ (stringBytes property.2).length < 2 ^ 16

theorem putUser_eq_ok_iff {user : List (String × String)} {written : Bytes} :
    putUser user = .ok written ↔ (∀ property ∈ user, UserFits property) ∧
      written = user.flatMap userBytes := by
  induction user generalizing written with
  | nil => simp [putUser, eq_comm]
  | cons property rest ih =>
    rw [putUser, List.forall_mem_cons, List.flatMap_cons]
    simp only [Outcome.bind_eq_ok_iff, putChecked_eq_ok_iff, ih, Outcome.pure_eq, Outcome.ok.injEq]
    constructor
    · rintro ⟨_, ⟨key, rfl⟩, _, ⟨value, rfl⟩, _, ⟨fits, rfl⟩, rfl⟩
      exact ⟨⟨⟨key, value⟩, fits⟩, rfl⟩
    · rintro ⟨⟨⟨key, value⟩, fits⟩, rfl⟩
      exact ⟨_, ⟨key, rfl⟩, _, ⟨value, rfl⟩, _, ⟨fits, rfl⟩, rfl⟩

/-- The strings whose length is checked are short enough. -/
structure Checked (p : ConnackProperties) : Prop where
  userProperties : ∀ property ∈ p.userProperties, UserFits property
  responseInformation : ∀ s ∈ p.responseInformation, (stringBytes s).length < 2 ^ 16
  serverReference : ∀ s ∈ p.serverReference, (stringBytes s).length < 2 ^ 16
  authenticationMethod : ∀ s ∈ p.authenticationMethod, (stringBytes s).length < 2 ^ 16

/-- The block as it is written. -/
def written (p : ConnackProperties) : Bytes :=
  optionBytes p.sessionExpiryInterval (fun c => 0x11 :: be32Bytes c) ++
  optionBytes p.receiveMaximum (fun c => 0x21 :: be16Bytes c) ++
  optionBytes p.maximumQos (fun c => [0x24, c]) ++
  optionBytes p.retainAvailable (fun c => [0x25, if c then 1 else 0]) ++
  optionBytes p.maximumPacketSize (fun c => 0x27 :: be32Bytes c) ++
  optionBytes p.assignedClientIdentifier (fun c => 0x12 :: stringBytes c) ++
  optionBytes p.topicAliasMaximum (fun c => 0x22 :: be16Bytes c) ++
  optionBytes p.reasonString (fun c => 0x1f :: stringBytes c) ++
  p.userProperties.flatMap userBytes ++
  (optionBytes p.wildcardSubscriptionAvailable (fun c => [0x28, c]) ++
  optionBytes p.subscriptionIdentifiersAvailable (fun c => [0x29, c]) ++
  optionBytes p.sharedSubscriptionAvailable (fun c => [0x2a, c]) ++
  optionBytes p.serverKeepAlive (fun c => 0x13 :: be16Bytes c)) ++
  optionBytes p.responseInformation (fun c => 0x1a :: putTruncated (stringBytes c)) ++
  optionBytes p.serverReference (fun c => 0x1c :: putTruncated (stringBytes c)) ++
  optionBytes p.authenticationMethod (fun c => 0x15 :: putTruncated (stringBytes c)) ++
  optionBytes p.authenticationData (fun c => 0x16 :: c)

theorem buildBytes_eq_ok_iff : p.buildBytes = .ok block ↔ p.Checked ∧ block = p.written := by
  simp only [buildBytes, Outcome.bind_eq_ok_iff, putUser_eq_ok_iff, putOption_checked, Outcome.pure_eq,
    Outcome.ok.injEq]
  constructor
  · rintro ⟨_, ⟨user, rfl⟩, _, ⟨response, rfl⟩, _, ⟨reference, rfl⟩, _, ⟨method, rfl⟩, rfl⟩
    exact ⟨⟨user, response, reference, method⟩, rfl⟩
  · rintro ⟨⟨user, response, reference, method⟩, rfl⟩
    exact ⟨_, ⟨user, rfl⟩, _, ⟨response, rfl⟩, _, ⟨reference, rfl⟩, _, ⟨method, rfl⟩, rfl⟩

/-- The size of a property set, if the fields that are written without a length have `lengthField` bytes
for it. -/
def size (p : ConnackProperties) (lengthField : ℕ) : ℕ :=
  optionSize p.sessionExpiryInterval (fun _ => 5) +
  optionSize p.receiveMaximum (fun _ => 3) +
  optionSize p.maximumQos (fun _ => 2) +
  optionSize p.retainAvailable (fun _ => 2) +
  optionSize p.maximumPacketSize (fun _ => 5) +
  optionSize p.assignedClientIdentifier (fun c => (stringBytes c).length + (lengthField + 1)) +
  optionSize p.topicAliasMaximum (fun _ => 3) +
  optionSize p.reasonString (fun c => (stringBytes c).length + (lengthField + 1)) +
  (p.userProperties.map fun property =>
    (stringBytes property.1).length + (stringBytes property.2).length + 5).sum +
  optionSize p.wildcardSubscriptionAvailable (fun _ => 2) +
  optionSize p.subscriptionIdentifiersAvailable (fun _ => 2) +
  optionSize p.sharedSubscriptionAvailable (fun _ => 2) +
  optionSize p.serverKeepAlive (fun _ => 3) +
  optionSize p.responseInformation (fun c => (stringBytes c).length + 3) +
  optionSize p.serverReference (fun c => (stringBytes c).length + 3) +
  optionSize p.authenticationMethod (fun c => (stringBytes c).length + 3) +
  optionSize p.authenticationData (fun c => c.length + (lengthField + 1))

theorem userBytes_length (property : String × String) : (userBytes property).length =
    (stringBytes property.1).length + (stringBytes property.2).length + 5 := by
  simp only [userBytes, List.length_cons, List.length_append, putTruncated_length]
  omega

/-- What is written has no length in front of those fields. -/
theorem written_length (p : ConnackProperties) : p.written.length = p.size 0 := by
  simp only [written, size, List.length_append, optionBytes_length, List.length_flatMap,
    userBytes_length, List.length_cons, List.length_nil, be16Bytes_length, be32Bytes_length,
    putTruncated_length, Nat.add_assoc, Nat.zero_add, Nat.reduceAdd]

end ConnackProperties

end Aqua
