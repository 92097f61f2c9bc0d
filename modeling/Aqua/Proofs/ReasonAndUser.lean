import Aqua.Model.Acknowledgement
import Aqua.Proofs.ConnackBlock
import Aqua.Proofs.FieldWidth

/-! # Reason string and user properties

The acknowledgements share one property block: a reason string that may be missing, and user properties. The
writers of all of them produce the same bytes, and the loop of PUBREL reads these back.
-/

namespace Aqua

open Wire Wire.Reader

namespace PubrelProperties

variable {set : PubrelProperties}

def userBytes (property : UserProperty) : Bytes :=
  0x26 :: (putTruncated (stringBytes property.key) ++ putTruncated (stringBytes property.value))

/-- The properties as they are written. -/
def written (set : PubrelProperties) : Bytes :=
  optionBytes set.reasonString (fun reason => 0x1f :: putTruncated (stringBytes reason.value)) ++
    set.userProperties.flatMap userBytes

/-- The size of the properties. -/
def size (set : PubrelProperties) : ℕ :=
  optionSize set.reasonString (fun reason => stringWidth reason.value + 1) +
    (set.userProperties.map fun property => stringWidth property.key + stringWidth property.value + 1).sum

/-- All strings have at most 65535 bytes. -/
structure Fits (set : PubrelProperties) : Prop where
  reasonString : ∀ reason ∈ set.reasonString, (stringBytes reason.value).length < 2 ^ 16
  userProperties : ∀ property ∈ set.userProperties,
    (stringBytes property.key).length < 2 ^ 16 ∧ (stringBytes property.value).length < 2 ^ 16

theorem written_length (set : PubrelProperties) : set.written.length = set.size := by
  simp only [written, size, userBytes, stringWidth, List.length_append, optionBytes_length, List.length_flatMap,
    List.length_cons, putTruncated_length, Nat.add_comm 2]

theorem putUserProperties_eq {user : List UserProperty} (fits : ∀ property ∈ user,
    (stringBytes property.key).length < 2 ^ 16 ∧ (stringBytes property.value).length < 2 ^ 16) :
    putUserProperties user = .ok (user.flatMap userBytes) := by
  induction user with
  | nil => rfl
  | cons property rest ih =>
    obtain ⟨⟨key, value⟩, others⟩ := List.forall_mem_cons.mp fits
    have head : putUserProperty property = .ok (userBytes property) := by
      simp only [putUserProperty, putChecked_eq_ok_iff.mpr ⟨key, rfl⟩, putChecked_eq_ok_iff.mpr ⟨value, rfl⟩,
        Outcome.ok_bind, Outcome.pure_eq, userBytes]
    simp only [putUserProperties, head, ih others, Outcome.ok_bind, Outcome.pure_eq, List.flatMap_cons]

/-- Short strings are written. -/
theorem putReasonAndUser_eq (fits : set.Fits) :
    putReasonAndUser set.reasonString set.userProperties = .ok set.written := by
  have reason : putOption set.reasonString putReasonString =
      .ok (optionBytes set.reasonString fun reason => 0x1f :: putTruncated (stringBytes reason.value)) := by
    cases known : set.reasonString with
    | none => rfl
    | some reason =>
      have short := fits.reasonString reason known
      simp only [putOption, putReasonString, putChecked_eq_ok_iff.mpr ⟨short, rfl⟩, Outcome.ok_bind,
        Outcome.pure_eq]
      rfl
  simp only [putReasonAndUser, reason, putUserProperties_eq fits.userProperties, Outcome.ok_bind,
    Outcome.pure_eq, written]

/-- One more user property. -/
def pushUser (pro : Option PubrelProperties) (property : UserProperty) : Option PubrelProperties :=
  some { pro.getD {} with userProperties := (pro.getD {}).userProperties ++ [property] }

theorem foldl_pushUser (user : List UserProperty) (pro : Option PubrelProperties) :
    (user.foldl pushUser pro).getD {} =
      { pro.getD {} with userProperties := (pro.getD {}).userProperties ++ user } := by
  induction user generalizing pro with
  | nil => simp only [List.foldl_nil, List.append_nil]
  | cons property rest ih =>
    rw [List.foldl_cons, ih]
    simp only [pushUser, Option.getD_some, List.append_assoc, List.singleton_append]

theorem readReasonString_reads (pro : Option PubrelProperties) {reason : ReasonString}
    (short : (stringBytes reason.value).length < 2 ^ 16) :
    Reads (readProperty pro 0x1f) (putTruncated (stringBytes reason.value))
      (some { pro.getD {} with reasonString := some reason }) :=
  (decodeUtf8String_reads short).bind_nil (Reads.pure _)

theorem readUserProperty_reads (pro : Option PubrelProperties) {property : UserProperty}
    (short : (stringBytes property.key).length < 2 ^ 16 ∧ (stringBytes property.value).length < 2 ^ 16) :
    Reads (readProperty pro 0x26)
      (putTruncated (stringBytes property.key) ++ putTruncated (stringBytes property.value))
      (pushUser pro property) :=
  (UserProperty.tryFrom_reads short.1 short.2).bind_nil (Reads.pure _)

/-- The loop of PUBREL reads the properties back. -/
theorem written_items (fits : set.Fits) :
    ∃ next, Items (propertyItem readProperty) none set.written next ∧ next.getD {} = set := by
  have reason := optionalProperty_items readProperty
    (Option.map fun reason => ({ reasonString := some reason } : PubrelProperties))
    (fun reason present => readReasonString_reads none (fits.reasonString reason present))
  have user (pro : Option PubrelProperties) : Items (propertyItem readProperty) pro
      (set.userProperties.flatMap userBytes) (set.userProperties.foldl pushUser pro) :=
    Items.list id (fun pro property member => propertyItem_reads
      (readUserProperty_reads pro (fits.userProperties property member))) pro
  refine ⟨_, reason.append (user _), ?_⟩
  rw [foldl_pushUser]
  cases set with
  | mk reasonString userProperties => cases reasonString <;> rfl

/-- So does the block they stand in. -/
theorem block_reads_back (fits : set.Fits) (small : set.size < 2 ^ 28) :
    ∃ next, Reads (propertyBlock readProperty none) (encodeVariableBytes set.written.length ++ set.written) next ∧
      next.getD {} = set := by
  obtain ⟨next, items, same⟩ := written_items fits
  rw [← written_length] at small
  exact ⟨next, propertyBlock_reads small items, same⟩

/-- A reason string and one user property. -/
def explained : PubrelProperties where
  reasonString := some ⟨"no"⟩
  userProperties := [⟨"k", "v"⟩]

theorem explained_fits : explained.Fits where
  reasonString := by
    rintro reason ⟨⟩
    decide
  userProperties := by
    intro property member
    rw [List.mem_singleton.mp member]
    decide

end PubrelProperties

end Aqua
