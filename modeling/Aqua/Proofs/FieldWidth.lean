import Aqua.Proofs.FieldLaws
import Aqua.Wire.Sized

/-! # The width of a field

A field that is read takes as many bytes as its value is wide: two for the length of a string or of
binary data, and its content.
-/

namespace Aqua

open Wire Wire.Reader

theorem stringBytes_of_fromUtf8 {bytes : Bytes} {s : String} (known : fromUtf8 bytes = some s) :
    stringBytes s = bytes := by
  unfold fromUtf8 String.fromUTF8? at known
  split at known
  · cases known
    exact bytes.toList_toArray
  · cases known

def stringWidth (s : String) : ℕ := 2 + (stringBytes s).length

def binaryWidth (bytes : Bytes) : ℕ := 2 + bytes.length

theorem decodeUtf8String_sized : Sized decodeUtf8String stringWidth := by
  rw [decodeUtf8String, decodeU16Bytes_eq]
  apply Sized.u16.bind
  intro length buf pos s next read
  obtain ⟨bytes, mid, taken, read⟩ := bind_eq_ok_iff.mp read
  obtain ⟨inside, cut, rfl⟩ := sliceOr_eq_ok_iff.mp taken
  cases known : fromUtf8 bytes with
  | none =>
    rw [known] at read
    cases read
  | some s =>
    rw [known] at read
    cases read
    have count : bytes.length = length.toNat := by
      rw [cut, List.length_take, List.length_drop]
      omega
    rw [stringWidth, stringBytes_of_fromUtf8 known, count]
    omega

theorem stringField_sized {α : Type} {wrap : String → α} {width : α → ℕ}
    (same : ∀ s, width (wrap s) = stringWidth s) : Sized (stringField wrap) width := by
  apply Sized.map
  simp only [same]
  exact decodeUtf8String_sized

theorem ClientId.tryFrom_sized : Sized ClientId.tryFrom fun id => stringWidth id.value :=
  stringField_sized fun _ => rfl

theorem TopicName.tryFrom_sized : Sized TopicName.tryFrom fun topic => stringWidth topic.value :=
  stringField_sized fun _ => rfl

theorem UserName.tryFrom_sized : Sized UserName.tryFrom fun name => stringWidth name.value :=
  stringField_sized fun _ => rfl

theorem UserProperty.tryFrom_sized : Sized UserProperty.tryFrom fun property =>
    stringWidth property.key + stringWidth property.value := by
  apply decodeUtf8String_sized.bind
  intro key buf pos property next read
  obtain ⟨value, mid, taken, read⟩ := bind_eq_ok_iff.mp read
  have := decodeUtf8String_sized taken
  cases read
  dsimp only
  omega

theorem binary_sized : Sized binary binaryWidth := by
  apply Sized.u16.bind
  intro length buf pos bytes next read
  obtain ⟨inside, cut, rfl⟩ := slice_eq_ok_iff.mp read
  have count : bytes.length = length.toNat := by
    rw [cut, List.length_take, List.length_drop]
    omega
  rw [binaryWidth, count]
  omega

theorem binaryField_sized {α : Type} {wrap : Bytes → α} {width : α → ℕ}
    (same : ∀ bytes, width (wrap bytes) = binaryWidth bytes) : Sized (binaryField wrap) width := by
  apply Sized.map
  simp only [same]
  exact binary_sized

theorem WillPayload.tryFrom_sized : Sized WillPayload.tryFrom fun message => binaryWidth message.value :=
  binaryField_sized fun _ => rfl

theorem Password.tryFrom_sized : Sized Password.tryFrom fun password => binaryWidth password.value :=
  binaryField_sized fun _ => rfl

theorem flagField_sized {α : Type} (zero one : α) : Sized (flagField zero one) fun _ => 1 := by
  apply Sized.index.bind
  intro byte buf pos a next read
  split at read
  · cases read
    rfl
  split at read
  · cases read
    rfl
  · cases read

end Aqua
