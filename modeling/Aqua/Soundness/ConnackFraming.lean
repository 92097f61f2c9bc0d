import Aqua.Proofs.ConnackBlock
import Aqua.Soundness.Delimiting

/-! # The remaining length of a CONNACK

The encoder reserves one byte for the property length, whatever its width. The remaining length is that
of the bytes that follow as long as the property block is shorter than 128 bytes.
-/

namespace Aqua

open Wire Wire.Reader

/-- What is written in front of the properties: the flag and the reason. -/
def Connack.lead (self : Connack) : Bytes :=
  [if self.sessionPresent then 0x01 else 0x00, self.connectReason.toByte]

/-- A CONNACK is framed: its type, a field that is read as a length, and as many bytes. In version 5 these
are the flag, the reason, a field that is read as a length, and as many bytes of properties. -/
def Connack.Framed (self : Connack) (bytes : Bytes) : Prop :=
  ∃ lengthField body, bytes = 0x20 :: lengthField ++ body ∧
    Reads decodeVariableLength lengthField body.length ∧
    (self.version = ⟨5⟩ → ∃ propertyLength properties,
      body = self.lead ++ (propertyLength ++ properties) ∧
        Reads decodeVariableLength propertyLength properties.length)

/-- The size of the property block, if there is one. -/
def Connack.blockSize (self : Connack) : ℕ := optionSize self.connackProperties (·.size 0)

/-- Only one digit is written for numbers below 128. -/
theorem encodeVariableBytes_length_eq_one {length : ℕ} :
    (encodeVariableBytes length).length = 1 ↔ length < 128 := by
  rw [encodeVariableBytes, encodeDigits]
  by_cases more : length / 128 > 0
  · rw [if_pos more, List.length_cons]
    refine iff_of_false ?_ (by omega)
    rw [encodeDigits]
    split <;> simp
  · rw [if_neg more]
    exact iff_of_true rfl (by omega)

section Encoder

variable {self : Connack} {bytes : Bytes}

private theorem encodeHeader_of_version_ne_five (other : self.version ≠ ⟨5⟩)
    (encoded : self.encodeHeader = .ok bytes) :
    bytes = 0x20 :: encodeVariableBytes 2 ++ self.lead := by
  rw [Connack.encodeHeader] at encoded
  simp only [if_neg other, Outcome.ok_bind, Outcome.pure_eq, Outcome.ok.injEq] at encoded
  exact encoded.symm

private theorem encodeHeader_of_version_five (five : self.version = ⟨5⟩)
    (encoded : self.encodeHeader = .ok bytes) :
    ∃ block : Bytes, block.length = self.blockSize ∧
      bytes = 0x20 :: encodeVariableBytes (3 + block.length) ++
        (self.lead ++ (encodeVariableBytes block.length ++ block)) := by
  have three (n : ℕ) : 2 + (1 + n) = 3 + n := by omega
  unfold Connack.encodeHeader at encoded
  unfold Connack.blockSize
  cases known : self.connackProperties with
  | none =>
    simp only [if_pos five, known, Outcome.ok_bind, Outcome.pure_eq, Outcome.ok.injEq, three] at encoded
    exact ⟨[], rfl, encoded.symm⟩
  | some properties =>
    simp only [if_pos five, known, Outcome.bind_eq_ok_iff, Outcome.pure_eq, Outcome.ok.injEq, three]
      at encoded
    obtain ⟨block, built, rfl⟩ := encoded
    obtain ⟨_, rfl⟩ := ConnackProperties.buildBytes_eq_ok_iff.mp built
    exact ⟨_, properties.written_length, rfl⟩

/-- In a frame the remaining length counts all bytes behind it, those of the property length included. -/
theorem framed_short {block : Bytes}
    (framed : self.Framed (0x20 :: encodeVariableBytes (3 + block.length) ++
      (self.lead ++ (encodeVariableBytes block.length ++ block)))) : block.length < 128 := by
  obtain ⟨lengthField, body, same, reads, _⟩ := framed
  have delimits : SelfDelimiting (0x20 :: encodeVariableBytes (3 + block.length) ++
      (self.lead ++ (encodeVariableBytes block.length ++ block))) := by
    rw [same]
    refine ⟨_, _, reads [0x20] body, ?_⟩
    simp only [List.cons_append, List.length_cons, List.length_append, List.length_nil]
    omega
  obtain ⟨_, length⟩ := (selfDelimiting_iff _ _ _).mp delimits
  simp only [Connack.lead, List.length_append, List.length_cons, List.length_nil] at length
  rw [← encodeVariableBytes_length_eq_one]
  omega

end Encoder

/-- For every CONNACK that is encoded in less than 2^28 bytes, the output is framed if and only if the
version is not 5 or the property block is shorter than 128 bytes. -/
theorem connack_framed_iff {self : Connack} {bytes : Bytes} (encoded : self.encodeHeader = .ok bytes)
    (short : bytes.length < 2 ^ 28) :
    self.Framed bytes ↔ self.version ≠ ⟨5⟩ ∨ self.blockSize < 128 := by
  by_cases five : self.version = ⟨5⟩
  · obtain ⟨block, size, rfl⟩ := encodeHeader_of_version_five five encoded
    rw [or_iff_right (not_not.mpr five), ← size]
    simp only [List.cons_append, List.length_cons, List.length_append] at short
    constructor
    · exact framed_short
    · intro fits
      have one := encodeVariableBytes_length_eq_one.mpr fits
      refine ⟨_, _, rfl, ?_, fun _ => ⟨_, block, rfl, encodeVariableBytes_reads (by omega)⟩⟩
      have length : (self.lead ++ (encodeVariableBytes block.length ++ block)).length =
          3 + block.length := by
        simp only [Connack.lead, List.length_append, List.length_cons, List.length_nil, one]
        omega
      rw [length]
      apply encodeVariableBytes_reads
      rw [← length]
      simp only [List.length_append]
      omega
  · obtain rfl := encodeHeader_of_version_ne_five five encoded
    refine iff_of_true ⟨_, _, rfl, ?_, fun wrong => absurd wrong five⟩ (.inl five)
    exact encodeVariableBytes_reads (by decide : 2 < 2 ^ 28)

/-- A refusal with that many bytes of authentication data. -/
def refusal (count : ℕ) : Connack where
  connectReason := .notAuthorized
  connackProperties := some { authenticationData := some (List.replicate count 0x61) }
  version := ⟨5⟩

private theorem refusal_encodeHeader (count : ℕ) :
    ∃ block : Bytes, block.length = count + 1 ∧ (refusal count).encodeHeader =
      .ok (0x20 :: encodeVariableBytes (3 + block.length) ++
        ((refusal count).lead ++ (encodeVariableBytes block.length ++ block))) := by
  refine ⟨0x16 :: List.replicate count 0x61, by simp, ?_⟩
  have three (n : ℕ) : 2 + (1 + n) = 3 + n := by omega
  rw [← three]
  rfl

theorem connack_framed_iff_refusal :
    (refusal 1).Framed [0x20, 0x05, 0x00, 0x87, 0x02, 0x16, 0x61] ↔
      (refusal 1).version ≠ ⟨5⟩ ∨ (refusal 1).blockSize < 128 :=
  connack_framed_iff (by decide) (by decide)

/-- A block of 128 bytes: the remaining length misses the second byte of the property length. -/
theorem refusal_not_framed :
    ¬ ∀ (self : Connack) (bytes : Bytes), self.encodeHeader = .ok bytes → bytes.length < 2 ^ 28 →
      self.Framed bytes := by
  intro claim
  obtain ⟨block, length, encodes⟩ := refusal_encodeHeader 127
  have short : (0x20 :: encodeVariableBytes (3 + block.length) ++
      ((refusal 127).lead ++ (encodeVariableBytes block.length ++ block))).length < 2 ^ 28 := by
    simp only [List.cons_append, List.length_cons, List.length_append, length]
    decide
  have := framed_short (claim (refusal 127) _ encodes short)
  omega

end Aqua
