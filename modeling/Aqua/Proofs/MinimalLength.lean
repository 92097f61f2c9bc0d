import Aqua.Proofs.VariableLength

/-! # The shortest length field

A length field that is read as a number is the one the encoder writes for it, or longer. So the fields of
least length are the encoder's.
-/

namespace Aqua

open Wire Wire.Reader

theorem forall_byte {P : UInt8 → Prop} (all : ∀ d : Fin 256, P (UInt8.ofNat d)) (byte : UInt8) : P byte := by
  have here := all ⟨byte.toNat, byte.toNat_lt⟩
  rwa [UInt8.ofNat_toNat] at here

/-- A byte is its seven value bits, and the mark that another digit follows. -/
theorem digit_of_byte (byte : UInt8) : (byte &&& 0b01111111).toNat < 128 ∧
    (byte &&& 0b10000000 = 0 → UInt8.ofNat (byte &&& 0b01111111).toNat = byte) ∧
    (byte &&& 0b10000000 ≠ 0 → UInt8.ofNat (byte &&& 0b01111111).toNat ||| 0x80 = byte) :=
  forall_byte (P := fun byte => (byte &&& 0b01111111).toNat < 128 ∧
    (byte &&& 0b10000000 = 0 → UInt8.ofNat (byte &&& 0b01111111).toNat = byte) ∧
    (byte &&& 0b10000000 ≠ 0 → UInt8.ofNat (byte &&& 0b01111111).toNat ||| 0x80 = byte))
    (by decide +kernel) byte

/-- The first digit of a field, and the digits behind it. -/
theorem decodeDigits_start (left inc acc : ℕ) (byte : UInt8) (rest : Bytes) :
    decodeDigits (left + 1) inc acc (byte :: rest) 0 =
      let acc := acc + (byte &&& 0b01111111).toNat <<< (inc * 7)
      if byte &&& 0b10000000 = 0 then .ok (acc, 1)
      else if inc + 1 ≥ 4 then .err .invalidRemainingLength
      else decodeDigits left (inc + 1) acc rest 0 >>= fun read => .ok (read.1, 1 + read.2) := by
  have head : indexOr MqttError.insufficientBytes (byte :: rest) 0 = .ok (byte, 1) := rfl
  simp only [decodeDigits, bind_apply, head, Outcome.ok_bind]
  split
  · rfl
  split
  · rfl
  · exact decodeDigits_shift [byte] rest left (inc + 1) _ 0

private theorem digit_sum (acc digit more inc : ℕ) :
    acc + digit <<< (inc * 7) + more <<< ((inc + 1) * 7) = acc + (digit + 128 * more) <<< (inc * 7) := by
  simp only [Nat.shiftLeft_eq, Nat.add_mul, Nat.one_mul, Nat.pow_add]
  ring

/-- Digits that are read to their end are those the encoder writes, or more of them. -/
theorem decodeDigits_field {left inc acc value : ℕ} {field : Bytes} (four : inc + left + 1 = 4)
    (read : decodeDigits (left + 1) inc acc field 0 = .ok (value, field.length)) :
    ∃ n < 128 ^ (left + 1), value = acc + n <<< (inc * 7) ∧
      (field = encodeDigits (left + 1) n ∨ (encodeDigits (left + 1) n).length < field.length) := by
  induction left generalizing inc acc value field with
  | zero =>
    cases field with
    | nil => cases read
    | cons byte rest =>
      obtain ⟨small, last, _⟩ := digit_of_byte byte
      rw [decodeDigits_start] at read
      dsimp only at read
      split at read
      · next final =>
        cases rest with
        | cons _ _ => cases read
        | nil =>
          cases read
          refine ⟨_, small, rfl, .inl ?_⟩
          rw [encodeDigits, if_neg (by omega), Nat.mod_eq_of_lt small, last final]
      · rw [if_pos (by omega)] at read
        cases read
  | succ left ih =>
    cases field with
    | nil => cases read
    | cons byte rest =>
      obtain ⟨small, last, marked⟩ := digit_of_byte byte
      rw [decodeDigits_start] at read
      dsimp only at read
      split at read
      · next final =>
        cases rest with
        | cons _ _ => cases read
        | nil =>
          cases read
          have one : 128 ≤ 128 ^ (left + 1 + 1) := Nat.le_self_pow (by omega) 128
          refine ⟨_, by omega, rfl, .inl ?_⟩
          rw [encodeDigits, if_neg (by omega), Nat.mod_eq_of_lt small, last final]
      · next follows =>
        rw [if_neg (by omega)] at read
        obtain ⟨⟨value', used⟩, inner, same⟩ := Outcome.bind_eq_ok_iff.mp read
        obtain rfl : used = rest.length := by
          have sizes := congrArg Prod.snd (Outcome.ok.inj same)
          rw [List.length_cons] at sizes
          omega
        have further : inc + 1 + left + 1 = 4 := by omega
        obtain ⟨more, bound, rfl, shape⟩ := ih further inner
        have sum := congrArg Prod.fst (Outcome.ok.inj same)
        dsimp only at sum
        generalize (byte &&& 0b01111111).toNat = digit at *
        have capacity : 128 ^ (left + 1 + 1) = 128 ^ (left + 1) * 128 := Nat.pow_succ ..
        refine ⟨digit + 128 * more, by omega, sum.symm.trans (digit_sum acc digit more inc), ?_⟩
        have remainder : (digit + 128 * more) % 128 = digit := by omega
        have quotient : (digit + 128 * more) / 128 = more := by omega
        rw [encodeDigits, remainder, quotient]
        by_cases zero : more = 0
        · -- another digit follows although nothing is left
          rw [if_neg (by omega)]
          have some_rest : rest ≠ [] := by
            rintro rfl
            cases inner
          have := List.length_pos_iff.mpr some_rest
          refine .inr ?_
          simp only [List.length_cons, List.length_nil]
          omega
        · rw [if_pos (Nat.pos_of_ne_zero zero), marked follows]
          refine shape.imp (fun same => by rw [same]) fun longer => ?_
          simp only [List.length_cons]
          omega

/-- A length field is the encoder's, or longer. -/
theorem lengthField_cases {field : Bytes} {n : ℕ}
    (announced : decodeVariableLength field 0 = .ok (n, field.length)) : n < 2 ^ 28 ∧
      (field = encodeVariableBytes n ∨ (encodeVariableBytes n).length < field.length) := by
  have digits : decodeDigits (3 + 1) 0 0 field 0 = .ok (n, field.length) := announced
  obtain ⟨value, bound, same, shape⟩ := decodeDigits_field rfl digits
  have capacity : 128 ^ (3 + 1) = 2 ^ 28 := by norm_num
  rw [Nat.zero_mul, Nat.shiftLeft_zero, Nat.zero_add] at same
  subst same
  exact ⟨capacity ▸ bound, shape⟩

end Aqua
