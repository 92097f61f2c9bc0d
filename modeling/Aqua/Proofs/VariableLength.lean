import Aqua.Proofs.FieldLaws
import Mathlib.Tactic.NormNum
import Mathlib.Tactic.Ring

/-! # Variable-length integers

At most four digits to the base 128, least significant first, every digit but the last with its
top bit set. The encoder writes no fifth digit, so what it writes for larger numbers is rejected
by the decoder; below 2^28 the two are inverse to each other.
-/

namespace Aqua

open Wire Wire.Reader

private theorem indexOr_shift (e : MqttError) (before buf : Bytes) (pos : ℕ) :
    indexOr e (before ++ buf) (before.length + pos) =
      indexOr e buf pos >>= fun read => .ok (read.1, before.length + read.2) := by
  unfold indexOr
  rw [List.getElem?_append_right (by omega), Nat.add_sub_cancel_left]
  cases buf[pos]? <;> simp [Nat.add_assoc]

/-- The digits of a variable-length integer read the same wherever they stand. -/
theorem decodeDigits_shift (before buf : Bytes) (left inc acc pos : ℕ) :
    decodeDigits left inc acc (before ++ buf) (before.length + pos) =
      decodeDigits left inc acc buf pos >>= fun read => .ok (read.1, before.length + read.2) := by
  induction left generalizing inc acc pos with
  | zero => rfl
  | succ left ih =>
    simp only [decodeDigits, bind_apply, indexOr_shift]
    cases indexOr MqttError.insufficientBytes buf pos with
    | ok read =>
      simp only [Outcome.ok_bind]
      split
      · rfl
      split
      · rfl
      · exact ih _ _ _
    | err e => rfl
    | panic => rfl
    | diverge => rfl

theorem decodeVariableLength_progresses : Progresses decodeVariableLength := by
  refine (indexOr_progresses _).bind fun _ => .ite (.pure _) (.ite (.fail _) ?_)
  exact decodeDigits_lawful _ _ _

/-- A field that is read as `n` on its own is read as `n` inside any buffer. -/
theorem decodeVariableLength_reads {field : Bytes} {n : ℕ}
    (alone : decodeVariableLength field 0 = .ok (n, field.length)) :
    Reads decodeVariableLength field n := by
  intro before after
  have extended : decodeVariableLength (field ++ after) 0 = .ok (n, field.length) :=
    decodeVariableLength_lawful.stable alone (by simp)
  have shifted := decodeDigits_shift before (field ++ after) 4 0 0 0
  exact shifted.trans (by
    change (decodeVariableLength (field ++ after) 0 >>= _) = _
    rw [extended]
    rfl)

private theorem last_digit {digit : ℕ} (small : digit < 128) :
    (UInt8.ofNat digit &&& 0b01111111).toNat = digit ∧ UInt8.ofNat digit &&& 0b10000000 = 0 := by
  have all : ∀ d : Fin 128, (UInt8.ofNat d &&& 0b01111111).toNat = d ∧
      UInt8.ofNat d &&& 0b10000000 = 0 := by decide
  exact all ⟨digit, small⟩

theorem marked_digit {digit : ℕ} (small : digit < 128) :
    ((UInt8.ofNat digit ||| 0x80) &&& 0b01111111).toNat = digit ∧
      (UInt8.ofNat digit ||| 0x80) &&& 0b10000000 ≠ 0 := by
  have all : ∀ d : Fin 128, ((UInt8.ofNat d ||| 0x80) &&& 0b01111111).toNat = d ∧
      (UInt8.ofNat d ||| 0x80) &&& 0b10000000 ≠ 0 := by decide
  exact all ⟨digit, small⟩

theorem decodeDigits_cons (before tail : Bytes) (byte : UInt8) (left inc acc : ℕ) :
    decodeDigits (left + 1) inc acc (before ++ byte :: tail) before.length =
      let acc := acc + (byte &&& 0b01111111).toNat <<< (inc * 7)
      if byte &&& 0b10000000 = 0 then .ok (acc, before.length + 1)
      else if inc + 1 ≥ 4 then .err .invalidRemainingLength
      else decodeDigits left (inc + 1) acc (before ++ byte :: tail) (before.length + 1) := by
  have head : indexOr MqttError.insufficientBytes (before ++ byte :: tail) before.length =
      .ok (byte, before.length + 1) := indexOr_eq_ok_iff.mpr ⟨by simp, rfl⟩
  simp only [decodeDigits, bind_apply, head, Outcome.ok_bind]
  split
  · rfl
  split <;> rfl

private theorem digits_sum (acc length inc : ℕ) :
    acc + (length % 128) <<< (inc * 7) + (length / 128) <<< ((inc + 1) * 7) =
      acc + length <<< (inc * 7) := by
  have split := Nat.mod_add_div length 128
  simp only [Nat.shiftLeft_eq, Nat.add_mul, Nat.one_mul, Nat.pow_add]
  calc acc + length % 128 * 2 ^ (inc * 7) + length / 128 * (2 ^ (inc * 7) * 2 ^ 7)
      = acc + (length % 128 + 128 * (length / 128)) * 2 ^ (inc * 7) := by ring
    _ = acc + length * 2 ^ (inc * 7) := by rw [split]

/-- Digits are read back when `left` of them suffice; otherwise the last one still announces
another digit and is rejected. -/
theorem decodeDigits_encodeDigits (before after : Bytes) (left inc acc length : ℕ)
    (four : inc + left + 1 = 4) :
    decodeDigits (left + 1) inc acc (before ++ (encodeDigits (left + 1) length ++ after))
        before.length =
      if length < 128 ^ (left + 1) then
        .ok (acc + length <<< (inc * 7), before.length + (encodeDigits (left + 1) length).length)
      else .err .invalidRemainingLength := by
  induction left generalizing before inc acc length with
  | zero =>
    simp only [encodeDigits]
    by_cases more : length / 128 > 0
    · obtain ⟨_, marked⟩ := marked_digit (Nat.mod_lt length (show 0 < 128 by decide))
      rw [if_pos more, List.cons_append, decodeDigits_cons]
      simp only [if_neg marked]
      rw [if_pos (by omega), if_neg (by omega)]
    · obtain ⟨value, last⟩ := last_digit (Nat.mod_lt length (show 0 < 128 by decide))
      rw [if_neg more, List.cons_append, decodeDigits_cons]
      simp only [if_pos last, value]
      rw [if_pos (by omega), Nat.mod_eq_of_lt (by omega)]
      rfl
  | succ left ih =>
    rw [encodeDigits]
    by_cases more : length / 128 > 0
    · obtain ⟨value, marked⟩ := marked_digit (Nat.mod_lt length (show 0 < 128 by decide))
      simp only [if_pos more]
      rw [List.cons_append, decodeDigits_cons]
      simp only [if_neg marked, value]
      rw [if_neg (by omega)]
      have rest := ih (before ++ [UInt8.ofNat (length % 128) ||| 0x80]) (inc + 1)
        (acc + (length % 128) <<< (inc * 7)) (length / 128) (by omega)
      simp only [List.append_assoc, List.singleton_append, List.length_append, List.length_singleton]
        at rest
      rw [rest, digits_sum]
      have fewer : length / 128 < 128 ^ (left + 1) ↔ length < 128 ^ (left + 1 + 1) := by
        rw [Nat.div_lt_iff_lt_mul (by decide), Nat.pow_succ 128 (left + 1)]
      simp only [fewer, List.length_cons, Nat.add_assoc, Nat.add_comm 1]
    · obtain ⟨value, last⟩ := last_digit (Nat.mod_lt length (show 0 < 128 by decide))
      simp only [if_neg more]
      rw [List.cons_append, decodeDigits_cons]
      have one : 128 ≤ 128 ^ (left + 1 + 1) := Nat.le_self_pow (by omega) 128
      simp only [if_pos last, value]
      rw [if_pos (by omega), Nat.mod_eq_of_lt (by omega)]
      rfl

theorem decodeVariableLength_encodeVariableBytes (before after : Bytes) (length : ℕ) :
    decodeVariableLength (before ++ (encodeVariableBytes length ++ after)) before.length =
      if length < 2 ^ 28 then .ok (length, before.length + (encodeVariableBytes length).length)
      else .err .invalidRemainingLength := by
  have round := decodeDigits_encodeDigits before after 3 0 0 length rfl
  have capacity : 128 ^ (3 + 1) = 2 ^ 28 := by norm_num
  rw [Nat.zero_mul, Nat.shiftLeft_zero, Nat.zero_add, capacity] at round
  exact round

theorem encodeVariableBytes_reads {length : ℕ} (small : length < 2 ^ 28) :
    Reads decodeVariableLength (encodeVariableBytes length) length := by
  intro before after
  rw [decodeVariableLength_encodeVariableBytes, if_pos small]

/-- Alone a written length is read to its end. -/
theorem encodeVariableBytes_announces {length : ℕ} (small : length < 2 ^ 28) :
    decodeVariableLength (encodeVariableBytes length) 0 = .ok (length, (encodeVariableBytes length).length) := by
  have alone := (encodeVariableBytes_reads small).start []
  rwa [List.append_nil] at alone

end Aqua
