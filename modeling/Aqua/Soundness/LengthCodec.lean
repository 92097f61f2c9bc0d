import Aqua.Proofs.MinimalLength

/-! # The codec of variable-length integers

Below 2^28 the decoder returns what was encoded, and asks for more bytes as long as any is missing. From 2^28
on the encoder's fourth digit announces a fifth, which the decoder refuses. Whatever the decoder accepts is a
number below 2^28 in at most four bytes.
-/

namespace Aqua

open Wire Wire.Reader

/-- A buffer that ends inside the digits. -/
theorem decodeDigits_cut (before : Bytes) {part : Bytes} {left inc acc length : ℕ} (four : inc + left = 4)
    (isPart : part <+: encodeDigits left length) (proper : part ≠ encodeDigits left length) :
    decodeDigits left inc acc (before ++ part) before.length = .err .insufficientBytes := by
  induction left generalizing before part inc acc length with
  | zero => exact absurd (List.prefix_nil.mp isPart) proper
  | succ left ih =>
    cases part with
    | nil => simp [decodeDigits, bind_apply, indexOr]
    | cons digit part =>
      rw [encodeDigits] at isPart proper
      split at isPart
      · next more =>
        rw [if_pos more] at proper
        obtain ⟨rfl, inner⟩ := List.cons_prefix_cons.mp isPart
        have missing : part ≠ encodeDigits left (length / 128) := fun whole => proper (by rw [whole])
        -- more digits are written, so this is not the fourth
        have further : left ≠ 0 := by
          rintro rfl
          exact missing (List.prefix_nil.mp inner)
        obtain ⟨_, marked⟩ := marked_digit (Nat.mod_lt length (show 0 < 128 by decide))
        rw [decodeDigits_cons]
        dsimp only
        rw [if_neg marked, if_neg (by omega)]
        simpa only [List.append_assoc, List.singleton_append, List.length_append, List.length_singleton] using
          ih (before ++ [UInt8.ofNat (length % 128) ||| 0x80]) (show inc + 1 + left = 4 by omega) inner missing
      · next last =>
        rw [if_neg last] at proper
        obtain ⟨rfl, empty⟩ := List.cons_prefix_cons.mp isPart
        exact absurd (by rw [List.prefix_nil.mp empty]) proper

/-- Each digit adds seven bits and takes one byte. -/
theorem decodeDigits_bounds {left inc acc : ℕ} {buf : Bytes} {pos value next : ℕ} (small : acc < 128 ^ inc)
    (read : decodeDigits left inc acc buf pos = .ok (value, next)) :
    value < 128 ^ (inc + left) ∧ next ≤ pos + left := by
  induction left generalizing inc acc pos with
  | zero =>
    cases read
    exact ⟨small, le_rfl⟩
  | succ left ih =>
    obtain ⟨byte, mid, head, tail⟩ := bind_eq_ok_iff.mp read
    obtain ⟨_, rfl⟩ := indexOr_eq_ok_iff.mp head
    have digit : (byte &&& 0b01111111).toNat < 128 := (digit_of_byte byte).1
    have larger : acc + (byte &&& 0b01111111).toNat <<< (inc * 7) < 128 ^ (inc + 1) :=
      calc acc + (byte &&& 0b01111111).toNat <<< (inc * 7)
          = acc + (byte &&& 0b01111111).toNat * 128 ^ inc := by
            rw [Nat.shiftLeft_eq, Nat.mul_comm inc, Nat.pow_mul]
        _ < 128 ^ inc + 127 * 128 ^ inc :=
            Nat.add_lt_add_of_lt_of_le small (Nat.mul_le_mul_right _ (by omega))
        _ = 128 ^ (inc + 1) := by ring
    split at tail
    · cases tail
      refine ⟨larger.trans_le (Nat.pow_le_pow_right (by decide) (by omega)), by omega⟩
    split at tail
    · cases tail
    · obtain ⟨bound, near⟩ := ih larger tail
      rw [show inc + 1 + left = inc + (left + 1) by omega] at bound
      exact ⟨bound, by omega⟩

/-- What the two functions owe their callers. -/
theorem variable_length_codec :
    (∀ n < 2 ^ 28, ∀ a b, decodeVariableLength (a ++ (encodeVariableBytes n ++ b)) a.length =
        .ok (n, a.length + (encodeVariableBytes n).length) ∧
      ∀ part, part <+: encodeVariableBytes n → part ≠ encodeVariableBytes n →
        decodeVariableLength (a ++ part) a.length = .err .insufficientBytes) ∧
    (∀ n ≥ 2 ^ 28, ∀ a b, decodeVariableLength (a ++ (encodeVariableBytes n ++ b)) a.length =
        .err .invalidRemainingLength) ∧
    ∀ buf pos n next, decodeVariableLength buf pos = .ok (n, next) →
      n < 2 ^ 28 ∧ pos + 1 ≤ next ∧ next ≤ pos + 4 := by
  refine ⟨fun n small a b => ⟨?_, fun part isPart proper => ?_⟩, fun n large a b => ?_, ?_⟩
  · rw [decodeVariableLength_encodeVariableBytes, if_pos small]
  · exact decodeDigits_cut a rfl isPart proper
  · rw [decodeVariableLength_encodeVariableBytes, if_neg (by omega)]
  · intro buf pos n next read
    obtain ⟨bound, near⟩ := decodeDigits_bounds (by decide) read
    have capacity : 128 ^ (0 + 4) = 2 ^ 28 := by norm_num
    exact ⟨capacity ▸ bound, (decodeVariableLength_progresses read).1, near⟩

/-- 321 has the digits 65 and 2. -/
theorem variable_length_codec_321 :
    decodeVariableLength [0xff, 0xc1, 0x02, 0xff] 1 = .ok (321, 3) ∧
      decodeVariableLength [0xff, 0xc1] 1 = .err .insufficientBytes ∧
      decodeVariableLength [0xff, 0xff, 0xff, 0xff] 0 = .err .invalidRemainingLength ∧ 321 < 2 ^ 28 :=
  have below := variable_length_codec.1 321 (by decide) [0xff]
  ⟨(below [0xff]).1, (below []).2 [0xc1] ⟨[0x02], rfl⟩ (by decide),
    variable_length_codec.2.1 536870911 (by decide) [] [],
    (variable_length_codec.2.2 [0xff, 0xc1, 0x02, 0xff] 1 321 3 rfl).1⟩

end Aqua
