import Aqua.Wire.Reader
import Mathlib.Algebra.Group.Nat.Defs

/-! # Big-endian integers

Two- and four-byte integers, most significant byte first, as values, as bytes and as readers.
The two-byte reader comes in the two shapes programs use, two indexed reads or one slice, and
the shapes are the same reader.
-/

namespace Wire

/-- The integer with the given high and low byte. -/
def be16 (high low : UInt8) : UInt16 := (high.toUInt16 <<< 8) + low.toUInt16

/-- `u16::to_be_bytes`. -/
def be16Bytes (value : UInt16) : List UInt8 := [(value >>> 8).toUInt8, value.toUInt8]

/-- `u32::from_be_bytes`. -/
def be32 (b₀ b₁ b₂ b₃ : UInt8) : UInt32 :=
  (b₀.toUInt32 <<< 24) + (b₁.toUInt32 <<< 16) + (b₂.toUInt32 <<< 8) + b₃.toUInt32

/-- `u32::to_be_bytes`. -/
def be32Bytes (value : UInt32) : List UInt8 :=
  [(value >>> 24).toUInt8, (value >>> 16).toUInt8, (value >>> 8).toUInt8, value.toUInt8]

theorem be16_toNat (high low : UInt8) : (be16 high low).toNat = high.toNat * 256 + low.toNat := by
  have := high.toNat_lt
  have := low.toNat_lt
  simp only [be16, UInt16.toNat_add, UInt16.toNat_shiftLeft, UInt8.toNat_toUInt16,
    Nat.shiftLeft_eq, UInt16.reduceToNat, Nat.reduceMod, Nat.reducePow]
  omega

theorem be32_toNat (b₀ b₁ b₂ b₃ : UInt8) : (be32 b₀ b₁ b₂ b₃).toNat =
    b₀.toNat * 2 ^ 24 + b₁.toNat * 2 ^ 16 + b₂.toNat * 2 ^ 8 + b₃.toNat := by
  have := b₀.toNat_lt
  have := b₁.toNat_lt
  have := b₂.toNat_lt
  have := b₃.toNat_lt
  simp only [be32, UInt32.toNat_add, UInt32.toNat_shiftLeft, UInt8.toNat_toUInt32,
    Nat.shiftLeft_eq, UInt32.reduceToNat, Nat.reduceMod, Nat.reducePow]
  omega

@[simp] theorem be16Bytes_length (value : UInt16) : (be16Bytes value).length = 2 := rfl
@[simp] theorem be32Bytes_length (value : UInt32) : (be32Bytes value).length = 4 := rfl

theorem be16_be16Bytes (value : UInt16) : be16 (value >>> 8).toUInt8 value.toUInt8 = value := by
  have := value.toNat_lt
  apply UInt16.toNat.inj
  rw [be16_toNat]
  simp only [UInt16.toNat_toUInt8, UInt16.toNat_shiftRight, Nat.shiftRight_eq_div_pow,
    UInt16.reduceToNat, Nat.reduceMod, Nat.reducePow]
  omega

theorem be32_be32Bytes (value : UInt32) : be32 (value >>> 24).toUInt8 (value >>> 16).toUInt8
    (value >>> 8).toUInt8 value.toUInt8 = value := by
  have := value.toNat_lt
  apply UInt32.toNat.inj
  rw [be32_toNat]
  simp only [UInt32.toNat_toUInt8, UInt32.toNat_shiftRight, Nat.shiftRight_eq_div_pow,
    UInt32.reduceToNat, Nat.reduceMod, Nat.reducePow]
  omega

namespace Reader

variable {ε : Type}

/-- Two indexed bytes. -/
def u16 : Reader ε UInt16 := do
  let high ← index
  let low ← index
  pure (be16 high low)

/-- A slice of two bytes converted to an array; `e` is for a slice of another length. -/
def u16Slice (e : ε) : Reader ε UInt16 := do
  let bytes ← slice 2
  match bytes with
  | [high, low] => pure (be16 high low)
  | _ => fail e

/-- A slice of four bytes converted to an array; `e` is for a slice of another length. -/
def u32Slice (e : ε) : Reader ε UInt32 := do
  let bytes ← slice 4
  match bytes with
  | [b₀, b₁, b₂, b₃] => pure (be32 b₀ b₁ b₂ b₃)
  | _ => fail e

/-- The bytes at `pos` when enough of them are there. -/
theorem drop_eq_cons {buf : List UInt8} {pos : ℕ} {byte : UInt8} (present : buf[pos]? = some byte) :
    buf.drop pos = byte :: buf.drop (pos + 1) := by
  obtain ⟨lt, rfl⟩ := List.getElem?_eq_some_iff.mp present
  exact List.drop_eq_getElem_cons lt

theorem u16_eq_ok_iff {buf : List UInt8} {pos next : ℕ} {value : UInt16} :
    (u16 : Reader ε UInt16) buf pos = .ok (value, next) ↔
      ∃ high low, buf[pos]? = some high ∧ buf[pos + 1]? = some low ∧
        value = be16 high low ∧ next = pos + 2 := by
  simp only [u16, bind_eq_ok_iff, index_eq_ok_iff, pure_apply]
  constructor
  · rintro ⟨high, _, ⟨h, rfl⟩, low, _, ⟨l, rfl⟩, same⟩
    cases same
    exact ⟨high, low, h, l, rfl, rfl⟩
  · rintro ⟨high, low, h, l, rfl, rfl⟩
    exact ⟨high, _, ⟨h, rfl⟩, low, _, ⟨l, rfl⟩, rfl⟩

/-- The sliced and the indexed two-byte read agree, aborts included. -/
theorem u16Slice_eq_u16 (e : ε) : u16Slice e = u16 := by
  funext buf pos
  simp only [u16Slice, u16, bind_apply, slice, index]
  split
  · next inside =>
    have high : buf[pos]? = some buf[pos] := List.getElem?_eq_getElem (by omega)
    have low : buf[pos + 1]? = some buf[pos + 1] := List.getElem?_eq_getElem (by omega)
    have bytes : (buf.drop pos).take 2 = [buf[pos], buf[pos + 1]] := by
      rw [drop_eq_cons high, drop_eq_cons low]
      rfl
    simp only [Outcome.ok_bind, bytes, high, low, pure_apply]
  · next outside =>
    by_cases first : pos < buf.length
    · have low : buf[pos + 1]? = none := List.getElem?_eq_none (by omega)
      simp [List.getElem?_eq_getElem first, low]
    · simp [List.getElem?_eq_none (Nat.le_of_not_lt first)]

theorem u32Slice_eq_ok_iff {e : ε} {buf : List UInt8} {pos next : ℕ} {value : UInt32} :
    u32Slice e buf pos = .ok (value, next) ↔
      ∃ b₀ b₁ b₂ b₃, buf[pos]? = some b₀ ∧ buf[pos + 1]? = some b₁ ∧ buf[pos + 2]? = some b₂ ∧
        buf[pos + 3]? = some b₃ ∧ value = be32 b₀ b₁ b₂ b₃ ∧ next = pos + 4 := by
  -- the slice of four bytes that are there
  have four {b₀ b₁ b₂ b₃ : UInt8} (h₀ : buf[pos]? = some b₀) (h₁ : buf[pos + 1]? = some b₁)
      (h₂ : buf[pos + 2]? = some b₂) (h₃ : buf[pos + 3]? = some b₃) :
      u32Slice e buf pos = .ok (be32 b₀ b₁ b₂ b₃, pos + 4) := by
    have inside : pos + 4 ≤ buf.length := by
      have := (List.getElem?_eq_some_iff.mp h₃).1
      omega
    have bytes : (buf.drop pos).take 4 = [b₀, b₁, b₂, b₃] := by
      rw [drop_eq_cons h₀, drop_eq_cons h₁, drop_eq_cons h₂, drop_eq_cons h₃]
      rfl
    simp only [u32Slice, bind_apply, slice, if_pos inside, bytes, Outcome.ok_bind, pure_apply]
  constructor
  · intro read
    obtain ⟨_, _, cut, _⟩ := bind_eq_ok_iff.mp read
    obtain ⟨inside, _, _⟩ := slice_eq_ok_iff.mp cut
    have present {i : ℕ} (lt : i < 4) : ∃ b, buf[pos + i]? = some b :=
      ⟨_, List.getElem?_eq_getElem (show pos + i < buf.length by omega)⟩
    obtain ⟨b₀, h₀⟩ := present (show 0 < 4 by decide)
    obtain ⟨b₁, h₁⟩ := present (show 1 < 4 by decide)
    obtain ⟨b₂, h₂⟩ := present (show 2 < 4 by decide)
    obtain ⟨b₃, h₃⟩ := present (show 3 < 4 by decide)
    cases (four h₀ h₁ h₂ h₃).symm.trans read
    exact ⟨b₀, b₁, b₂, b₃, h₀, h₁, h₂, h₃, rfl, rfl⟩
  · rintro ⟨b₀, b₁, b₂, b₃, h₀, h₁, h₂, h₃, rfl, rfl⟩
    exact four h₀ h₁ h₂ h₃

namespace Lawful

theorem u16 : Lawful (u16 : Reader ε UInt16) := index.bind fun _ => index.bind fun _ => .pure _

theorem u32Slice (e : ε) : Lawful (u32Slice e) :=
  (slice 4).bind fun _ => by split <;> first | exact .pure _ | exact .fail _

end Lawful

theorem u16_progresses : Progresses (u16 : Reader ε UInt16) :=
  index_progresses.bind fun _ => Lawful.index.bind fun _ => .pure _

theorem u16_end {buf : List UInt8} {pos next : ℕ} {value : UInt16}
    (read : (u16 : Reader ε UInt16) buf pos = .ok (value, next)) : next = pos + 2 := by
  obtain ⟨_, _, _, _, _, rfl⟩ := u16_eq_ok_iff.mp read
  rfl

namespace Reads

theorem u16 (value : UInt16) : Reads (u16 : Reader ε UInt16) (be16Bytes value) value := by
  have pair : Reads (Reader.u16 : Reader ε UInt16) ([(value >>> 8).toUInt8] ++ ([value.toUInt8] ++ []))
      (be16 (value >>> 8).toUInt8 value.toUInt8) :=
    (index _).bind ((index _).bind (Reads.pure _))
  rw [be16_be16Bytes] at pair
  exact pair

theorem u32Slice (e : ε) (value : UInt32) : Reads (u32Slice e) (be32Bytes value) value := by
  have whole : Reads (Reader.u32Slice e) (be32Bytes value ++ []) (be32 (value >>> 24).toUInt8
      (value >>> 16).toUInt8 (value >>> 8).toUInt8 value.toUInt8) :=
    (slice (be32Bytes value)).bind (Reads.pure _)
  rw [be32_be32Bytes] at whole
  exact whole

end Reads

end Reader

end Wire
