import Aqua.Wire.BigEndian

/-! # How far a reader has come

A reader is sized if a successful read moves by the width of its value, so the position behind a read can
be told from what it returned. For blocks, an invariant that relates state and position holds at the end,
and items that start a buffer are the items any reading of it starts with.
-/

namespace Wire

namespace Reader

variable {ε α β σ : Type}

/-- A successful read takes as many bytes as its value is wide. -/
def Sized (r : Reader ε α) (width : α → ℕ) : Prop :=
  ∀ ⦃buf pos a next⦄, r buf pos = .ok (a, next) → next = pos + width a

namespace Sized

theorem index : Sized (index : Reader ε UInt8) fun _ => 1 := by
  intro buf pos byte next read
  exact (index_eq_ok_iff.mp read).2

theorem u16 : Sized (u16 : Reader ε UInt16) fun _ => 2 := fun _ _ _ _ read => u16_end read

theorem u32Slice (e : ε) : Sized (u32Slice e) fun _ => 4 := by
  intro buf pos value next read
  obtain ⟨_, _, _, _, _, _, _, _, _, rfl⟩ := u32Slice_eq_ok_iff.mp read
  rfl

theorem map {r : Reader ε α} {g : α → β} {width : β → ℕ} (sized : Sized r fun a => width (g a)) :
    Sized (g <$> r) width := by
  intro buf pos b next read
  obtain ⟨a, inner, rfl⟩ := map_eq_ok_iff.mp read
  exact sized inner

/-- The second reader may count the value of the first. -/
theorem bind {r : Reader ε α} {f : α → Reader ε β} {first : α → ℕ} {width : β → ℕ}
    (head : Sized r first)
    (tail : ∀ ⦃a buf pos b next⦄, f a buf pos = .ok (b, next) → next + first a = pos + width b) :
    Sized (r >>= f) width := by
  intro buf pos b next read
  obtain ⟨a, mid, inner, rest⟩ := bind_eq_ok_iff.mp read
  have := head inner
  have := tail rest
  omega

end Sized

/-- A reader takes one and the same beginning of a buffer, and returns one value from it. -/
theorem Reads.unique {r : Reader ε α} {bytes bytes' rest rest' : List UInt8} {a a' : α}
    (read : Reads r bytes a) (read' : Reads r bytes' a') (same : bytes ++ rest = bytes' ++ rest') :
    bytes = bytes' ∧ rest = rest' ∧ a = a' := by
  have first := read.start rest
  rw [same, read'.start rest', Outcome.ok.injEq, Prod.mk.injEq] at first
  obtain ⟨value, length⟩ := first
  obtain ⟨bytes_eq, rest_eq⟩ := List.append_inj same length.symm
  exact ⟨bytes_eq, rest_eq, value.symm⟩

namespace Items

variable {item : σ → Reader ε σ} {s t u : σ} {first bytes rest : List UInt8}

/-- Behind items the buffer starts with come the items of the rest. -/
theorem after (start : Items item s first u) (all : Items item s (first ++ rest) t) :
    Items item u rest t := by
  induction start with
  | nil _ => exact all
  | @cons s mid u head tail read nonempty _ ih =>
    apply ih
    generalize whole : head ++ tail ++ rest = buffer at all
    cases all with
    | nil =>
      rw [List.append_assoc, List.append_eq_nil_iff] at whole
      exact absurd whole.1 nonempty
    | @cons _ mid' _ head' rest' read' _ tail' =>
      rw [List.append_assoc] at whole
      obtain ⟨_, rfl, rfl⟩ := read.unique read' whole
      exact tail'

/-- The first item and the items behind it. -/
theorem head (all : Items item s bytes t) (nonempty : bytes ≠ []) :
    ∃ mid head rest, bytes = head ++ rest ∧ head ≠ [] ∧ Reads (item s) head mid ∧ Items item mid rest t := by
  cases all with
  | nil => exact absurd rfl nonempty
  | cons read some_ tail => exact ⟨_, _, _, rfl, some_, read, tail⟩

end Items

end Reader

end Wire
