import Mathlib.Data.List.Infix
import Mathlib.Tactic.Common

/-! # Streams of delimited units

A unit tells its own size at its beginning. A reader that knows no more than how sizes are told takes a
stream of units apart, and also one that breaks off somewhere: it finds the units that are complete, and what
there is of the next one.
-/

namespace Wire

variable {β : Type}

/-- The first unit of a stream, when all of it is there, and what stands behind it. -/
def firstUnit (size? : List β → Option ℕ) (stream : List β) : Option (List β × List β) :=
  match size? stream with
  | some size =>
      if 0 < size ∧ size ≤ stream.length then some (stream.take size, stream.drop size) else none
  | none => none

/-- At most `fuel` units, and what is left of the stream. -/
def unitsFrom (size? : List β → Option ℕ) : ℕ → List β → List (List β) × List β
  | 0, stream => ([], stream)
  | fuel + 1, stream =>
      match firstUnit size? stream with
      | some (unit, rest) =>
          let (units, left) := unitsFrom size? fuel rest
          (unit :: units, left)
      | none => ([], stream)

/-- The complete units of a stream; there are no more than bytes. -/
def units (size? : List β → Option ℕ) (stream : List β) : List (List β) × List β :=
  unitsFrom size? stream.length stream

/-- The unit tells its size whatever stands behind it, and its beginnings tell no other size. -/
structure Delimited (size? : List β → Option ℕ) (unit : List β) : Prop where
  ne_nil : unit ≠ []
  whole : ∀ rest, size? (unit ++ rest) = some unit.length
  part : ∀ part, part <+: unit → ∀ size, size? part = some size → size = unit.length

variable {size? : List β → Option ℕ} {unit left stream : List β} {list : List (List β)}

theorem Delimited.firstUnit_append (delimited : Delimited size? unit) (rest : List β) :
    firstUnit size? (unit ++ rest) = some (unit, rest) := by
  have inside : 0 < unit.length ∧ unit.length ≤ (unit ++ rest).length :=
    ⟨List.length_pos_iff.mpr delimited.ne_nil, by rw [List.length_append]; omega⟩
  simp only [firstUnit, delimited.whole rest, if_pos inside, List.take_left, List.drop_left]

/-- A unit is not found before all of it is there. -/
theorem Delimited.firstUnit_part (delimited : Delimited size? unit) (shorter : left <+: unit)
    (proper : left ≠ unit) : firstUnit size? left = none := by
  unfold firstUnit
  split
  · next size told =>
    rw [delimited.part left shorter size told, if_neg]
    rintro ⟨_, whole⟩
    exact proper (shorter.eq_of_length_le whole)
  · rfl

theorem unitsFrom_of_none (nothing : firstUnit size? stream = none) (fuel : ℕ) :
    unitsFrom size? fuel stream = ([], stream) := by
  cases fuel with
  | zero => rfl
  | succ fuel => simp only [unitsFrom, nothing]

theorem unitsFrom_flatten (delimited : ∀ unit ∈ list, Delimited size? unit)
    (nothing : firstUnit size? left = none) {fuel : ℕ} (enough : list.length ≤ fuel) :
    unitsFrom size? fuel (list.flatten ++ left) = (list, left) := by
  induction list generalizing fuel with
  | nil => exact unitsFrom_of_none nothing fuel
  | cons unit list ih =>
    rw [List.forall_mem_cons] at delimited
    obtain ⟨fuel, rfl⟩ := Nat.exists_eq_add_of_le' (Nat.le_trans (Nat.le_add_left 1 _) enough)
    rw [List.length_cons, Nat.add_le_add_iff_right] at enough
    simp only [List.flatten_cons, List.append_assoc, unitsFrom, delimited.1.firstUnit_append,
      ih delimited.2 enough]

theorem length_le_flatten (filled : ∀ unit ∈ list, unit ≠ []) : list.length ≤ list.flatten.length := by
  induction list with
  | nil => exact Nat.le_refl _
  | cons unit list ih =>
    rw [List.forall_mem_cons] at filled
    have one := List.length_pos_iff.mpr filled.1
    have more := ih filled.2
    simp only [List.length_cons, List.flatten_cons, List.length_append]
    omega

/-- Units that stand one behind the other are found again. -/
theorem units_flatten (delimited : ∀ unit ∈ list, Delimited size? unit)
    (nothing : firstUnit size? left = none) : units size? (list.flatten ++ left) = (list, left) := by
  apply unitsFrom_flatten delimited nothing
  have fewer := length_le_flatten fun unit member => (delimited unit member).ne_nil
  rw [List.length_append]
  omega

/-- A stream of units breaks off behind a unit or inside one. -/
theorem prefix_flatten_cases (shorter : stream <+: list.flatten) :
    ∃ whole left, whole <+: list ∧ stream = whole.flatten ++ left ∧
      (left = [] ∨ ∃ unit more, list = whole ++ unit :: more ∧ left <+: unit ∧ left ≠ unit) := by
  induction list generalizing stream with
  | nil =>
    rw [List.flatten_nil, List.prefix_nil] at shorter
    exact ⟨[], [], List.nil_prefix, shorter, .inl rfl⟩
  | cons unit list ih =>
    rw [List.flatten_cons] at shorter
    rcases Nat.lt_or_ge stream.length unit.length with inside | behind
    · refine ⟨[], stream, List.nil_prefix, rfl, .inr ⟨unit, list, rfl, ?_, fun same => ?_⟩⟩
      · exact List.prefix_of_prefix_length_le shorter (List.prefix_append _ _) (Nat.le_of_lt inside)
      · rw [same] at inside
        exact Nat.lt_irrefl _ inside
    · obtain ⟨rest, rfl⟩ := List.prefix_of_prefix_length_le (List.prefix_append _ _) shorter behind
      rw [List.prefix_append_right_inj] at shorter
      obtain ⟨whole, left, complete, rfl, breaks⟩ := ih shorter
      refine ⟨unit :: whole, left, List.cons_prefix_cons.mpr ⟨rfl, complete⟩, ?_, breaks.imp_right ?_⟩
      · rw [List.flatten_cons, List.append_assoc]
      · rintro ⟨next, more, rfl, part, proper⟩
        exact ⟨next, more, rfl, part, proper⟩

/-- Wherever a stream of units breaks off, the complete units are found, and of the next one what there is. -/
theorem units_prefix (delimited : ∀ unit ∈ list, Delimited size? unit) (silent : size? [] = none)
    (shorter : stream <+: list.flatten) :
    ∃ whole left, units size? stream = (whole, left) ∧ whole <+: list ∧ stream = whole.flatten ++ left ∧
      (left = [] ∨ ∃ unit more, list = whole ++ unit :: more ∧ left <+: unit ∧ left ≠ unit) := by
  obtain ⟨whole, left, complete, rfl, breaks⟩ := prefix_flatten_cases shorter
  refine ⟨whole, left, units_flatten (fun unit member => delimited unit (complete.subset member)) ?_,
    complete, rfl, breaks⟩
  rcases breaks with rfl | ⟨unit, more, rfl, part, proper⟩
  · simp only [firstUnit, silent]
  · have last : unit ∈ whole ++ unit :: more := List.mem_append_right _ (List.mem_cons_self ..)
    exact (delimited unit last).firstUnit_part part proper

end Wire
