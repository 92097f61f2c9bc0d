import Mathlib.Data.List.Forall2
import Mathlib.Tactic.Common

/-! # Patterns with wildcards

A pattern is a word in which one letter stands for any letter and another for any word. The words of a
pattern are what is left when every wildcard has been replaced.
-/

namespace Wildcards

variable {α : Type} {one many : α}

/-- What a letter of a pattern may be replaced by. -/
inductive Replaced (one many : α) : α → List α → Prop
  | one (a : α) : Replaced one many one [a]
  | many (part : List α) : Replaced one many many part
  | kept {a : α} (not_one : a ≠ one) (not_many : a ≠ many) : Replaced one many a [a]

/-- The words of a pattern. -/
def Obtained (one many : α) (pattern word : List α) : Prop :=
  ∃ parts, List.Forall₂ (Replaced one many) pattern parts ∧ word = parts.flatten

theorem obtained_nil_iff {word : List α} : Obtained one many [] word ↔ word = [] := by
  simp [Obtained]

theorem obtained_cons_iff {a : α} {pattern word : List α} : Obtained one many (a :: pattern) word ↔
    ∃ part rest, Replaced one many a part ∧ Obtained one many pattern rest ∧ word = part ++ rest := by
  constructor
  · rintro ⟨_, replaced, rfl⟩
    obtain ⟨part, parts, head, tail, rfl⟩ := List.forall₂_cons_left_iff.mp replaced
    exact ⟨part, parts.flatten, head, ⟨parts, tail, rfl⟩, rfl⟩
  · rintro ⟨part, _, head, ⟨parts, tail, rfl⟩, rfl⟩
    exact ⟨part :: parts, .cons head tail, rfl⟩

/-- A last wildcard for words takes what is left. -/
theorem obtained_many (word : List α) : Obtained one many [many] word :=
  obtained_cons_iff.mpr ⟨word, [], .many word, obtained_nil_iff.mpr rfl, (List.append_nil word).symm⟩

theorem replaced_one_iff (distinct : one ≠ many) {part : List α} :
    Replaced one many one part ↔ ∃ a, part = [a] := by
  constructor
  · intro replaced
    cases replaced with
    | one a => exact ⟨a, rfl⟩
    | many => exact absurd rfl distinct
    | kept not_one => exact absurd rfl not_one
  · rintro ⟨a, rfl⟩
    exact .one a

theorem replaced_kept_iff {a : α} (not_one : a ≠ one) (not_many : a ≠ many) {part : List α} :
    Replaced one many a part ↔ part = [a] := by
  constructor
  · intro replaced
    cases replaced with
    | one => exact absurd rfl not_one
    | many => exact absurd rfl not_many
    | kept => rfl
  · rintro rfl
    exact .kept not_one not_many

/-- A letter that is replaced by one letter takes the first letter of the word. -/
theorem obtained_one_cons_iff (distinct : one ≠ many) {pattern word : List α} :
    Obtained one many (one :: pattern) word ↔ ∃ a rest, word = a :: rest ∧ Obtained one many pattern rest := by
  rw [obtained_cons_iff]
  constructor
  · rintro ⟨part, rest, replaced, obtained, rfl⟩
    obtain ⟨a, rfl⟩ := (replaced_one_iff distinct).mp replaced
    exact ⟨a, rest, rfl, obtained⟩
  · rintro ⟨a, rest, rfl, obtained⟩
    exact ⟨[a], rest, .one a, obtained, rfl⟩

theorem obtained_kept_cons_iff {a : α} (not_one : a ≠ one) (not_many : a ≠ many) {pattern word : List α} :
    Obtained one many (a :: pattern) word ↔ ∃ rest, word = a :: rest ∧ Obtained one many pattern rest := by
  rw [obtained_cons_iff]
  constructor
  · rintro ⟨part, rest, replaced, obtained, rfl⟩
    obtain rfl := (replaced_kept_iff not_one not_many).mp replaced
    exact ⟨rest, rfl, obtained⟩
  · rintro ⟨rest, rfl, obtained⟩
    exact ⟨[a], rest, .kept not_one not_many, obtained, rfl⟩

/-- The wildcard for words stands at the end only. -/
def ManyLast (many : α) (pattern : List α) : Prop := ∀ a ∈ pattern.dropLast, a ≠ many

theorem manyLast_cons_iff {a : α} {pattern : List α} :
    ManyLast many (a :: pattern) ↔ (a = many → pattern = []) ∧ ManyLast many pattern := by
  cases pattern with
  | nil => simp [ManyLast]
  | cons b pattern => simp [ManyLast]

end Wildcards
