import Aqua.Model.Topics
import Aqua.Spec.Wildcards

/-! # Filters as patterns

A filter matches the topics whose levels are left when its wildcards have been replaced: every + by one level,
a last # by any number of levels. A # in front of another level matches nothing. Live and retained messages are
selected by this one relation.
-/

namespace Aqua

open Wildcards

/-- The levels between the slashes of a string. -/
structure Splits (s : String) (levels : List String) : Prop where
  nonempty : levels ≠ []
  separate : ∀ level ∈ levels, '/' ∉ level.toList
  joined : String.intercalate "/" levels = s

/-- No piece of a split contains the separator. -/
theorem not_mem_of_mem_splitOn {α : Type} [DecidableEq α] {separator : α} {letters piece : List α}
    (member : piece ∈ letters.splitOn separator) : separator ∉ piece := by
  induction letters generalizing piece with
  | nil =>
    rw [List.splitOn_nil, List.mem_singleton] at member
    rw [member]
    exact List.not_mem_nil
  | cons letter letters ih =>
    rw [List.splitOn_cons_eq_if_modifyHead] at member
    split at member
    · rcases List.mem_cons.mp member with rfl | member
      · exact List.not_mem_nil
      · exact ih member
    · next other =>
      obtain ⟨first, pieces, eq⟩ := List.exists_cons_of_ne_nil (List.splitOn_ne_nil separator letters)
      rw [eq] at member ih
      rcases List.mem_cons.mp member with rfl | member
      · rw [List.mem_cons, not_or]
        exact ⟨fun same => other (beq_iff_eq.mpr same.symm), ih List.mem_cons_self⟩
      · exact ih (List.mem_cons_of_mem _ member)

private theorem splits_segments (s : String) : Splits s (segments s) where
  nonempty := by simp [segments, List.splitOn_ne_nil]
  separate := by
    intro level member
    obtain ⟨piece, found, rfl⟩ := List.mem_map.mp member
    rw [String.toList_ofList]
    exact not_mem_of_mem_splitOn found
  joined := by
    rw [← String.toList_inj, String.toList_intercalate, segments, List.map_map]
    have pieces : (s.toList.splitOn '/').map (String.toList ∘ String.ofList) = s.toList.splitOn '/' := by
      simp [Function.comp_def]
    rw [pieces]
    exact List.intercalate_splitOn '/'

/-- A string has one list of levels. -/
theorem splits_iff {s : String} {levels : List String} : Splits s levels ↔ levels = segments s := by
  constructor
  · rintro ⟨nonempty, separate, rfl⟩
    have pieces : (String.intercalate "/" levels).toList.splitOn '/' = levels.map String.toList := by
      rw [String.toList_intercalate]
      apply List.splitOn_intercalate
      · simpa using separate
      · simpa using nonempty
    rw [segments, pieces, List.map_map]
    simp [Function.comp_def]
  · rintro rfl
    exact splits_segments s

/-- The topic is what a replacement of the wildcards of the filter leaves. -/
def Matches (topicFilter topic : String) : Prop :=
  ∃ levels names, Splits topicFilter levels ∧ Splits topic names ∧
    ManyLast "#" levels ∧ Obtained "+" "#" levels names

private theorem matchSegments_iff (levels names : List String) :
    matchSegments levels names = true ↔ ManyLast "#" levels ∧ Obtained "+" "#" levels names := by
  induction levels generalizing names with
  | nil => simp [matchSegments, ManyLast, obtained_nil_iff]
  | cons level levels ih =>
    rw [matchSegments.eq_def, manyLast_cons_iff]
    dsimp only
    by_cases many : level = "#"
    · subst many
      rw [if_pos rfl, List.isEmpty_iff]
      constructor
      · rintro rfl
        exact ⟨⟨fun _ => rfl, fun _ member => absurd member List.not_mem_nil⟩, obtained_many names⟩
      · rintro ⟨⟨last, -⟩, -⟩
        exact last rfl
    rw [if_neg many]
    by_cases one : level = "+"
    · subst one
      rw [obtained_one_cons_iff (by decide)]
      cases names with
      | nil => simp
      | cons name names => simp [ih, many]
    · rw [obtained_kept_cons_iff one many]
      cases names with
      | nil => simp
      | cons name names =>
        by_cases same : level = name
        · subst same
          simp [one, many, ih]
        · simp [one, same, Ne.symm same]

theorem isMatch_iff (topicFilter topic : String) :
    isMatch topicFilter topic = true ↔ Matches topicFilter topic := by
  simp only [isMatch, matchSegments_iff, Matches, splits_iff]
  constructor
  · rintro ⟨last, obtained⟩
    exact ⟨_, _, rfl, rfl, last, obtained⟩
  · rintro ⟨_, _, rfl, rfl, last, obtained⟩
    exact ⟨last, obtained⟩

/-- Retained and live messages are selected by the replacement of wildcards. -/
theorem filter_matches_iff (topicFilter topic : String) :
    (∀ store : RetainStore, store.isMatch topicFilter topic = true ↔ Matches topicFilter topic) ∧
      ∀ topics : TopicManager, topics.isMatch topicFilter topic = true ↔ Matches topicFilter topic :=
  ⟨fun _ => isMatch_iff topicFilter topic, fun _ => isMatch_iff topicFilter topic⟩

/-- The filter # matches everything. -/
theorem matches_hash (topic : String) : Matches "#" topic :=
  ⟨["#"], segments topic, splits_iff.mpr (by decide), splits_segments topic,
    manyLast_cons_iff.mpr ⟨fun _ => rfl, nofun⟩, obtained_many _⟩

/-- A filter that ends in a # matches what stands in front of it without the last slash. -/
theorem matches_parent {topicFilter topic : String} (whole : "#" ∉ segments topicFilter)
    (matched : Matches topicFilter topic) : Matches (topicFilter ++ "/#") topic := by
  obtain ⟨levels, names, splits, named, -, parts, replaced, rfl⟩ := matched
  have split : Splits (topicFilter ++ "/#") (levels ++ ["#"]) := {
    nonempty := by simp
    separate := by
      intro level member
      rcases List.mem_append.mp member with earlier | last
      · exact splits.separate level earlier
      · rw [List.mem_singleton.mp last]
        decide
    joined := by
      rw [String.intercalate_append_of_ne_nil splits.nonempty (by simp), splits.joined, String.append_assoc]
      rfl }
  refine ⟨_, _, split, named, ?_, parts ++ [[]], List.rel_append replaced (.cons (.many []) .nil), by simp⟩
  rw [splits_iff.mp splits, ManyLast, List.dropLast_concat]
  exact fun level member same => whole (same ▸ member)

/-- The retained messages a filter selects. -/
theorem RetainStore.mem_checkRetain_iff {self : RetainStore} {topicFilter : String} {p : Publish} :
    p ∈ self.checkRetain topicFilter ↔
      ∃ topic, self.kvs.get topic = some p ∧ Matches topicFilter topic := by
  simp only [checkRetain, List.mem_map, List.mem_filter, Prod.exists, Runtime.DashMap.mem_iter_iff, isMatch,
    isMatch_iff]
  constructor
  · rintro ⟨topic, _, ⟨kept, matched⟩, rfl⟩
    exact ⟨topic, kept, matched⟩
  · rintro ⟨topic, kept, matched⟩
    exact ⟨topic, p, ⟨kept, matched⟩, rfl⟩

end Aqua
