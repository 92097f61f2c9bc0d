import Mathlib.Data.List.Induction
import Mathlib.Data.List.Infix

/-! # Sequences of calls

Properties of an object whose calls are folded over its state. When an invariant decides for every
call whether a property survives it, the property holds along a whole sequence exactly if every call
of the sequence is good in the state it finds.
-/

namespace Runtime

variable {σ ε : Type} {apply : σ → ε → σ} {inv prop : σ → Prop} {fits good : σ → ε → Prop} {s : σ}

theorem forall_call_nil {p : List ε → ε → Prop} : ∀ before e, before ++ [e] <+: [] → p before e :=
  fun before e none => by simp at none

theorem forall_call_concat {p : List ε → ε → Prop} {calls : List ε} {last : ε} :
    (∀ before e, before ++ [e] <+: calls ++ [last] → p before e) ↔
      (∀ before e, before ++ [e] <+: calls → p before e) ∧ p calls last := by
  constructor
  · intro all
    refine ⟨fun before e earlier => all before e (earlier.trans (List.prefix_append _ _)), ?_⟩
    exact all calls last (List.prefix_refl _)
  · rintro ⟨all, now⟩ before e earlier
    rcases List.prefix_concat_iff.mp earlier with same | proper
    · obtain ⟨rfl, eq⟩ := List.append_inj' same rfl
      rwa [List.singleton_inj.mp eq]
    · exact all before e proper

/-- What every good call keeps holds behind good calls. -/
theorem foldl_invariant (start : inv s) (step : ∀ s e, inv s → good s e → inv (apply s e))
    {calls : List ε} (goods : ∀ before e, before ++ [e] <+: calls → good (before.foldl apply s) e) :
    inv (calls.foldl apply s) := by
  induction calls using List.reverseRecOn with
  | nil => exact start
  | append_singleton calls e ih =>
    obtain ⟨earlier, last⟩ := forall_call_concat.mp goods
    rw [List.foldl_append]
    exact step _ _ (ih earlier) last

/-- A property that holds where the invariant does, and behind a fitting call exactly if the call is
good, holds along a sequence of fitting calls exactly if all of them are good. -/
theorem foldl_property_iff (start : inv s) (holds : ∀ s, inv s → prop s)
    (exact : ∀ s e, inv s → fits s e → (prop (apply s e) ↔ good s e))
    (keeps : ∀ s e, inv s → fits s e ∧ good s e → inv (apply s e)) {calls : List ε}
    (fitting : ∀ before e, before ++ [e] <+: calls → fits (before.foldl apply s) e) :
    (∀ before, before <+: calls → prop (before.foldl apply s)) ↔
      ∀ before e, before ++ [e] <+: calls → good (before.foldl apply s) e := by
  constructor
  · intro props
    have invs : ∀ before, before <+: calls → inv (before.foldl apply s) ∧
        ∀ first e, first ++ [e] <+: before → good (first.foldl apply s) e := by
      intro before
      induction before using List.reverseRecOn with
      | nil => exact fun _ => ⟨start, forall_call_nil⟩
      | append_singleton before e ih =>
        intro earlier
        obtain ⟨now, goods⟩ := ih ((List.prefix_append _ _).trans earlier)
        have next := props _ earlier
        rw [List.foldl_append] at next ⊢
        have fit := fitting before e earlier
        have goodNow := (exact _ _ now fit).mp next
        exact ⟨keeps _ _ now ⟨fit, goodNow⟩, forall_call_concat.mpr ⟨goods, goodNow⟩⟩
    exact fun before e earlier => (invs _ earlier).2 before e (List.prefix_refl _)
  · intro goods before earlier
    refine holds _ (foldl_invariant start keeps fun first e shorter => ?_)
    exact ⟨fitting first e (shorter.trans earlier), goods first e (shorter.trans earlier)⟩

theorem foldl_invariant_iff (start : inv s)
    (step : ∀ s e, inv s → (inv (apply s e) ↔ good s e)) (calls : List ε) :
    (∀ before, before <+: calls → inv (before.foldl apply s)) ↔
      ∀ before e, before ++ [e] <+: calls → good (before.foldl apply s) e := by
  apply @foldl_property_iff σ ε apply inv inv (fun _ _ => True) good s start (fun _ now => now)
  · exact fun s e now _ => step s e now
  · exact fun s e now isGood => (step s e now).mpr isGood.2
  · exact fun _ _ _ => trivial

end Runtime
