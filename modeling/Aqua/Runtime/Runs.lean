import Mathlib.Data.List.Induction
import Mathlib.Tactic.Common

/-! # Runs of a transition relation

A run is a list of events, each of which is a step from the state the events before it led to. What
holds at the start and is kept by every step holds behind every run.
-/

namespace Runtime

variable {σ ε : Type}

/-- The events of a run from `start`, and the state they lead to. -/
inductive Runs (step : σ → ε → σ → Prop) (start : σ) : List ε → σ → Prop
  | nil : Runs step start [] start
  | snoc {events : List ε} {event : ε} {s next : σ} :
      Runs step start events s → step s event next → Runs step start (events ++ [event]) next

variable {step : σ → ε → σ → Prop} {start middle final : σ} {events later : List ε} {event : ε}

theorem runs_nil_iff : Runs step start [] final ↔ final = start := by
  constructor
  · intro run
    generalize same : ([] : List ε) = events at run
    cases run with
    | nil => rfl
    | snoc => simp at same
  · rintro rfl
    exact .nil

theorem runs_snoc_iff : Runs step start (events ++ [event]) final ↔
    ∃ s, Runs step start events s ∧ step s event final := by
  constructor
  · intro run
    generalize same : events ++ [event] = all at run
    cases run with
    | nil => simp at same
    | snoc earlier last =>
      obtain ⟨events_eq, event_eq⟩ := List.append_inj' same rfl
      rw [events_eq, List.singleton_inj.mp event_eq]
      exact ⟨_, earlier, last⟩
  · rintro ⟨s, earlier, last⟩
    exact earlier.snoc last

namespace Runs

/-- The invariant rule. -/
theorem invariant {inv : σ → Prop} (keeps : ∀ s event next, inv s → step s event next → inv next)
    (holds : inv start) (run : Runs step start events final) : inv final := by
  induction run with
  | nil => exact holds
  | snoc _ last ih => exact keeps _ _ _ ih last

theorem append (run : Runs step start events middle) (further : Runs step middle later final) :
    Runs step start (events ++ later) final := by
  induction further with
  | nil => exact (List.append_nil events).symm ▸ run
  | snoc _ last ih => exact List.append_assoc .. ▸ ih.snoc last

theorem single (last : step start event final) : Runs step start [event] final := .snoc .nil last

theorem mono {step' : σ → ε → σ → Prop} (weaker : ∀ s event next, step s event next → step' s event next)
    (run : Runs step start events final) : Runs step' start events final := by
  induction run with
  | nil => exact .nil
  | snoc _ last ih => exact ih.snoc (weaker _ _ _ last)

end Runs

/-- A step that leads into a state with the property. -/
def Ending (step : σ → ε → σ → Prop) (prop : σ → Prop) (s : σ) (event : ε) (next : σ) : Prop :=
  step s event next ∧ prop next

/-- A step in front of which the condition holds. -/
def Guarded (step : σ → ε → σ → Prop) (guard : σ → ε → Prop) (s : σ) (event : ε) (next : σ) : Prop :=
  step s event next ∧ guard s event

/-- Where an invariant makes the condition decide the property and is kept by guarded steps, the runs
through states with the property are the guarded runs. -/
theorem runs_ending_iff_guarded {prop inv : σ → Prop} {guard : σ → ε → Prop}
    (decides : ∀ s event next, inv s → step s event next → (prop next ↔ guard s event))
    (keeps : ∀ s event next, inv s → step s event next → guard s event → inv next) (holds : inv start) :
    Runs (Ending step prop) start events final ↔ Runs (Guarded step guard) start events final := by
  have kept : ∀ {events final}, Runs (Guarded step guard) start events final → inv final :=
    fun run => run.invariant (fun s event next held last => keeps s event next held last.1 last.2) holds
  constructor
  · intro run
    induction run with
    | nil => exact .nil
    | snoc _ last ih => exact ih.snoc ⟨last.1, (decides _ _ _ (kept ih) last.1).mp last.2⟩
  · intro run
    induction run with
    | nil => exact .nil
    | snoc earlier last ih => exact ih.snoc ⟨last.1, (decides _ _ _ (kept earlier) last.1).mpr last.2⟩

/-- Where an invariant makes the steps change nothing that the condition forbids, the guarded runs get just as far. -/
theorem Runs.guarded {inv : σ → Prop} {guard : σ → ε → Prop}
    (keeps : ∀ s event next, inv s → step s event next → inv next)
    (idle : ∀ s event next, inv s → step s event next → ¬ guard s event → next = s) (holds : inv start)
    (run : Runs step start events final) :
    ∃ kept : List ε, kept.Sublist events ∧ Runs (Guarded step guard) start kept final := by
  induction run with
  | nil => exact ⟨[], .slnil, .nil⟩
  | @snoc events event s next earlier last ih =>
    obtain ⟨kept, fewer, run⟩ := ih
    by_cases allowed : guard s event
    · exact ⟨kept ++ [event], fewer.append_right [event], run.snoc ⟨last, allowed⟩⟩
    · rw [idle s event next (earlier.invariant keeps holds) last allowed]
      exact ⟨kept, fewer.trans (List.sublist_append_left ..), run⟩

/-- A step, with what is observed of its event. -/
def Observed {δ : Type} (step : σ → ε → σ → Prop) (observe : σ → ε → List δ) (s : σ) (event : ε × List δ)
    (next : σ) : Prop :=
  step s event.1 next ∧ event.2 = observe s event.1

/-- The simulation rule: where every step is a run between the views of its states, and the same is observed of
both, every run is one between the views of its ends. -/
theorem Runs.simulates {σ' ε' δ : Type} {step' : σ' → ε' → σ' → Prop} {observe : σ → ε → List δ}
    {observe' : ε' → Option δ} {view : σ → σ'} {inv : σ → Prop}
    (keeps : ∀ s event next, inv s → step s event next → inv next)
    (simulated : ∀ s event next, inv s → step s event next →
      ∃ events', Runs step' (view s) events' (view next) ∧ events'.filterMap observe' = observe s event)
    (holds : inv start) {observed : List (ε × List δ)} (run : Runs (Observed step observe) start observed final) :
    ∃ events', Runs step' (view start) events' (view final) ∧
      events'.filterMap observe' = observed.flatMap Prod.snd := by
  induction run with
  | nil => exact ⟨[], .nil, rfl⟩
  | @snoc observed event s next earlier last ih =>
    obtain ⟨before, reached, same⟩ := ih
    have held : inv s := earlier.invariant (fun s event next held last => keeps s event.1 next held last.1) holds
    obtain ⟨further, goes, own⟩ := simulated _ _ _ held last.1
    refine ⟨before ++ further, reached.append goes, ?_⟩
    rw [List.filterMap_append, List.flatMap_append, List.flatMap_singleton, same, own, last.2]

end Runtime
