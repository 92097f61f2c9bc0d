import Mathlib.Logic.Relation
import Mathlib.Tactic.Common

/-! # Outcomes of a call that may abort

`Outcome` separates the four ways a call can end: a value, an error value handed to the caller,
an abort of the whole thread, and a loop that never leaves. `Outcome.loop` is the unbounded loop
of an imperative language, run on a fuel argument; its rules say that fuel beyond the last
iteration changes nothing, how a measure rules out divergence, and that an abort of the loop is
an abort of its body in some state the loop visits.
-/

namespace Wire

/-- A call returns, fails, aborts, or runs for ever. -/
inductive Outcome (ε α : Type) where
  | ok (value : α)
  | err (error : ε)
  | panic
  | diverge
deriving DecidableEq, Repr

namespace Outcome

variable {ε α β σ : Type}

/-- Sequencing: anything but a value ends the whole computation. -/
def bind (x : Outcome ε α) (f : α → Outcome ε β) : Outcome ε β :=
  match x with
  | .ok a => f a
  | .err e => .err e
  | .panic => .panic
  | .diverge => .diverge

instance : Monad (Outcome ε) where
  pure := .ok
  bind := bind

instance : LawfulMonad (Outcome ε) := LawfulMonad.mk' _
  (by rintro _ (_ | _ | _ | _) <;> rfl) (fun _ _ => rfl)
  (by rintro _ _ _ (_ | _ | _ | _) _ _ <;> rfl)

/-- `Option::unwrap`. -/
def unwrap : Option α → Outcome ε α
  | some a => .ok a
  | none => .panic

/-- The value of a call that returns. -/
def value? : Outcome ε α → Option α
  | .ok a => some a
  | _ => none

@[simp] theorem value?_ok (a : α) : (.ok a : Outcome ε α).value? = some a := rfl

@[simp] theorem unwrap_some (a : α) : (unwrap (some a) : Outcome ε α) = .ok a := rfl
@[simp] theorem unwrap_none : (unwrap (none : Option α) : Outcome ε α) = .panic := rfl

@[simp] theorem pure_eq (a : α) : (pure a : Outcome ε α) = .ok a := rfl
@[simp] theorem ok_bind (a : α) (f : α → Outcome ε β) : (.ok a >>= f) = f a := rfl
@[simp] theorem err_bind (e : ε) (f : α → Outcome ε β) : (.err e >>= f) = .err e := rfl
@[simp] theorem panic_bind (f : α → Outcome ε β) : (.panic >>= f) = .panic := rfl
@[simp] theorem ok_ne_diverge (a : α) : (.ok a : Outcome ε α) ≠ .diverge := nofun
@[simp] theorem err_ne_diverge (e : ε) : (.err e : Outcome ε α) ≠ .diverge := nofun
@[simp] theorem panic_ne_diverge : (.panic : Outcome ε α) ≠ .diverge := nofun
@[simp] theorem diverge_bind (f : α → Outcome ε β) : (.diverge >>= f) = .diverge := rfl

theorem bind_eq_ok_iff {x : Outcome ε α} {f : α → Outcome ε β} {b : β} :
    x >>= f = .ok b ↔ ∃ a, x = .ok a ∧ f a = .ok b := by
  cases x <;> simp

theorem bind_eq_panic_iff {x : Outcome ε α} {f : α → Outcome ε β} :
    x >>= f = .panic ↔ x = .panic ∨ ∃ a, x = .ok a ∧ f a = .panic := by
  cases x <;> simp

theorem bind_eq_diverge_iff {x : Outcome ε α} {f : α → Outcome ε β} :
    x >>= f = .diverge ↔ x = .diverge ∨ ∃ a, x = .ok a ∧ f a = .diverge := by
  cases x <;> simp

theorem ite_halts {c : Prop} [Decidable c] {x y : Outcome ε α} (yes : x ≠ .diverge)
    (no : y ≠ .diverge) : (if c then x else y) ≠ .diverge := by
  split
  · exact yes
  · exact no

/-- A loop whose body either continues with a new state or breaks with a value. -/
def loop (body : σ → Outcome ε (σ ⊕ β)) : ℕ → σ → Outcome ε β
  | 0, _ => .diverge
  | fuel + 1, s =>
      match body s with
      | .ok (.inl next) => loop body fuel next
      | .ok (.inr b) => .ok b
      | .err e => .err e
      | .panic => .panic
      | .diverge => .diverge

/-- The states a loop passes through. -/
def Visits (body : σ → Outcome ε (σ ⊕ β)) : σ → σ → Prop :=
  Relation.ReflTransGen fun s t => body s = .ok (.inl t)

variable {body : σ → Outcome ε (σ ⊕ β)}

theorem loop_continue {s next : σ} (step : body s = .ok (.inl next)) (fuel : ℕ) :
    loop body (fuel + 1) s = loop body fuel next := by
  simp only [loop, step]

theorem loop_break {s : σ} {b : β} (step : body s = .ok (.inr b)) (fuel : ℕ) :
    loop body (fuel + 1) s = .ok b := by
  simp only [loop, step]

/-- More fuel does not change a run that already ended. -/
theorem loop_fuel_mono {m n : ℕ} {s : σ} (le : m ≤ n) (ends : loop body m s ≠ .diverge) :
    loop body n s = loop body m s := by
  induction m generalizing n s with
  | zero => exact (ends rfl).elim
  | succ m ih =>
    obtain ⟨n, rfl⟩ : ∃ k, n = k + 1 := ⟨n - 1, by omega⟩
    simp only [loop] at ends ⊢
    split
    · next next step =>
      rw [step] at ends
      exact ih (by omega) ends
    all_goals rfl

/-- Two amounts of fuel that both suffice give the same run. -/
theorem loop_fuel_irrelevant {m n : ℕ} {s : σ} (left : loop body m s ≠ .diverge)
    (right : loop body n s ≠ .diverge) : loop body m s = loop body n s := by
  rcases Nat.le_total m n with le | le
  · exact (loop_fuel_mono le left).symm
  · exact loop_fuel_mono le right

/-- A measure that falls on every iteration bounds the iterations. -/
theorem loop_halts (measure : σ → ℕ) (total : ∀ s, body s ≠ .diverge)
    (falls : ∀ s t, body s = .ok (.inl t) → measure t < measure s)
    {fuel : ℕ} {s : σ} (enough : measure s < fuel) : loop body fuel s ≠ .diverge := by
  induction fuel generalizing s with
  | zero => omega
  | succ fuel ih =>
    simp only [loop]
    split
    · next next step =>
      have := falls _ _ step
      exact ih (by omega)
    · exact ok_ne_diverge _
    · exact err_ne_diverge _
    · exact panic_ne_diverge
    · next step => exact (total s step).elim

/-- Invariant rule: what the body keeps while it continues holds where it breaks. -/
theorem loop_invariant (inv : σ → Prop) (post : β → Prop)
    (keeps : ∀ s t, inv s → body s = .ok (.inl t) → inv t)
    (breaks : ∀ s b, inv s → body s = .ok (.inr b) → post b)
    {fuel : ℕ} {s : σ} {b : β} (start : inv s) (run : loop body fuel s = .ok b) : post b := by
  induction fuel generalizing s with
  | zero => cases run
  | succ fuel ih =>
    simp only [loop] at run
    split at run
    · next next step => exact ih (keeps _ _ start step) run
    · next value step =>
      cases run
      exact breaks _ _ start step
    all_goals cases run

/-- A loop returns exactly what its body breaks with in a state the loop visits. -/
theorem loop_eq_ok_iff {fuel : ℕ} {s : σ} {b : β} (ends : loop body fuel s ≠ .diverge) :
    loop body fuel s = .ok b ↔ ∃ t, Visits body s t ∧ body t = .ok (.inr b) := by
  induction fuel generalizing s with
  | zero => exact (ends rfl).elim
  | succ fuel ih =>
    constructor
    · intro run
      simp only [loop] at run ends
      split at run
      · next next step =>
        rw [step] at ends
        obtain ⟨t, visits, breaks⟩ := (ih ends).mp run
        exact ⟨t, .head step visits, breaks⟩
      · next step =>
        cases run
        exact ⟨s, .refl, step⟩
      all_goals cases run
    · rintro ⟨t, visits, breaks⟩
      rcases visits.cases_head with rfl | ⟨next, step, rest⟩
      · exact loop_break breaks fuel
      · rw [loop_continue step] at ends ⊢
        exact (ih ends).mpr ⟨t, rest, breaks⟩

/-- A loop aborts exactly when its body aborts in a state the loop visits. -/
theorem loop_panic_iff {fuel : ℕ} {s : σ} (ends : loop body fuel s ≠ .diverge) :
    loop body fuel s = .panic ↔ ∃ t, Visits body s t ∧ body t = .panic := by
  induction fuel generalizing s with
  | zero => exact (ends rfl).elim
  | succ fuel ih =>
    constructor
    · intro run
      simp only [loop] at run ends
      split at run
      · next next step =>
        rw [step] at ends
        obtain ⟨t, visits, stuck⟩ := (ih ends).mp run
        exact ⟨t, .head step visits, stuck⟩
      · cases run
      · cases run
      · next step => exact ⟨s, .refl, step⟩
      · cases run
    · rintro ⟨t, visits, stuck⟩
      rcases visits.cases_head with rfl | ⟨next, step, rest⟩
      · simp only [loop, stuck]
      · rw [loop_continue step] at ends ⊢
        exact (ih ends).mpr ⟨t, rest, stuck⟩

end Outcome

end Wire
