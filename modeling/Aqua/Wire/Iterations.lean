import Aqua.Wire.Reader

/-! # Iterations of a loop

How often a loop goes round, whatever fuel it is run on. A run on `limit` units of fuel diverges unless the loop is
left in one of its first `limit` iterations, so a reader loop whose iterations advance inside the buffer is left
after at most one more iteration than the buffer has bytes.
-/

namespace Wire

namespace Outcome

variable {ε β σ : Type} {body : σ → Outcome ε (σ ⊕ β)} {limit : ℕ} {s next : σ}

/-- An iteration that leaves the loop: with a result, an error or an abort. -/
def Leaves (iteration : Outcome ε (σ ⊕ β)) : Prop :=
  (∃ b, iteration = .ok (.inr b)) ∨ (∃ e, iteration = .err e) ∨ iteration = .panic

/-- The loop continues `count` times on the way from one state to the other. -/
inductive Continues (body : σ → Outcome ε (σ ⊕ β)) : ℕ → σ → σ → Prop
  | refl (s : σ) : Continues body 0 s s
  | head {count : ℕ} {s mid t : σ} (step : body s = .ok (.inl mid)) (rest : Continues body count mid t) :
      Continues body (count + 1) s t

/-- The loop is left in one of its first `limit` iterations. -/
def LeftWithin (body : σ → Outcome ε (σ ⊕ β)) (limit : ℕ) (s : σ) : Prop :=
  ∃ count t, count < limit ∧ Continues body count s t ∧ Leaves (body t)

theorem leftWithin_succ_iff (step : body s = .ok (.inl next)) :
    LeftWithin body (limit + 1) s ↔ LeftWithin body limit next := by
  constructor
  · rintro ⟨count, t, less, continues, leaves⟩
    cases continues with
    | refl =>
      rw [step] at leaves
      rcases leaves with ⟨b, wrong⟩ | ⟨e, wrong⟩ | wrong <;> cases wrong
    | @head count _ mid _ step' rest =>
      rw [step] at step'
      cases step'
      exact ⟨count, t, Nat.lt_of_succ_lt_succ less, rest, leaves⟩
  · rintro ⟨count, t, less, continues, leaves⟩
    exact ⟨count + 1, t, Nat.succ_lt_succ less, .head step continues, leaves⟩

theorem leftWithin_of_leaves (leaves : Leaves (body s)) : LeftWithin body (limit + 1) s :=
  ⟨0, s, Nat.succ_pos limit, .refl s, leaves⟩

/-- A run on fuel does not diverge exactly if the fuel lasts for the iterations. -/
theorem leftWithin_iff : LeftWithin body limit s ↔ loop body limit s ≠ .diverge := by
  induction limit generalizing s with
  | zero => exact iff_of_false (fun ⟨_, _, less, _⟩ => Nat.not_lt_zero _ less) fun ends => ends rfl
  | succ limit ih =>
    cases step : body s with
    | ok iteration =>
      cases iteration with
      | inl next => rw [leftWithin_succ_iff step, loop_continue step, ih]
      | inr b =>
        rw [loop_break step]
        exact iff_of_true (leftWithin_of_leaves (.inl ⟨b, step⟩)) (ok_ne_diverge b)
    | err e => exact iff_of_true (leftWithin_of_leaves (.inr (.inl ⟨e, step⟩))) (by simp [loop, step])
    | panic => exact iff_of_true (leftWithin_of_leaves (.inr (.inr step))) (by simp [loop, step])
    | diverge =>
      refine iff_of_false ?_ (by simp [loop, step])
      rintro ⟨count, t, _, continues, leaves⟩
      cases continues with
      | refl =>
        rw [step] at leaves
        rcases leaves with ⟨b, wrong⟩ | ⟨e, wrong⟩ | wrong <;> cases wrong
      | head step' rest =>
        rw [step] at step'
        cases step'

end Outcome

theorem Reader.Advances.leftWithin {ε β σ : Type} {body : σ → Reader ε (σ ⊕ β)} (advances : Reader.Advances body)
    (buf : List UInt8) (s : σ) (pos : ℕ) :
    Outcome.LeftWithin (Reader.loopBody body buf) (buf.length + 1) (s, pos) :=
  Outcome.leftWithin_iff.mpr (Reader.Lawful.loop_halts advances.lawful advances.advances s buf pos)

end Wire
