import Aqua.Wire.Outcome

/-! # Machines that are fed in chunks

A machine is polled until a poll returns nothing and changes nothing; every other poll may return
an item. When a poll that moves the machine is unaffected by bytes that arrive later (`Incremental`),
feeding a stream in chunks and feeding it at once differ in one respect only: every prefix at which
the stream is cut must itself be processed without a failure.
-/

namespace Wire

variable {ε σ π β : Type}

/-- Polls from `s` return the items `outs` and come to rest in a state that polls do not change. -/
inductive Drains (poll : σ → Outcome ε (Option π × σ)) : σ → List π → σ → Prop
  | idle {s : σ} (stalled : poll s = .ok (none, s)) : Drains poll s [] s
  | pending {s t u : σ} {outs : List π} (step : poll s = .ok (none, t)) (rest : Drains poll t outs u) :
      Drains poll s outs u
  | ready {s t u : σ} {item : π} {outs : List π} (step : poll s = .ok (some item, t))
      (rest : Drains poll t outs u) : Drains poll s (item :: outs) u

namespace Drains

variable {poll : σ → Outcome ε (Option π × σ)} {s t u : σ} {item : π} {outs outs' : List π}

theorem of_idle (stalled : poll s = .ok (none, s)) (drains : Drains poll s outs t) :
    outs = [] ∧ t = s := by
  induction drains with
  | idle _ => exact ⟨rfl, rfl⟩
  | pending step _ ih =>
    cases stalled.symm.trans step
    exact ih stalled
  | ready step _ _ => cases stalled.symm.trans step

theorem pending_iff (step : poll s = .ok (none, t)) : Drains poll s outs u ↔ Drains poll t outs u := by
  constructor
  · intro drains
    cases drains with
    | idle stalled =>
      cases stalled.symm.trans step
      exact .idle step
    | pending step' rest =>
      cases step.symm.trans step'
      exact rest
    | ready step' _ => cases step.symm.trans step'
  · exact .pending step

theorem ready_iff (step : poll s = .ok (some item, t)) :
    Drains poll s outs u ↔ ∃ rest, outs = item :: rest ∧ Drains poll t rest u := by
  constructor
  · intro drains
    cases drains with
    | idle stalled => cases stalled.symm.trans step
    | pending step' _ => cases step.symm.trans step'
    | ready step' rest =>
      cases step.symm.trans step'
      exact ⟨_, rfl, rest⟩
  · rintro ⟨rest, rfl, drains⟩
    exact .ready step drains

/-- A machine that drains can be polled. -/
theorem polls (drains : Drains poll s outs t) : ∃ ready next, poll s = .ok (ready, next) := by
  cases drains with
  | idle stalled => exact ⟨_, _, stalled⟩
  | pending step _ => exact ⟨_, _, step⟩
  | ready step _ => exact ⟨_, _, step⟩

end Drains

/-- Later bytes do not affect a poll that moves the machine. -/
structure Incremental (poll : σ → Outcome ε (Option π × σ)) (feed : σ → List β → σ) : Prop where
  append : ∀ s x y, feed (feed s x) y = feed s (x ++ y)
  later : ∀ {s t r}, poll s = .ok (r, t) → poll s = .ok (none, s) ∨
    ∀ x, poll (feed s x) = .ok (r, feed t x)

namespace Incremental

variable {poll : σ → Outcome ε (Option π × σ)} {feed : σ → List β → σ} {s t u : σ}
  {outs outs' : List π} {x : List β}

/-- What was processed before the bytes `x` arrived is processed the same way when they were there
from the beginning. -/
theorem feed_iff (machine : Incremental poll feed) (before : Drains poll s outs t) :
    Drains poll (feed s x) outs' u ↔ ∃ rest, outs' = outs ++ rest ∧ Drains poll (feed t x) rest u := by
  induction before generalizing outs' with
  | idle _ => exact ⟨fun drains => ⟨outs', rfl, drains⟩, fun ⟨_, same, drains⟩ => same ▸ drains⟩
  | pending step before ih =>
    rcases machine.later step with stalled | moves
    · cases step.symm.trans stalled
      exact ih
    · rw [Drains.pending_iff (moves x), ih]
  | ready step before ih =>
    rcases machine.later step with stalled | moves
    · cases step.symm.trans stalled
    · rw [Drains.ready_iff (moves x)]
      constructor
      · rintro ⟨_, rfl, drains⟩
        obtain ⟨rest, rfl, remaining⟩ := ih.mp drains
        exact ⟨rest, rfl, remaining⟩
      · rintro ⟨rest, rfl, drains⟩
        exact ⟨_, rfl, ih.mpr ⟨rest, rfl, drains⟩⟩

end Incremental

/-- The chunks are fed one after the other, each followed by polls until the machine rests. -/
inductive Feeds (poll : σ → Outcome ε (Option π × σ)) (feed : σ → List β → σ) :
    σ → List (List β) → List π → σ → Prop
  | nil (s : σ) : Feeds poll feed s [] [] s
  | cons {s t u : σ} {chunk : List β} {chunks : List (List β)} {outs outs' : List π}
      (head : Drains poll (feed s chunk) outs t) (tail : Feeds poll feed t chunks outs' u) :
      Feeds poll feed s (chunk :: chunks) (outs ++ outs') u

namespace Incremental

variable {poll : σ → Outcome ε (Option π × σ)} {feed : σ → List β → σ} {s t u : σ}
  {outs outs' : List π} {x : List β}

/-- Every prefix of a stream that is processed in chunks is processed when it arrives at once. -/
theorem prefix_of_feeds (machine : Incremental poll feed) {chunks : List (List β)}
    (fed : Feeds poll feed s chunks outs u) {k : ℕ} (pos : 0 < k) (le : k ≤ chunks.length) :
    ∃ outs' t, Drains poll (feed s (chunks.take k).flatten) outs' t := by
  induction fed generalizing k with
  | nil s =>
    rw [List.length_nil] at le
    omega
  | @cons s t u chunk chunks outs₁ outs₂ head tail ih =>
    obtain ⟨k, rfl⟩ : ∃ j, k = j + 1 := ⟨k - 1, by omega⟩
    rw [List.take_succ_cons, List.flatten_cons, ← machine.append]
    rcases Nat.eq_zero_or_pos k with rfl | more
    · rw [List.take_zero, List.flatten_nil, machine.append, List.append_nil]
      exact ⟨_, _, head⟩
    · rw [List.length_cons] at le
      obtain ⟨outs', t', drains⟩ := ih more (by omega)
      exact ⟨_, t', (machine.feed_iff head).mpr ⟨outs', rfl, drains⟩⟩

/-- A stream that is processed when it arrives at once is processed in chunks if the prefixes at
the cuts are. -/
theorem feeds_of_prefix (machine : Incremental poll feed) {chunks : List (List β)}
    (some_chunk : chunks ≠ []) (whole : Drains poll (feed s chunks.flatten) outs u)
    (cuts : ∀ k, 0 < k → k < chunks.length →
      ∃ outs' t, Drains poll (feed s (chunks.take k).flatten) outs' t) :
    Feeds poll feed s chunks outs u := by
  induction chunks generalizing s outs with
  | nil => exact (some_chunk rfl).elim
  | cons chunk chunks ih =>
    rw [List.flatten_cons] at whole
    by_cases last : chunks = []
    · subst last
      rw [List.flatten_nil, List.append_nil] at whole
      have fed := Feeds.cons whole (.nil u)
      rw [List.append_nil] at fed
      exact fed
    have more := List.length_pos_iff.mpr last
    rw [← machine.append] at whole
    obtain ⟨outs₁, t, head⟩ := cuts 1 (by omega) (by rw [List.length_cons]; omega)
    rw [List.take_succ_cons, List.take_zero, List.flatten_cons, List.flatten_nil,
      List.append_nil] at head
    obtain ⟨rest, rfl, whole'⟩ := (machine.feed_iff head).mp whole
    refine .cons head (ih last whole' fun k pos lt => ?_)
    obtain ⟨outs', t', drains⟩ := cuts (k + 1) (by omega) (by rw [List.length_cons]; omega)
    rw [List.take_succ_cons, List.flatten_cons, ← machine.append] at drains
    obtain ⟨rest', _, drains'⟩ := (machine.feed_iff head).mp drains
    exact ⟨rest', t', drains'⟩

/-- A stream that is processed when it arrives at once is processed in chunks, with the same items,
exactly when every prefix at a cut is processed. -/
theorem feeds_iff (machine : Incremental poll feed) {chunks : List (List β)}
    (some_chunk : chunks ≠ []) (whole : Drains poll (feed s chunks.flatten) outs u) :
    (∃ last, Feeds poll feed s chunks outs last) ↔ ∀ k, 0 < k → k < chunks.length →
      ∃ outs' t, Drains poll (feed s (chunks.take k).flatten) outs' t := by
  constructor
  · rintro ⟨last, fed⟩ k pos lt
    exact machine.prefix_of_feeds fed pos (Nat.le_of_lt lt)
  · exact fun cuts => ⟨u, machine.feeds_of_prefix some_chunk whole cuts⟩

end Incremental

end Wire
