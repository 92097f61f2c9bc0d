import Aqua.Wire.Skeleton

/-! # Formats

A format says what a field looks like without saying how it is read: which values stand between two
positions of a buffer, and where a buffer may end inside a field that is read unchecked. A reader that
`Describes` relates to a format succeeds exactly where the format spans the buffer and aborts exactly
where the format is cut.
-/

namespace Wire

/-- The values between two positions, and the positions at which the buffer ends too early. -/
structure Format (β : Type) where
  Spans : List UInt8 → ℕ → β → ℕ → Prop
  Cut : List UInt8 → ℕ → Prop

namespace Format

variable {ε α β γ δ σ τ : Type}

/-- A cut is in the first part, or behind a first part that is met. -/
def bind (F : Format β) (G : β → Format γ) : Format γ where
  Spans buf pos c next := ∃ b mid, F.Spans buf pos b mid ∧ (G b).Spans buf mid c next
  Cut buf pos := F.Cut buf pos ∨ ∃ b mid, F.Spans buf pos b mid ∧ (G b).Cut buf mid

instance : Monad Format where
  pure b := ⟨fun _ pos b' next => b' = b ∧ next = pos, fun _ _ => False⟩
  bind := bind

/-- Nothing has this format. -/
def fail : Format β := ⟨fun _ _ _ _ => False, fun _ _ => False⟩

/-- A condition on what was read before. -/
def guard (p : Prop) : Format Unit := ⟨fun _ pos _ next => p ∧ next = pos, fun _ _ => False⟩

/-- A byte whose presence is not checked. -/
def byte : Format UInt8 where
  Spans buf pos b next := buf[pos]? = some b ∧ next = pos + 1
  Cut buf pos := buf.length ≤ pos

/-- A byte whose presence is checked. -/
def byteChecked : Format UInt8 := { byte with Cut := fun _ _ => False }

/-- A number of bytes whose presence is not checked. -/
def bytes (count : ℕ) : Format (List UInt8) where
  Spans buf pos content next :=
    pos + count ≤ buf.length ∧ content = (buf.drop pos).take count ∧ next = pos + count
  Cut buf pos := buf.length < pos + count

/-- A number of bytes whose presence is checked. -/
def bytesChecked (count : ℕ) : Format (List UInt8) := { bytes count with Cut := fun _ _ => False }

def u16 : Format UInt16 where
  Spans buf pos value next := ∃ high low, buf[pos]? = some high ∧ buf[pos + 1]? = some low ∧
    value = be16 high low ∧ next = pos + 2
  Cut buf pos := buf.length < pos + 2

def u32 : Format UInt32 where
  Spans buf pos value next := ∃ b₀ b₁ b₂ b₃, buf[pos]? = some b₀ ∧ buf[pos + 1]? = some b₁ ∧
    buf[pos + 2]? = some b₂ ∧ buf[pos + 3]? = some b₃ ∧ value = be32 b₀ b₁ b₂ b₃ ∧ next = pos + 4
  Cut buf pos := buf.length < pos + 4

/-- A condition on the value. -/
def such (F : Format β) (p : β → Prop) : Format β where
  Spans buf pos b next := F.Spans buf pos b next ∧ p b
  Cut := F.Cut

/-- A format that is tried only if the buffer holds `count` more bytes. -/
def atLeast (count : ℕ) (F : Format β) : Format β where
  Spans buf pos b next := pos + count ≤ buf.length ∧ F.Spans buf pos b next
  Cut buf pos := pos + count ≤ buf.length ∧ F.Cut buf pos

/-- A format without its value. -/
def ignore (F : Format β) : Format Unit where
  Spans buf pos _ next := ∃ b, F.Spans buf pos b next
  Cut := F.Cut

/-- Where the buffer is being read. -/
def position : Format ℕ := ⟨fun _ pos b next => b = pos ∧ next = pos, fun _ _ => False⟩

/-- A part that is there only sometimes. -/
def part (F : Format Unit) (present : Prop) [Decidable present] : Format Unit :=
  if present then F else pure ()

/-- Items one behind the other, each of which starts in front of `endPos`. -/
inductive Run (item : τ → Format τ) (endPos : ℕ) (buf : List UInt8) : τ → ℕ → τ → ℕ → Prop
  | refl (t : τ) (pos : ℕ) : Run item endPos buf t pos t pos
  | step {t mid u : τ} {pos next last : ℕ} (before : pos < endPos)
      (head : (item t).Spans buf pos mid next) (rest : Run item endPos buf mid next u last) :
      Run item endPos buf t pos u last

/-- Items that fill the space up to `endPos`. -/
def block (item : τ → Format τ) (endPos : ℕ) (t : τ) : Format τ where
  Spans buf pos u next := Run item endPos buf t pos u next ∧ next = endPos
  Cut buf pos := ∃ u mid, Run item endPos buf t pos u mid ∧ mid < endPos ∧ (item u).Cut buf mid

end Format

namespace Reader

variable {ε α β γ δ σ τ : Type}

/-- The reader succeeds where the format spans the buffer, with related values, and aborts where it
is cut. -/
structure Describes (r : Reader ε α) (F : Format β) (same : α → β → Prop) : Prop where
  sound : ∀ {buf pos a next}, r buf pos = .ok (a, next) → ∃ b, F.Spans buf pos b next ∧ same a b
  complete : ∀ {buf pos b next}, F.Spans buf pos b next → ∃ a, r buf pos = .ok (a, next) ∧ same a b
  cut : ∀ {buf pos}, r buf pos = .panic ↔ F.Cut buf pos

/-- A format whose value nothing depends on. -/
abbrev Meets (r : Reader ε α) (F : Format β) : Prop := Describes r F fun _ _ => True

namespace Describes

variable {r : Reader ε α} {F : Format β} {same : α → β → Prop}

protected theorem pure {a : α} {b : β} (related : same a b) :
    Describes (pure a : Reader ε α) (pure b) same where
  sound read := by
    cases read
    exact ⟨b, ⟨rfl, rfl⟩, related⟩
  complete spans := by
    obtain ⟨rfl, rfl⟩ := spans
    exact ⟨a, rfl, related⟩
  cut := iff_of_false (fun wrong => by cases wrong) id

theorem fail (e : ε) : Describes (fail e : Reader ε α) (Format.fail : Format β) same where
  sound read := by cases read
  complete spans := spans.elim
  cut := iff_of_false (fun wrong => by cases wrong) id

theorem bind {f : α → Reader ε γ} {G : β → Format δ} {same' : γ → δ → Prop}
    (head : Describes r F same) (tail : ∀ a b, same a b → Describes (f a) (G b) same') :
    Describes (r >>= f) (F >>= G) same' where
  sound read := by
    obtain ⟨a, mid, first, rest⟩ := bind_eq_ok_iff.mp read
    obtain ⟨b, spans, related⟩ := head.sound first
    obtain ⟨c, spans', related'⟩ := (tail a b related).sound rest
    exact ⟨c, ⟨b, mid, spans, spans'⟩, related'⟩
  complete spans := by
    obtain ⟨b, mid, spans, spans'⟩ := spans
    obtain ⟨a, first, related⟩ := head.complete spans
    obtain ⟨c, rest, related'⟩ := (tail a b related).complete spans'
    exact ⟨c, bind_eq_ok_iff.mpr ⟨a, mid, first, rest⟩, related'⟩
  cut {buf pos} := by
    rw [bind_apply, Outcome.bind_eq_panic_iff, head.cut, Prod.exists]
    refine or_congr Iff.rfl ⟨?_, ?_⟩
    · rintro ⟨a, mid, first, stuck⟩
      obtain ⟨b, spans, related⟩ := head.sound first
      exact ⟨b, mid, spans, (tail a b related).cut.mp stuck⟩
    · rintro ⟨b, mid, spans, cut⟩
      obtain ⟨a, first, related⟩ := head.complete spans
      exact ⟨a, mid, first, (tail a b related).cut.mpr cut⟩

theorem map {f : α → γ} {same' : γ → β → Prop} (describes : Describes r F same)
    (keeps : ∀ a b, same a b → same' (f a) b) : Describes (f <$> r) F same' where
  sound read := by
    obtain ⟨a, inner, rfl⟩ := map_eq_ok_iff.mp read
    obtain ⟨b, spans, related⟩ := describes.sound inner
    exact ⟨b, spans, keeps a b related⟩
  complete spans := by
    obtain ⟨a, read, related⟩ := describes.complete spans
    exact ⟨f a, map_eq_ok_iff.mpr ⟨a, read, rfl⟩, keeps _ _ related⟩
  cut {buf pos} := by
    rw [map_apply, Outcome.bind_eq_panic_iff, ← describes.cut]
    apply or_iff_left
    rintro ⟨_, _, wrong⟩
    cases wrong

/-- What is stored at the end needs nothing in the format. -/
theorem bind_pure {f : α → γ} {same' : γ → β → Prop} (describes : Describes r F same)
    (keeps : ∀ a b, same a b → same' (f a) b) :
    Describes (r >>= fun a => pure (f a)) F same' := by
  have mapped : (r >>= fun a => Pure.pure (f a)) = f <$> r := bind_pure_comp f r
  rw [mapped]
  exact describes.map keeps

/-- The value of the format is settled by what was read before. -/
theorem value {b : γ} {F : Format β} {same : α → γ → Prop}
    (describes : Describes r F fun a _ => same a b) : Describes r (F >>= fun _ => Pure.pure b) same where
  sound read := by
    obtain ⟨_, spans, related⟩ := describes.sound read
    exact ⟨b, ⟨_, _, spans, rfl, rfl⟩, related⟩
  complete spans := by
    obtain ⟨_, _, spans, rfl, rfl⟩ := spans
    exact describes.complete spans
  cut {buf pos} := by
    rw [describes.cut]
    refine (or_iff_left ?_).symm
    rintro ⟨_, _, _, wrong⟩
    exact wrong

theorem ite {c c' : Prop} [Decidable c] [Decidable c'] {r' : Reader ε α} {F' : Format β}
    (iff : c ↔ c') (yes : c → Describes r F same) (no : ¬ c → Describes r' F' same) :
    Describes (if c then r else r') (if c' then F else F') same := by
  by_cases holds : c
  · rw [if_pos holds, if_pos (iff.mp holds)]
    exact yes holds
  · rw [if_neg holds, if_neg (mt iff.mpr holds)]
    exact no holds

theorem ignore (describes : Describes r F same) : Meets r F.ignore where
  sound read := by
    obtain ⟨b, spans, _⟩ := describes.sound read
    exact ⟨(), ⟨b, spans⟩, trivial⟩
  complete spans := by
    obtain ⟨b, spans⟩ := spans
    obtain ⟨a, read, _⟩ := describes.complete spans
    exact ⟨a, read, trivial⟩
  cut := describes.cut

/-- A condition that related values satisfy is not tested. -/
theorem such {p : β → Prop} (describes : Describes r F same) (always : ∀ a b, same a b → p b) :
    Describes r (F.such p) same where
  sound read := by
    obtain ⟨b, spans, related⟩ := describes.sound read
    exact ⟨b, ⟨spans, always _ b related⟩, related⟩
  complete spans := describes.complete spans.left
  cut := describes.cut

/-- A condition that is tested on the value read. -/
theorem such_ite {p : β → Prop} {bad : α → Prop} [DecidablePred bad] {e : ε}
    (describes : Describes r F same) (tested : ∀ a b, same a b → (bad a ↔ ¬ p b)) :
    Describes (r >>= fun a => if bad a then Reader.fail e else pure a) (F.such p) same where
  sound read := by
    obtain ⟨a, mid, first, rest⟩ := bind_eq_ok_iff.mp read
    obtain ⟨b, spans, related⟩ := describes.sound first
    split at rest
    · cases rest
    · next good =>
      cases rest
      exact ⟨b, ⟨spans, not_not.mp (mt (tested _ b related).mpr good)⟩, related⟩
  complete spans := by
    obtain ⟨spans, holds⟩ := spans
    obtain ⟨a, first, related⟩ := describes.complete spans
    refine ⟨a, bind_eq_ok_iff.mpr ⟨a, _, first, ?_⟩, related⟩
    rw [if_neg fun bad => (tested a _ related).mp bad holds]
    rfl
  cut {buf pos} := by
    rw [bind_apply, Outcome.bind_eq_panic_iff, describes.cut]
    apply or_iff_left
    rintro ⟨⟨a, mid⟩, _, wrong⟩
    dsimp only at wrong
    split at wrong <;> cases wrong

theorem position : Describes (position : Reader ε ℕ) Format.position Eq where
  sound read := by
    cases read
    exact ⟨_, ⟨rfl, rfl⟩, rfl⟩
  complete spans := by
    obtain ⟨rfl, rfl⟩ := spans
    exact ⟨_, rfl, rfl⟩
  cut := iff_of_false (fun wrong => by cases wrong) id

/-- A part that is read if it is there and leaves a value alone otherwise. -/
theorem part {present : Prop} [Decidable present] {F : Format Unit} {r r' : Reader ε α}
    {c : Prop} [Decidable c] (iff : c ↔ present) {same : α → Unit → Prop}
    (there : c → Describes r F same) (absent : ¬ c → Describes r' (pure ()) same) :
    Describes (if c then r else r') (F.part present) same :=
  .ite iff there absent

/-- A reader behind a length test. -/
theorem require (e : ε) (count : ℕ) (describes : Describes r F same) :
    Describes (require e count >>= fun _ => r) (F.atLeast count) same := by
  have tested (buf : List UInt8) (pos : ℕ) : (Reader.require e count >>= fun _ => r) buf pos =
      if buf.length < pos + count then .err e else r buf pos := by
    simp only [bind_apply, Reader.require]
    split <;> rfl
  refine ⟨fun {buf pos a next} read => ?_, fun {buf pos b next} spans => ?_, fun {buf pos} => ?_⟩
  · rw [tested] at read
    split at read
    · cases read
    · next enough =>
      obtain ⟨b, spans, related⟩ := describes.sound read
      exact ⟨b, ⟨Nat.le_of_not_lt enough, spans⟩, related⟩
  · rw [tested, if_neg (Nat.not_lt.mpr spans.1)]
    exact describes.complete spans.2
  · rw [tested]
    split
    · next short => exact iff_of_false (fun wrong => by cases wrong) fun cut => Nat.not_lt.mpr cut.1 short
    · next enough => exact describes.cut.trans (and_iff_right (Nat.le_of_not_lt enough)).symm

/-- The reader looks at its position, the format does not. -/
theorem position_bind {f : ℕ → Reader ε γ} {G : Format δ} {same' : γ → δ → Prop}
    (tail : ∀ pos, Describes (f pos) G same') : Describes (Reader.position >>= f) G same' where
  sound {buf pos a next} read := (tail pos).sound read
  complete {buf pos b next} spans := by
    obtain ⟨a, read, related⟩ := (tail pos).complete spans
    exact ⟨a, read, related⟩
  cut {buf pos} := (tail pos).cut

theorem index : Describes (index : Reader ε UInt8) Format.byte Eq where
  sound read := ⟨_, index_eq_ok_iff.mp read, rfl⟩
  complete spans := ⟨_, index_eq_ok_iff.mpr spans, rfl⟩
  cut {buf pos} := by
    change _ ↔ buf.length ≤ pos
    rw [Reader.index, ← List.getElem?_eq_none_iff]
    cases buf[pos]? <;> simp

theorem indexOr (e : ε) : Describes (indexOr e) Format.byteChecked Eq where
  sound read := ⟨_, indexOr_eq_ok_iff.mp read, rfl⟩
  complete spans := ⟨_, indexOr_eq_ok_iff.mpr spans, rfl⟩
  cut {buf pos} := by
    rw [Reader.indexOr]
    refine iff_of_false ?_ id
    cases buf[pos]? <;> exact fun wrong => by cases wrong

theorem slice (count : ℕ) : Describes (slice count : Reader ε _) (Format.bytes count) Eq where
  sound read := ⟨_, slice_eq_ok_iff.mp read, rfl⟩
  complete spans := ⟨_, slice_eq_ok_iff.mpr spans, rfl⟩
  cut {buf pos} := by
    rw [Reader.slice]
    by_cases inside : pos + count ≤ buf.length
    · rw [if_pos inside]
      exact iff_of_false (fun wrong => by cases wrong) (Nat.not_lt.mpr inside)
    · rw [if_neg inside]
      exact iff_of_true rfl (Nat.lt_of_not_le inside)

theorem sliceOr (e : ε) (count : ℕ) :
    Describes (sliceOr e count) (Format.bytesChecked count) Eq where
  sound read := ⟨_, sliceOr_eq_ok_iff.mp read, rfl⟩
  complete spans := ⟨_, sliceOr_eq_ok_iff.mpr spans, rfl⟩
  cut {buf pos} := by
    rw [Reader.sliceOr]
    refine iff_of_false ?_ id
    split <;> exact fun wrong => by cases wrong

theorem u16 : Describes (u16 : Reader ε UInt16) Format.u16 Eq where
  sound read := ⟨_, u16_eq_ok_iff.mp read, rfl⟩
  complete spans := ⟨_, u16_eq_ok_iff.mpr spans, rfl⟩
  cut {buf pos} := by
    change _ ↔ buf.length < pos + 2
    rw [Reader.u16, bind_apply, Outcome.bind_eq_panic_iff, index.cut, Prod.exists]
    simp only [bind_apply, Outcome.bind_eq_panic_iff, index.cut, Prod.exists, index_eq_ok_iff]
    constructor
    · rintro (none | ⟨high, _, ⟨there, rfl⟩, none | ⟨_, _, _, wrong⟩⟩)
      · exact Nat.lt_add_right 1 (Nat.lt_succ_of_le none)
      · exact Nat.lt_succ_of_le none
      · cases wrong
    · intro short
      by_cases first : pos < buf.length
      · refine .inr ⟨_, _, ⟨List.getElem?_eq_getElem first, rfl⟩, .inl ?_⟩
        exact Nat.le_of_lt_succ short
      · exact .inl (Nat.le_of_not_lt first)

theorem u32Slice (e : ε) : Describes (u32Slice e) Format.u32 Eq where
  sound read := ⟨_, u32Slice_eq_ok_iff.mp read, rfl⟩
  complete spans := ⟨_, u32Slice_eq_ok_iff.mpr spans, rfl⟩
  cut {buf pos} := by
    change _ ↔ buf.length < pos + 4
    rw [Reader.u32Slice, bind_apply, Outcome.bind_eq_panic_iff, (slice 4).cut]
    apply or_iff_left
    rintro ⟨⟨bytes, next⟩, _, wrong⟩
    dsimp only at wrong
    split at wrong <;> cases wrong

/-- A condition that holds. -/
theorem pure_guard {p : Prop} {a : α} {same : α → Unit → Prop} (holds : p) (related : same a ()) :
    Describes (pure a : Reader ε α) (Format.guard p) same where
  sound read := by
    cases read
    exact ⟨(), ⟨holds, rfl⟩, related⟩
  complete spans := by
    obtain ⟨_, rfl⟩ := spans
    exact ⟨a, rfl, related⟩
  cut := iff_of_false (fun wrong => by cases wrong) id

/-- A condition that does not hold. -/
theorem fail_guard {e : ε} {p : Prop} {same : α → Unit → Prop} (fails : ¬ p) :
    Describes (Reader.fail e : Reader ε α) (Format.guard p) same where
  sound read := by cases read
  complete spans := (fails spans.1).elim
  cut := iff_of_false (fun wrong => by cases wrong) id

/-- A condition that is tested. -/
theorem ite_guard {c p : Prop} [Decidable c] {e : ε} {a : α} {same : α → Unit → Prop} (iff : c ↔ p)
    (related : same a ()) :
    Describes (if c then pure a else Reader.fail e) (Format.guard p) same := by
  split
  · next holds => exact pure_guard (iff.mp holds) related
  · next fails => exact fail_guard (mt iff.mpr fails)

/-- A condition whose failure is tested. -/
theorem ite_not_guard {c p : Prop} [Decidable c] {e : ε} {a : α} {same : α → Unit → Prop}
    (iff : c ↔ ¬ p) (related : same a ()) :
    Describes (if c then Reader.fail e else pure a) (Format.guard p) same := by
  rw [← ite_not]
  exact ite_guard (not_congr iff |>.trans not_not) related

/-- A condition whose failure is tested in front of what follows. -/
theorem guard_bind {c p : Prop} [Decidable c] {e : ε} {G : Format β} (iff : c ↔ ¬ p)
    (tail : p → Describes r G same) :
    Describes (if c then Reader.fail e else r) (Format.guard p >>= fun _ => G) same := by
  by_cases holds : p
  · rw [if_neg (mt iff.mp (not_not.mpr holds))]
    exact (pure_guard holds trivial : Meets (pure () : Reader ε Unit) _).bind fun _ _ _ => tail holds
  · rw [if_pos (iff.mpr holds)]
    have stops : (Reader.fail e >>= fun _ : Unit => r) = Reader.fail e := rfl
    rw [← stops]
    exact (fail_guard holds : Describes (Reader.fail e) _ fun _ _ => False).bind
      fun _ _ wrong => wrong.elim

end Describes

section Blocks

variable {item : σ → Reader ε σ} {itemFormat : τ → Format τ} {same : σ → τ → Prop} {overrun : ε}
  {endPos : ℕ} {buf : List UInt8} {s t : σ} {u v : τ} {pos next : ℕ}

/-- One iteration of a loop that looks at its position behind the item. -/
def afterBody (overrun : ε) (item : σ → Reader ε σ) (endPos : ℕ) (s : σ) : Reader ε (σ ⊕ σ) := do
  let t ← item s
  let nextPos ← position
  if endPos = nextPos then pure (.inr t)
  else if endPos < nextPos then fail overrun
  else pure (.inl t)

/-- One more item of a block that has not reached its end. -/
private theorem block_step (before : pos < endPos) (fuel : ℕ) :
    Outcome.loop (loopBody (blockIteration overrun item endPos) buf) (fuel + 1) (s, pos) =
      item s buf pos >>= fun read =>
        Outcome.loop (loopBody (blockIteration overrun item endPos) buf) fuel read := by
  have body : loopBody (blockIteration overrun item endPos) buf (s, pos) =
      item s buf pos >>= fun read => .ok (.inl read) := by
    simp only [loopBody, blockIteration, bind_apply, position_apply, Outcome.ok_bind]
    rw [if_neg (by omega), if_neg (by omega), map_apply]
    cases item s buf pos <;> rfl
  rw [Outcome.loop, body]
  cases item s buf pos <;> rfl

private theorem loop_after_step {fuel : ℕ}
    (ends : Outcome.loop (loopBody (afterBody overrun item endPos) buf) fuel (s, pos) ≠ .diverge) :
    Outcome.loop (loopBody (afterBody overrun item endPos) buf) fuel (s, pos) =
      item s buf pos >>= fun read =>
        Outcome.loop (loopBody (blockIteration overrun item endPos) buf) fuel read := by
  induction fuel generalizing s pos with
  | zero => exact (ends rfl).elim
  | succ fuel ih =>
    have body : loopBody (afterBody overrun item endPos) buf (s, pos) = item s buf pos >>= fun read =>
        if endPos = read.2 then .ok (.inr read)
        else if endPos < read.2 then .err overrun
        else .ok (.inl read) := by
      simp only [loopBody, afterBody, bind_apply, position_apply, Outcome.ok_bind]
      cases item s buf pos with
      | ok read =>
        simp only [Outcome.ok_bind]
        split
        · rfl
        · split <;> rfl
      | _ => rfl
    rw [Outcome.loop, body] at ends ⊢
    generalize item s buf pos = first at ends ⊢
    cases first with
    | ok read =>
      obtain ⟨t, next⟩ := read
      simp only [Outcome.ok_bind] at ends ⊢
      rcases Nat.lt_trichotomy endPos next with behind | here | before
      · rw [if_neg (by omega), if_pos behind, Outcome.loop]
        simp only [loopBody, blockIteration, bind_apply, position_apply, Outcome.ok_bind]
        rw [if_neg (by omega), if_pos behind]
        rfl
      · rw [if_pos here, Outcome.loop_break (loopBody_eq_inr_iff.mpr
          (blockIteration_eq_inr_iff.mpr ⟨here.symm, rfl, rfl⟩))]
      · rw [if_neg (by omega), if_neg (by omega)] at ends ⊢
        rw [block_step before]
        exact ih ends
    | _ => rfl

/-- A loop that looks at its position behind each item is an item in front of a block. -/
theorem loop_after_eq (lawful : ∀ s, Lawful (item s)) (progress : ∀ s, Progresses (item s)) :
    loop (afterBody overrun item endPos) s = item s >>= block overrun item endPos := by
  funext buf pos
  refine loop_after_step ((Lawful.loop (fun s => ?_) (fun {s buf pos t next} step => ?_) s).halts buf pos)
  · exact (lawful s).bind fun _ => Lawful.position.bind fun _ => .ite (.pure _) (.ite (.fail _) (.pure _))
  · exact ((progress s).bind fun _ => Lawful.position.bind fun _ =>
      .ite (.pure _) (.ite (.fail _) (.pure _))) step

variable (describes : ∀ s u, same s u → Describes (item s) (itemFormat u) same)

include describes

/-- The items a block has read are a run of its format. -/
theorem run_of_visits (visits : Outcome.Visits (loopBody (blockIteration overrun item endPos) buf)
    (s, pos) (t, next)) (related : same s u) :
    ∃ v, Format.Run itemFormat endPos buf u pos v next ∧ same t v := by
  generalize start : (s, pos) = at_ at visits
  generalize stop : (t, next) = last at visits
  induction visits using Relation.ReflTransGen.head_induction_on generalizing s u pos with
  | refl =>
    cases start.trans stop.symm
    exact ⟨u, .refl u _, related⟩
  | @head _ mid step _ ih =>
    subst start
    obtain ⟨s', pos'⟩ := mid
    obtain ⟨before, read⟩ := blockIteration_eq_inl_iff.mp (loopBody_eq_inl_iff.mp step)
    obtain ⟨u', spans, related'⟩ := (describes s u related).sound read
    obtain ⟨v, run, reached⟩ := ih related' rfl
    exact ⟨v, .step before spans run, reached⟩

/-- Every run of the format is read. -/
theorem visits_of_run (overrun : ε) (run : Format.Run itemFormat endPos buf u pos v next) (related : same s u) :
    ∃ t, Outcome.Visits (loopBody (blockIteration overrun item endPos) buf) (s, pos) (t, next) ∧
      same t v := by
  induction run generalizing s with
  | refl u pos => exact ⟨s, .refl, related⟩
  | step before head _ ih =>
    obtain ⟨s', read, related'⟩ := (describes s _ related).complete head
    obtain ⟨t, visits, reached⟩ := ih related'
    exact ⟨t, .head (loopBody_eq_inl_iff.mpr (blockIteration_eq_inl_iff.mpr ⟨before, read⟩)) visits,
      reached⟩

theorem Describes.block (lawful : ∀ s, Lawful (item s)) (progress : ∀ s, Progresses (item s))
    (related : same s u) :
    Describes (block overrun item endPos s) (Format.block itemFormat endPos u) same := by
  have halts (buf : List UInt8) (pos : ℕ) :
      loop (blockIteration overrun item endPos) s buf pos ≠ .diverge :=
    (Lawful.block lawful progress endPos s).halts buf pos
  refine ⟨fun {buf pos t next} read => ?_, fun {buf pos v next} spans => ?_, fun {buf pos} => ?_⟩
  · obtain ⟨t', mid, visits, breaks⟩ := (loop_eq_ok_iff (halts buf pos)).mp read
    obtain ⟨rfl, rfl, rfl⟩ := blockIteration_eq_inr_iff.mp breaks
    obtain ⟨v, run, reached⟩ := run_of_visits describes visits related
    exact ⟨v, ⟨run, rfl⟩, reached⟩
  · obtain ⟨run, rfl⟩ := spans
    obtain ⟨t, visits, reached⟩ := visits_of_run describes overrun run related
    exact ⟨t, (loop_eq_ok_iff (halts buf pos)).mpr
      ⟨t, _, visits, blockIteration_eq_inr_iff.mpr ⟨rfl, rfl, rfl⟩⟩, reached⟩
  · rw [Reader.block, loop_eq_panic_iff (halts buf pos)]
    constructor
    · rintro ⟨t, mid, visits, stuck⟩
      obtain ⟨before, stuck⟩ := blockIteration_eq_panic_iff.mp stuck
      obtain ⟨v, run, reached⟩ := run_of_visits describes visits related
      exact ⟨v, mid, run, before, (describes t v reached).cut.mp stuck⟩
    · rintro ⟨v, mid, run, before, cut⟩
      obtain ⟨t, visits, reached⟩ := visits_of_run describes overrun run related
      exact ⟨t, mid, visits, blockIteration_eq_panic_iff.mpr
        ⟨before, (describes t v reached).cut.mpr cut⟩⟩

end Blocks

end Reader

end Wire
