import Aqua.Wire.Format

/-! # Where a format is refused

A reader returns an error exactly where its format neither spans the buffer nor is cut there. A format whose
first part takes its bytes is refused where the rest is, and a block is refused where one of its items is.
-/

namespace Wire

namespace Format

variable {β γ τ : Type} {F : Format β} {G : β → Format γ} {item : τ → Format τ} {buf : List UInt8}
  {pos mid next endPos : ℕ} {b : β} {c : γ} {t u : τ}

/-- Nothing is met, and nothing is missing. -/
structure Refuses (F : Format β) (buf : List UInt8) (pos : ℕ) : Prop where
  uncut : ¬ F.Cut buf pos
  unmet : ∀ b next, ¬ F.Spans buf pos b next

/-- The format spans the buffer in one way. -/
structure Takes (F : Format β) (buf : List UInt8) (pos : ℕ) (b : β) (next : ℕ) : Prop where
  uncut : ¬ F.Cut buf pos
  spans : F.Spans buf pos b next
  only : ∀ {b' next'}, F.Spans buf pos b' next' → b' = b ∧ next' = next

theorem Takes.not_refuses (takes : F.Takes buf pos b next) : ¬ F.Refuses buf pos :=
  fun refused => refused.unmet b next takes.spans

theorem Refuses.bind (refused : F.Refuses buf pos) : (F >>= G).Refuses buf pos where
  uncut := by
    rintro (cut | ⟨b, mid, spans, _⟩)
    · exact refused.uncut cut
    · exact refused.unmet b mid spans
  unmet := by
    rintro _ _ ⟨b, mid, spans, _⟩
    exact refused.unmet b mid spans

theorem Takes.bind (head : F.Takes buf pos b mid) (tail : (G b).Takes buf mid c next) :
    (F >>= G).Takes buf pos c next where
  uncut := by
    rintro (cut | ⟨_, _, spans, cut⟩)
    · exact head.uncut cut
    · obtain ⟨rfl, rfl⟩ := head.only spans
      exact tail.uncut cut
  spans := ⟨b, mid, head.spans, tail.spans⟩
  only := by
    rintro _ _ ⟨_, _, spans, rest⟩
    obtain ⟨rfl, rfl⟩ := head.only spans
    exact tail.only rest

/-- Behind a part that takes its bytes the rest decides. -/
theorem Takes.bind_refuses_iff (head : F.Takes buf pos b mid) :
    (F >>= G).Refuses buf pos ↔ (G b).Refuses buf mid := by
  constructor
  · intro refused
    exact ⟨fun cut => refused.uncut (.inr ⟨b, mid, head.spans, cut⟩),
      fun c next spans => refused.unmet c next ⟨b, mid, head.spans, spans⟩⟩
  · intro refused
    refine ⟨?_, ?_⟩
    · rintro (cut | ⟨_, _, spans, cut⟩)
      · exact head.uncut cut
      · obtain ⟨rfl, rfl⟩ := head.only spans
        exact refused.uncut cut
    · rintro _ _ ⟨_, _, spans, rest⟩
      obtain ⟨rfl, rfl⟩ := head.only spans
      exact refused.unmet _ _ rest

/-- A rest that is never refused leaves the decision to the first part. -/
theorem bind_refuses_iff (rest : ∀ b mid, ¬ (G b).Refuses buf mid) :
    (F >>= G).Refuses buf pos ↔ F.Refuses buf pos := by
  refine ⟨fun refused => ⟨fun cut => refused.uncut (.inl cut), fun b mid spans => rest b mid ?_⟩, .bind⟩
  exact ⟨fun cut => refused.uncut (.inr ⟨b, mid, spans, cut⟩),
    fun c next tail => refused.unmet c next ⟨b, mid, spans, tail⟩⟩

theorem Takes.pure : (pure b : Format β).Takes buf pos b pos where
  uncut := id
  spans := ⟨rfl, rfl⟩
  only := id

theorem Takes.position : Format.position.Takes buf pos pos pos where
  uncut := id
  spans := ⟨rfl, rfl⟩
  only := id

theorem Takes.guard {p : Prop} (holds : p) : (Format.guard p).Takes buf pos () pos where
  uncut := id
  spans := ⟨holds, rfl⟩
  only spans := ⟨rfl, spans.right⟩

/-- A byte that is there is met whether its presence is checked or not. -/
theorem Takes.checked {v : UInt8} (takes : byte.Takes buf pos v next) : byteChecked.Takes buf pos v next where
  uncut := id
  spans := takes.spans
  only := takes.only

theorem fail_refuses : (fail : Format β).Refuses buf pos where
  uncut := id
  unmet _ _ := id

theorem guard_refuses {p : Prop} (fails : ¬ p) : (Format.guard p).Refuses buf pos where
  uncut := id
  unmet _ _ spans := fails spans.left

theorem Takes.ignore (takes : F.Takes buf pos b next) : F.ignore.Takes buf pos () next where
  uncut := takes.uncut
  spans := ⟨b, takes.spans⟩
  only spans := ⟨rfl, (takes.only spans.choose_spec).right⟩

theorem ignore_refuses_iff : F.ignore.Refuses buf pos ↔ F.Refuses buf pos :=
  ⟨fun refused => ⟨refused.uncut, fun b next spans => refused.unmet () next ⟨b, spans⟩⟩,
    fun refused => ⟨refused.uncut, fun _ next spans => refused.unmet spans.choose next spans.choose_spec⟩⟩

theorem Takes.atLeast {count : ℕ} (enough : pos + count ≤ buf.length) (takes : F.Takes buf pos b next) :
    (F.atLeast count).Takes buf pos b next where
  uncut cut := takes.uncut cut.right
  spans := ⟨enough, takes.spans⟩
  only spans := takes.only spans.right

theorem Takes.such {p : β → Prop} (holds : p b) (takes : F.Takes buf pos b next) :
    (F.such p).Takes buf pos b next where
  uncut := takes.uncut
  spans := ⟨takes.spans, holds⟩
  only spans := takes.only spans.left

theorem Refuses.such {p : β → Prop} (refused : F.Refuses buf pos) : (F.such p).Refuses buf pos where
  uncut := refused.uncut
  unmet b next spans := refused.unmet b next spans.left

/-- A condition decides whether the format takes its bytes or is refused. -/
structure Decides (F : Format Unit) (buf : List UInt8) (pos : ℕ) (legal : Prop) (next : ℕ) : Prop where
  takes : legal → F.Takes buf pos () next
  refuses : ¬ legal → F.Refuses buf pos

theorem Decides.guard {p : Prop} : (Format.guard p).Decides buf pos p pos := ⟨.guard, guard_refuses⟩

theorem Takes.decides {F : Format Unit} (takes : F.Takes buf pos () next) : F.Decides buf pos True next :=
  ⟨fun _ => takes, fun wrong => absurd trivial wrong⟩

theorem Takes.bind_decides {G : β → Format Unit} {legal : Prop} (head : F.Takes buf pos b mid)
    (tail : (G b).Decides buf mid legal next) : (F >>= G).Decides buf pos legal next where
  takes holds := head.bind (tail.takes holds)
  refuses fails := head.bind_refuses_iff.mpr (tail.refuses fails)

theorem Decides.bind {F G : Format Unit} {p q : Prop} (head : F.Decides buf pos p mid)
    (tail : G.Decides buf mid q next) : (F >>= fun _ => G).Decides buf pos (p ∧ q) next where
  takes holds := (head.takes holds.left).bind (tail.takes holds.right)
  refuses fails := by
    by_cases first : p
    · exact (head.takes first).bind_refuses_iff.mpr (tail.refuses fun second => fails ⟨first, second⟩)
    · exact (head.refuses first).bind

/-- A block is over at its end. -/
theorem block_not_refuses : ¬ (block item endPos t).Refuses buf endPos :=
  fun refused => refused.unmet t endPos ⟨.refl t endPos, rfl⟩

/-- A block is refused with its first item. -/
theorem Refuses.block (before : pos < endPos) (refused : (item t).Refuses buf pos) :
    (block item endPos t).Refuses buf pos where
  uncut := by
    rintro ⟨u, mid, run, _, cut⟩
    cases run with
    | refl => exact refused.uncut cut
    | step _ head _ => exact refused.unmet _ _ head
  unmet := by
    rintro u next ⟨run, ends⟩
    cases run with
    | refl => exact absurd ends before.ne
    | step _ head _ => exact refused.unmet _ _ head

/-- Behind an item that takes its bytes the rest of the block decides. -/
theorem Takes.block_refuses_iff (before : pos < endPos) (takes : (item t).Takes buf pos u mid) :
    (block item endPos t).Refuses buf pos ↔ (block item endPos u).Refuses buf mid := by
  constructor
  · refine fun refused => ⟨?_, ?_⟩
    · rintro ⟨v, last, run, inside, cut⟩
      exact refused.uncut ⟨v, last, .step before takes.spans run, inside, cut⟩
    · rintro v last ⟨run, ends⟩
      exact refused.unmet v last ⟨.step before takes.spans run, ends⟩
  · refine fun refused => ⟨?_, ?_⟩
    · rintro ⟨v, last, run, inside, cut⟩
      cases run with
      | refl => exact takes.uncut cut
      | step _ head rest =>
        obtain ⟨rfl, rfl⟩ := takes.only head
        exact refused.uncut ⟨v, last, rest, inside, cut⟩
    · rintro v last ⟨run, ends⟩
      cases run with
      | refl => exact absurd ends before.ne
      | step _ head rest =>
        obtain ⟨rfl, rfl⟩ := takes.only head
        exact refused.unmet v last ⟨rest, ends⟩

end Format

namespace Reader.Describes

variable {ε α β : Type} {r : Reader ε α} {buf : List UInt8} {pos next : ℕ} {a : α} {e : ε}

/-- A reader returns an error where its format is refused. -/
theorem err_iff {F : Format β} {same : α → β → Prop} (describes : Describes r F same)
    (halts : r buf pos ≠ .diverge) : (∃ e, r buf pos = .err e) ↔ F.Refuses buf pos := by
  constructor
  · rintro ⟨e, error⟩
    refine ⟨fun cut => ?_, fun b next spans => ?_⟩
    · cases error.symm.trans (describes.cut.mpr cut)
    · obtain ⟨a, read, _⟩ := describes.complete spans
      cases error.symm.trans read
  · intro refused
    cases result : r buf pos with
    | ok read =>
      obtain ⟨b, spans, _⟩ := describes.sound result
      exact (refused.unmet b _ spans).elim
    | err e => exact ⟨e, rfl⟩
    | panic => exact (refused.uncut (describes.cut.mp result)).elim
    | diverge => exact (halts result).elim

/-- A format that holds the value read is met in the way it was read. -/
theorem takes {F : Format α} (describes : Describes r F Eq) (read : r buf pos = .ok (a, next)) :
    F.Takes buf pos a next where
  uncut cut := by cases read.symm.trans (describes.cut.mpr cut)
  spans := by
    obtain ⟨_, spans, rfl⟩ := describes.sound read
    exact spans
  only spans := by
    obtain ⟨_, read', rfl⟩ := describes.complete spans
    cases read.symm.trans read'
    exact ⟨rfl, rfl⟩

/-- So is a format without a value. -/
theorem takes_unit {F : Format Unit} (meets : Meets r F) (read : r buf pos = .ok (a, next)) :
    F.Takes buf pos () next where
  uncut cut := by cases read.symm.trans (meets.cut.mpr cut)
  spans := by
    obtain ⟨_, spans, _⟩ := meets.sound read
    exact spans
  only spans := by
    obtain ⟨_, read', _⟩ := meets.complete spans
    cases read.symm.trans read'
    exact ⟨rfl, rfl⟩

end Reader.Describes

end Wire
