import Aqua.Wire.Outcome
import Mathlib.Order.MinMax
import Mathlib.Order.Nat

/-! # Readers over a byte buffer

A `Reader` looks at a whole buffer from a position and returns a value with the position after
it. Reads that are not checked against the end of the buffer abort, as an index or a slice out of
range does; checked reads fail with an error value. `Lawful` collects what every field reader
owes its callers: it never moves back, never ends beyond the buffer, decides on nothing behind
the position it returns, and stops. `Reads` is the round trip in a form that composes: the reader
returns a value from exactly these bytes, whatever stands before and behind them.
-/

namespace Wire

/-- From a buffer and a position to a value and the next position. -/
abbrev Reader (ε α : Type) := List UInt8 → ℕ → Outcome ε (α × ℕ)

namespace Reader

variable {ε α β σ : Type}

/-- The next reader starts at the position the previous one returned. -/
def bind (r : Reader ε α) (f : α → Reader ε β) : Reader ε β :=
  fun buf pos => r buf pos >>= fun read => f read.1 buf read.2

instance : Monad (Reader ε) where
  pure a := fun _ pos => .ok (a, pos)
  bind := bind

instance : LawfulMonad (Reader ε) := LawfulMonad.mk' _
  (by
    intro α r
    funext buf pos
    change (r buf pos >>= fun read => _) = r buf pos
    cases r buf pos <;> rfl)
  (fun _ _ => rfl)
  (by
    intro α β γ r f g
    funext buf pos
    change ((r buf pos >>= fun read => _) >>= fun read => _) = r buf pos >>= fun read => _
    cases r buf pos <;> rfl)

@[simp] theorem pure_apply (a : α) (buf : List UInt8) (pos : ℕ) :
    (pure a : Reader ε α) buf pos = .ok (a, pos) := rfl

theorem bind_apply (r : Reader ε α) (f : α → Reader ε β) (buf : List UInt8) (pos : ℕ) :
    (r >>= f) buf pos = r buf pos >>= fun read => f read.1 buf read.2 := rfl

theorem map_apply (g : α → β) (r : Reader ε α) (buf : List UInt8) (pos : ℕ) :
    (g <$> r) buf pos = r buf pos >>= fun read => .ok (g read.1, read.2) := rfl

theorem bind_eq_ok_iff {r : Reader ε α} {f : α → Reader ε β} {buf : List UInt8} {pos next : ℕ}
    {b : β} : (r >>= f) buf pos = .ok (b, next) ↔
      ∃ a mid, r buf pos = .ok (a, mid) ∧ f a buf mid = .ok (b, next) := by
  rw [bind_apply, Outcome.bind_eq_ok_iff, Prod.exists]

theorem map_eq_ok_iff {g : α → β} {r : Reader ε α} {buf : List UInt8} {pos next : ℕ} {b : β} :
    (g <$> r) buf pos = .ok (b, next) ↔ ∃ a, r buf pos = .ok (a, next) ∧ g a = b := by
  rw [map_apply, Outcome.bind_eq_ok_iff, Prod.exists]
  simp [and_comm]

/-- The current position. -/
def position : Reader ε ℕ := fun _ pos => .ok (pos, pos)

/-- Fail with an error value. -/
def fail (e : ε) : Reader ε α := fun _ _ => .err e

/-- `Option::unwrap` of a value that does not come from the buffer. -/
def unwrap (value : Option α) : Reader ε α := fun _ pos => Outcome.unwrap (value.map (·, pos))

/-- `buf[pos]`, which aborts past the end of the buffer. -/
def index : Reader ε UInt8 := fun buf pos =>
  match buf[pos]? with
  | some byte => .ok (byte, pos + 1)
  | none => .panic

/-- `buf.get(pos).ok_or(e)`. -/
def indexOr (e : ε) : Reader ε UInt8 := fun buf pos =>
  match buf[pos]? with
  | some byte => .ok (byte, pos + 1)
  | none => .err e

/-- `&buf[pos..pos + count]`, which aborts past the end of the buffer. -/
def slice (count : ℕ) : Reader ε (List UInt8) := fun buf pos =>
  if pos + count ≤ buf.length then .ok ((buf.drop pos).take count, pos + count) else .panic

/-- A slice taken after its end was compared with the length of the buffer. -/
def sliceOr (e : ε) (count : ℕ) : Reader ε (List UInt8) := fun buf pos =>
  if pos + count ≤ buf.length then .ok ((buf.drop pos).take count, pos + count) else .err e

/-- Fail unless `count` more bytes are in the buffer, and read none of them. -/
def require (e : ε) (count : ℕ) : Reader ε Unit := fun buf pos =>
  if buf.length < pos + count then .err e else .ok ((), pos)

@[simp] theorem position_apply (buf : List UInt8) (pos : ℕ) :
    (position : Reader ε ℕ) buf pos = .ok (pos, pos) := rfl

@[simp] theorem fail_apply (e : ε) (buf : List UInt8) (pos : ℕ) :
    (fail e : Reader ε α) buf pos = .err e := rfl

@[simp] theorem unwrap_some (a : α) : (unwrap (some a) : Reader ε α) = pure a := rfl

theorem unwrap_eq_ok_iff {value : Option α} {buf : List UInt8} {pos next : ℕ} {a : α} :
    (unwrap value : Reader ε α) buf pos = .ok (a, next) ↔ value = some a ∧ next = pos := by
  cases value with
  | none => exact iff_of_false (fun wrong => by cases wrong) fun wrong => by cases wrong.left
  | some b =>
    constructor
    · intro read
      cases read
      exact ⟨rfl, rfl⟩
    · rintro ⟨⟨⟩, rfl⟩
      rfl

/-- One iteration of a reader loop as an iteration over the state and the position. -/
def loopBody (body : σ → Reader ε (σ ⊕ β)) (buf : List UInt8) (at_ : σ × ℕ) :
    Outcome ε ((σ × ℕ) ⊕ (β × ℕ)) :=
  body at_.1 buf at_.2 >>= fun read => .ok (read.1.map (·, read.2) (·, read.2))

/-- A loop of readers. Every iteration that continues reads at least one byte (see
`Progresses`), so the length of the buffer bounds the iterations. -/
def loop (body : σ → Reader ε (σ ⊕ β)) (s : σ) : Reader ε β := fun buf pos =>
  Outcome.loop (loopBody body buf) (buf.length + 1) (s, pos)

theorem loopBody_eq_inl_iff {body : σ → Reader ε (σ ⊕ β)} {buf : List UInt8} {s t : σ}
    {pos next : ℕ} : loopBody body buf (s, pos) = .ok (.inl (t, next)) ↔
      body s buf pos = .ok (.inl t, next) := by
  simp only [loopBody, Outcome.bind_eq_ok_iff, Prod.exists]
  constructor
  · rintro ⟨_ | _, _, read, same⟩
    · cases same
      exact read
    · cases same
  · intro read
    exact ⟨_, _, read, rfl⟩

theorem loopBody_eq_inr_iff {body : σ → Reader ε (σ ⊕ β)} {buf : List UInt8} {s : σ} {b : β}
    {pos next : ℕ} : loopBody body buf (s, pos) = .ok (.inr (b, next)) ↔
      body s buf pos = .ok (.inr b, next) := by
  simp only [loopBody, Outcome.bind_eq_ok_iff, Prod.exists]
  constructor
  · rintro ⟨_ | _, _, read, same⟩
    · cases same
    · cases same
      exact read
  · intro read
    exact ⟨_, _, read, rfl⟩

theorem loopBody_eq_panic_iff {body : σ → Reader ε (σ ⊕ β)} {buf : List UInt8} {s : σ} {pos : ℕ} :
    loopBody body buf (s, pos) = .panic ↔ body s buf pos = .panic := by
  rw [loopBody, Outcome.bind_eq_panic_iff]
  apply or_iff_left
  rintro ⟨_, _, wrong⟩
  cases wrong

/-- A loop of readers that stops returns what its body breaks with in a state the loop visits. -/
theorem loop_eq_ok_iff {body : σ → Reader ε (σ ⊕ β)} {buf : List UInt8} {s : σ} {b : β}
    {pos next : ℕ} (halts : loop body s buf pos ≠ .diverge) :
    loop body s buf pos = .ok (b, next) ↔ ∃ t mid,
      Outcome.Visits (loopBody body buf) (s, pos) (t, mid) ∧ body t buf mid = .ok (.inr b, next) := by
  rw [loop, Outcome.loop_eq_ok_iff halts, Prod.exists]
  simp only [loopBody_eq_inr_iff]

theorem loop_eq_panic_iff {body : σ → Reader ε (σ ⊕ β)} {buf : List UInt8} {s : σ} {pos : ℕ}
    (halts : loop body s buf pos ≠ .diverge) : loop body s buf pos = .panic ↔ ∃ t mid,
      Outcome.Visits (loopBody body buf) (s, pos) (t, mid) ∧ body t buf mid = .panic := by
  rw [loop, Outcome.loop_panic_iff halts, Prod.exists]
  simp only [loopBody_eq_panic_iff]

/-- One iteration of a block: the position is compared with the announced end, then an item is read. -/
def blockIteration (overrun : ε) (item : σ → Reader ε σ) (endPos : ℕ) (s : σ) : Reader ε (σ ⊕ σ) := do
  let nextPos ← position
  if nextPos = endPos then pure (.inr s)
  else if nextPos > endPos then fail overrun
  else .inl <$> item s

/-- Read items until the position reaches `endPos`; fail when an item runs past it. -/
def block (overrun : ε) (item : σ → Reader ε σ) (endPos : ℕ) : σ → Reader ε σ :=
  loop (blockIteration overrun item endPos)

/-- What a caller may rely on, for whichever buffer and position the reader is run. -/
structure Lawful (r : Reader ε α) : Prop where
  forward : ∀ {buf pos a next}, r buf pos = .ok (a, next) → pos ≤ next
  within : ∀ {buf pos a next}, r buf pos = .ok (a, next) → pos ≤ buf.length → next ≤ buf.length
  stable : ∀ {buf buf' pos a next}, r buf pos = .ok (a, next) →
    buf'.take next = buf.take next → r buf' pos = .ok (a, next)
  halts : ∀ buf pos, r buf pos ≠ .diverge

/-- A reader that consumes at least one byte of the buffer. -/
def Progresses (r : Reader ε α) : Prop :=
  ∀ ⦃buf pos a next⦄, r buf pos = .ok (a, next) → pos < next ∧ next ≤ buf.length

/-- Agreement up to a position is agreement up to every earlier one. -/
theorem take_agree {buf buf' : List UInt8} {near far : ℕ} (le : near ≤ far)
    (agree : buf'.take far = buf.take far) : buf'.take near = buf.take near := by
  have h := congrArg (List.take near) agree
  simpa only [List.take_take, min_eq_left le] using h

theorem getElem?_agree {buf buf' : List UInt8} {i far : ℕ} (lt : i < far)
    (agree : buf'.take far = buf.take far) : buf'[i]? = buf[i]? := by
  have h := congrArg (·[i]?) agree
  simpa only [List.getElem?_take, if_pos lt] using h

theorem length_agree {buf buf' : List UInt8} {far : ℕ}
    (agree : buf'.take far = buf.take far) : min far buf'.length = min far buf.length := by
  simpa only [List.length_take] using congrArg List.length agree

namespace Lawful

protected theorem pure (a : α) : Lawful (pure a : Reader ε α) where
  forward read := by cases read; exact le_rfl
  within read le := by cases read; exact le
  stable read _ := read
  halts _ _ := Outcome.ok_ne_diverge _

theorem fail (e : ε) : Lawful (fail e : Reader ε α) where
  forward read := by cases read
  within read _ := by cases read
  stable read _ := by cases read
  halts _ _ := Outcome.err_ne_diverge _

theorem position : Lawful (position : Reader ε ℕ) where
  forward read := by cases read; exact le_rfl
  within read le := by cases read; exact le
  stable read _ := read
  halts _ _ := Outcome.ok_ne_diverge _

theorem bind {r : Reader ε α} {f : α → Reader ε β} (first : Lawful r)
    (rest : ∀ a, Lawful (f a)) : Lawful (r >>= f) where
  forward read := by
    obtain ⟨a, mid, head, tail⟩ := bind_eq_ok_iff.mp read
    exact (first.forward head).trans ((rest a).forward tail)
  within read le := by
    obtain ⟨a, mid, head, tail⟩ := bind_eq_ok_iff.mp read
    exact (rest a).within tail (first.within head le)
  stable read agree := by
    obtain ⟨a, mid, head, tail⟩ := bind_eq_ok_iff.mp read
    have early := take_agree ((rest a).forward tail) agree
    exact bind_eq_ok_iff.mpr ⟨a, mid, first.stable head early, (rest a).stable tail agree⟩
  halts buf pos := by
    rw [bind_apply, ne_eq, Outcome.bind_eq_diverge_iff]
    rintro (stuck | ⟨⟨a, mid⟩, _, stuck⟩)
    · exact first.halts _ _ stuck
    · exact (rest a).halts _ _ stuck

theorem map {g : α → β} {r : Reader ε α} (lawful : Lawful r) : Lawful (g <$> r) := by
  rw [map_eq_pure_bind]
  exact lawful.bind fun _ => .pure _

theorem ite {c : Prop} [Decidable c] {r s : Reader ε α} (yes : Lawful r) (no : Lawful s) :
    Lawful (if c then r else s) := by
  split
  · exact yes
  · exact no

/-- A step that aborts. -/
theorem panic : Lawful (fun _ _ => .panic : Reader ε α) where
  forward read := by cases read
  within read _ := by cases read
  stable read _ := by cases read
  halts _ _ := Outcome.panic_ne_diverge

theorem unwrap (value : Option α) : Lawful (unwrap value : Reader ε α) := by
  cases value with
  | some a => exact .pure a
  | none => exact .panic

end Lawful

theorem index_eq_ok_iff {buf : List UInt8} {pos next : ℕ} {byte : UInt8} :
    (index : Reader ε UInt8) buf pos = .ok (byte, next) ↔ buf[pos]? = some byte ∧ next = pos + 1 := by
  unfold index
  cases buf[pos]? <;> simp [eq_comm]

theorem indexOr_eq_ok_iff {e : ε} {buf : List UInt8} {pos next : ℕ} {byte : UInt8} :
    indexOr e buf pos = .ok (byte, next) ↔ buf[pos]? = some byte ∧ next = pos + 1 := by
  unfold indexOr
  cases buf[pos]? <;> simp [eq_comm]

theorem slice_eq_ok_iff {count : ℕ} {buf : List UInt8} {pos next : ℕ} {bytes : List UInt8} :
    (slice count : Reader ε _) buf pos = .ok (bytes, next) ↔
      pos + count ≤ buf.length ∧ bytes = (buf.drop pos).take count ∧ next = pos + count := by
  unfold slice
  split <;> simp [*, eq_comm]

theorem sliceOr_eq_ok_iff {e : ε} {count : ℕ} {buf : List UInt8} {pos next : ℕ}
    {bytes : List UInt8} : sliceOr e count buf pos = .ok (bytes, next) ↔
      pos + count ≤ buf.length ∧ bytes = (buf.drop pos).take count ∧ next = pos + count := by
  unfold sliceOr
  split <;> simp [*, eq_comm]

theorem index_progresses : Progresses (index : Reader ε UInt8) := by
  intro buf pos byte next read
  obtain ⟨present, rfl⟩ := index_eq_ok_iff.mp read
  exact ⟨by omega, (List.getElem?_eq_some_iff.mp present).1⟩

theorem indexOr_progresses (e : ε) : Progresses (indexOr e) := by
  intro buf pos byte next read
  obtain ⟨present, rfl⟩ := indexOr_eq_ok_iff.mp read
  exact ⟨by omega, (List.getElem?_eq_some_iff.mp present).1⟩

/-- A reader that consumes bytes first consumes bytes whatever follows. -/
theorem Progresses.bind {r : Reader ε α} {f : α → Reader ε β} (first : Progresses r)
    (rest : ∀ a, Lawful (f a)) : Progresses (r >>= f) := by
  intro buf pos b next read
  obtain ⟨a, mid, head, tail⟩ := bind_eq_ok_iff.mp read
  obtain ⟨moved, inside⟩ := first head
  exact ⟨moved.trans_le ((rest a).forward tail), (rest a).within tail inside⟩

theorem Progresses.map {g : α → β} {r : Reader ε α} (progress : Progresses r) :
    Progresses (g <$> r) := by
  intro buf pos b next read
  obtain ⟨a, head, _⟩ := map_eq_ok_iff.mp read
  exact progress head

private theorem slice_agree {buf buf' : List UInt8} {pos count : ℕ}
    (inside : pos + count ≤ buf.length)
    (agree : buf'.take (pos + count) = buf.take (pos + count)) :
    pos + count ≤ buf'.length ∧ (buf'.drop pos).take count = (buf.drop pos).take count := by
  have lengths := length_agree agree
  have cut (l : List UInt8) : (l.drop pos).take count = (l.take (pos + count)).drop pos := by
    rw [List.drop_take, Nat.add_sub_cancel_left]
  exact ⟨by omega, by rw [cut, cut, agree]⟩

namespace Lawful

theorem index : Lawful (index : Reader ε UInt8) where
  forward read := (index_progresses read).1.le
  within read _ := (index_progresses read).2
  stable read agree := by
    obtain ⟨present, rfl⟩ := index_eq_ok_iff.mp read
    exact index_eq_ok_iff.mpr ⟨(getElem?_agree (by omega) agree).trans present, rfl⟩
  halts buf pos := by unfold Reader.index; split <;> simp

theorem indexOr (e : ε) : Lawful (indexOr e) where
  forward read := (indexOr_progresses e read).1.le
  within read _ := (indexOr_progresses e read).2
  stable read agree := by
    obtain ⟨present, rfl⟩ := indexOr_eq_ok_iff.mp read
    exact indexOr_eq_ok_iff.mpr ⟨(getElem?_agree (by omega) agree).trans present, rfl⟩
  halts buf pos := by unfold Reader.indexOr; split <;> simp

theorem slice (count : ℕ) : Lawful (slice count : Reader ε _) where
  forward read := by obtain ⟨_, _, rfl⟩ := slice_eq_ok_iff.mp read; omega
  within read _ := by obtain ⟨inside, _, rfl⟩ := slice_eq_ok_iff.mp read; exact inside
  stable read agree := by
    obtain ⟨inside, rfl, rfl⟩ := slice_eq_ok_iff.mp read
    obtain ⟨inside', same⟩ := slice_agree inside agree
    exact slice_eq_ok_iff.mpr ⟨inside', same.symm, rfl⟩
  halts buf pos := by unfold Reader.slice; split <;> simp

theorem sliceOr (e : ε) (count : ℕ) : Lawful (sliceOr e count) where
  forward read := by obtain ⟨_, _, rfl⟩ := sliceOr_eq_ok_iff.mp read; omega
  within read _ := by obtain ⟨inside, _, rfl⟩ := sliceOr_eq_ok_iff.mp read; exact inside
  stable read agree := by
    obtain ⟨inside, rfl, rfl⟩ := sliceOr_eq_ok_iff.mp read
    obtain ⟨inside', same⟩ := slice_agree inside agree
    exact sliceOr_eq_ok_iff.mpr ⟨inside', same.symm, rfl⟩
  halts buf pos := by unfold Reader.sliceOr; split <;> simp

/-- A length test is lawful in front of a reader that consumes at least as many bytes. -/
theorem require {e : ε} {count : ℕ} {r : Reader ε α} (lawful : Lawful r)
    (long : ∀ {buf pos a next}, r buf pos = .ok (a, next) → pos + count ≤ next) :
    Lawful (require e count >>= fun _ => r) := by
  have inner {buf pos a next} (read : (Reader.require e count >>= fun _ => r) buf pos = .ok (a, next)) :
      r buf pos = .ok (a, next) ∧ pos + count ≤ buf.length := by
    simp only [bind_apply, Reader.require] at read
    split at read
    · cases read
    · exact ⟨read, by omega⟩
  refine ⟨fun read => lawful.forward (inner read).1, fun read => lawful.within (inner read).1, ?_, ?_⟩
  · intro buf buf' pos a next read agree
    obtain ⟨read, enough⟩ := inner read
    have lengths := length_agree agree
    have := long read
    simp only [bind_apply, Reader.require, if_neg (show ¬ buf'.length < pos + count by omega)]
    exact lawful.stable read agree
  · intro buf pos
    simp only [bind_apply, Reader.require]
    split
    · exact Outcome.err_ne_diverge _
    · exact lawful.halts _ _

section Loop

variable {body : σ → Reader ε (σ ⊕ β)}

private theorem loop_forward (lawful : ∀ s, Lawful (body s)) {buf : List UInt8} {fuel : ℕ}
    {s : σ} {pos next : ℕ} {b : β}
    (run : Outcome.loop (loopBody body buf) fuel (s, pos) = .ok (b, next)) : pos ≤ next := by
  refine Outcome.loop_invariant (fun at_ => pos ≤ at_.2) (fun done => pos ≤ done.2) ?_ ?_ le_rfl run
  · intro ⟨s, mid⟩ ⟨t, after⟩ le step
    exact le.trans ((lawful s).forward (loopBody_eq_inl_iff.mp step))
  · intro ⟨s, mid⟩ ⟨b, after⟩ le step
    exact le.trans ((lawful s).forward (loopBody_eq_inr_iff.mp step))

private theorem loop_stable (lawful : ∀ s, Lawful (body s)) {buf buf' : List UInt8} {fuel : ℕ}
    {s : σ} {pos next : ℕ} {b : β} (agree : buf'.take next = buf.take next)
    (run : Outcome.loop (loopBody body buf) fuel (s, pos) = .ok (b, next)) :
    Outcome.loop (loopBody body buf') fuel (s, pos) = .ok (b, next) := by
  induction fuel generalizing s pos with
  | zero => cases run
  | succ fuel ih =>
    simp only [Outcome.loop] at run
    split at run
    · next after step =>
      obtain ⟨t, mid⟩ := after
      have early := take_agree (loop_forward lawful run) agree
      have step' := loopBody_eq_inl_iff.mpr ((lawful s).stable (loopBody_eq_inl_iff.mp step) early)
      rw [Outcome.loop_continue step']
      exact ih run
    · next done step =>
      cases run
      exact Outcome.loop_break
        (loopBody_eq_inr_iff.mpr ((lawful s).stable (loopBody_eq_inr_iff.mp step) agree)) fuel
    all_goals cases run

theorem loop_halts (lawful : ∀ s, Lawful (body s))
    (progress : ∀ {s buf pos t next}, body s buf pos = .ok (.inl t, next) →
      pos < next ∧ next ≤ buf.length) (s : σ) (buf : List UInt8) (pos : ℕ) :
    loop body s buf pos ≠ .diverge := by
  refine Outcome.loop_halts (fun at_ => buf.length - at_.2) ?_ ?_ (by dsimp only; omega)
  · intro ⟨s, pos⟩ stuck
    rw [loopBody, Outcome.bind_eq_diverge_iff] at stuck
    rcases stuck with stuck | ⟨_, _, stuck⟩
    · exact (lawful s).halts _ _ stuck
    · cases stuck
  · intro ⟨s, pos⟩ ⟨t, next⟩ step
    have := progress (loopBody_eq_inl_iff.mp step)
    dsimp only
    omega

/-- A loop of lawful readers is lawful when every iteration that continues consumes bytes. -/
theorem loop (lawful : ∀ s, Lawful (body s))
    (progress : ∀ {s buf pos t next}, body s buf pos = .ok (.inl t, next) →
      pos < next ∧ next ≤ buf.length) (s : σ) : Lawful (loop body s) where
  forward run := loop_forward lawful run
  within {buf pos b next} run le := by
    refine Outcome.loop_invariant (fun at_ => at_.2 ≤ buf.length) (fun done => done.2 ≤ buf.length)
      ?_ ?_ le run
    · intro ⟨s, mid⟩ ⟨t, after⟩ le step
      exact (lawful s).within (loopBody_eq_inl_iff.mp step) le
    · intro ⟨s, mid⟩ ⟨b, after⟩ le step
      exact (lawful s).within (loopBody_eq_inr_iff.mp step) le
  stable {buf buf' pos b next} run agree := by
    have moved := loop_stable lawful agree run
    -- the two buffers give different fuel, and both amounts suffice
    have ends : Outcome.loop (loopBody body buf') (buf.length + 1) (s, pos) ≠ .diverge := by
      rw [moved]
      exact Outcome.ok_ne_diverge _
    exact (Outcome.loop_fuel_irrelevant ends (loop_halts lawful progress s buf' pos)).symm.trans moved
  halts := loop_halts lawful progress s

end Loop

end Lawful

/-- What makes a loop of readers end: its iterations are lawful, and one that continues advances inside the
buffer. -/
structure Advances (body : σ → Reader ε (σ ⊕ β)) : Prop where
  lawful : ∀ s, Lawful (body s)
  advances : ∀ {s buf pos t next}, body s buf pos = .ok (.inl t, next) → pos < next ∧ next ≤ buf.length

theorem Advances.loop {body : σ → Reader ε (σ ⊕ β)} (advances : Advances body) (s : σ) :
    Lawful (loop body s) :=
  Lawful.loop advances.lawful advances.advances s

section Blocks

variable {overrun : ε} {item : σ → Reader ε σ} {endPos : ℕ} {s t : σ} {buf : List UInt8} {pos next : ℕ}

theorem blockIteration_eq_inl_iff : blockIteration overrun item endPos s buf pos = .ok (.inl t, next) ↔
    pos < endPos ∧ item s buf pos = .ok (t, next) := by
  simp only [blockIteration, bind_apply, position_apply, Outcome.ok_bind]
  rcases Nat.lt_trichotomy pos endPos with before | here | behind
  · rw [if_neg (by omega), if_neg (by omega), map_eq_ok_iff, and_iff_right before]
    simp
  · rw [if_pos here]
    exact iff_of_false (fun wrong => by cases wrong) (by omega)
  · rw [if_neg (by omega), if_pos behind]
    exact iff_of_false (fun wrong => by cases wrong) (by omega)

theorem blockIteration_eq_inr_iff : blockIteration overrun item endPos s buf pos = .ok (.inr t, next) ↔
    pos = endPos ∧ t = s ∧ next = pos := by
  simp only [blockIteration, bind_apply, position_apply, Outcome.ok_bind]
  rcases Nat.lt_trichotomy pos endPos with before | here | behind
  · rw [if_neg (by omega), if_neg (by omega), map_eq_ok_iff]
    refine iff_of_false ?_ (by omega)
    rintro ⟨_, _, wrong⟩
    cases wrong
  · rw [if_pos here]
    constructor
    · intro read
      cases read
      exact ⟨here, rfl, rfl⟩
    · rintro ⟨_, rfl, rfl⟩
      rfl
  · rw [if_neg (by omega), if_pos behind]
    exact iff_of_false (fun wrong => by cases wrong) (by omega)

theorem blockIteration_eq_panic_iff : blockIteration overrun item endPos s buf pos = .panic ↔
    pos < endPos ∧ item s buf pos = .panic := by
  simp only [blockIteration, bind_apply, position_apply, Outcome.ok_bind]
  rcases Nat.lt_trichotomy pos endPos with before | here | behind
  · rw [if_neg (by omega), if_neg (by omega), map_apply, Outcome.bind_eq_panic_iff,
      and_iff_right before]
    apply or_iff_left
    rintro ⟨_, _, wrong⟩
    cases wrong
  · rw [if_pos here]
    exact iff_of_false (fun wrong => by cases wrong) (by omega)
  · rw [if_neg (by omega), if_pos behind]
    exact iff_of_false (fun wrong => by cases wrong) (by omega)

theorem blockIteration_advances (lawful : ∀ s, Lawful (item s)) (progress : ∀ s, Progresses (item s)) (endPos : ℕ) :
    Advances (blockIteration overrun item endPos) where
  lawful s := Lawful.position.bind fun _ => .ite (.pure _) (.ite (.fail _) (lawful s).map)
  advances := fun step => progress _ (blockIteration_eq_inl_iff.mp step).2

theorem Lawful.block (lawful : ∀ s, Lawful (item s)) (progress : ∀ s, Progresses (item s)) (endPos : ℕ) (s : σ) :
    Lawful (block overrun item endPos s) :=
  (blockIteration_advances lawful progress endPos).loop s

/-- What the items of a block keep of the state and the position holds behind the block. -/
theorem block_invariant (inv : σ → ℕ → Prop)
    (keeps : ∀ {s pos t next}, inv s pos → item s buf pos = .ok (t, next) → inv t next)
    (holds : inv s pos) (run : block overrun item endPos s buf pos = .ok (t, next)) : inv t next := by
  refine Outcome.loop_invariant (fun reached => inv reached.1 reached.2) (fun done => inv done.1 done.2) ?_ ?_
    holds run
  · rintro ⟨s, pos⟩ ⟨u, after⟩ before step
    exact keeps before (blockIteration_eq_inl_iff.mp (loopBody_eq_inl_iff.mp step)).2
  · rintro ⟨s, pos⟩ ⟨u, after⟩ before step
    obtain ⟨_, rfl, rfl⟩ := blockIteration_eq_inr_iff.mp (loopBody_eq_inr_iff.mp step)
    exact before

/-- A block of items that is read at all ends at the announced position. -/
theorem block_end (run : block overrun item endPos s buf pos = .ok (t, next)) : next = endPos := by
  refine Outcome.loop_invariant (fun _ => True) (fun done => done.2 = endPos) (fun _ _ _ _ => trivial)
    ?_ trivial run
  rintro ⟨s, pos⟩ ⟨b, after⟩ _ step
  obtain ⟨here, _, rfl⟩ := blockIteration_eq_inr_iff.mp (loopBody_eq_inr_iff.mp step)
  exact here

end Blocks

/-- `r` reads `a` from the bytes `bytes`, wherever they stand in a buffer. -/
def Reads (r : Reader ε α) (bytes : List UInt8) (a : α) : Prop :=
  ∀ before after, r (before ++ (bytes ++ after)) before.length = .ok (a, before.length + bytes.length)

namespace Reads

protected theorem pure (a : α) : Reads (pure a : Reader ε α) [] a := fun _ _ => rfl

theorem bind {r : Reader ε α} {f : α → Reader ε β} {first rest : List UInt8} {a : α} {b : β}
    (head : Reads r first a) (tail : Reads (f a) rest b) : Reads (r >>= f) (first ++ rest) b := by
  intro before after
  refine bind_eq_ok_iff.mpr ⟨a, before.length + first.length, ?_, ?_⟩
  · simpa only [List.append_assoc] using head before (rest ++ after)
  · simpa only [List.append_assoc, List.length_append, Nat.add_assoc] using tail (before ++ first) after

/-- What follows reads nothing more. -/
theorem bind_nil {r : Reader ε α} {f : α → Reader ε β} {bytes : List UInt8} {a : α} {b : β}
    (head : Reads r bytes a) (tail : Reads (f a) [] b) : Reads (r >>= f) bytes b := by
  have whole := head.bind tail
  rw [List.append_nil] at whole
  exact whole

theorem map {g : α → β} {r : Reader ε α} {bytes : List UInt8} {a : α} (read : Reads r bytes a) :
    Reads (g <$> r) bytes (g a) :=
  fun before after => map_eq_ok_iff.mpr ⟨a, read before after, rfl⟩

theorem index (byte : UInt8) : Reads (index : Reader ε UInt8) [byte] byte := by
  intro before after
  exact index_eq_ok_iff.mpr ⟨by simp, rfl⟩

theorem slice (bytes : List UInt8) : Reads (slice bytes.length : Reader ε _) bytes bytes := by
  intro before after
  exact slice_eq_ok_iff.mpr ⟨by simp, by simp, rfl⟩

theorem sliceOr (e : ε) (bytes : List UInt8) : Reads (sliceOr e bytes.length) bytes bytes := by
  intro before after
  exact sliceOr_eq_ok_iff.mpr ⟨by simp, by simp, rfl⟩

/-- A length test passes in front of a reader that reads at least as many bytes. -/
theorem require {e : ε} {count : ℕ} {r : Reader ε α} {bytes : List UInt8} {a : α}
    (enough : count ≤ bytes.length) (read : Reads r bytes a) :
    Reads (require e count >>= fun _ => r) bytes a := by
  intro before after
  have long : ¬ (before ++ (bytes ++ after)).length < before.length + count := by
    simp only [List.length_append]
    omega
  simp only [bind_apply, Reader.require, if_neg long, Outcome.ok_bind]
  exact read before after

/-- At the start of a buffer. -/
theorem start {r : Reader ε α} {bytes : List UInt8} {a : α} (read : Reads r bytes a)
    (after : List UInt8) : r (bytes ++ after) 0 = .ok (a, bytes.length) := by
  simpa using read [] after

end Reads

/-- `bytes` is a sequence of non-empty items that takes the state from `s` to `t`. -/
inductive Items (item : σ → Reader ε σ) : σ → List UInt8 → σ → Prop
  | nil (s : σ) : Items item s [] s
  | cons {s mid t : σ} {head rest : List UInt8} (read : Reads (item s) head mid)
      (nonempty : head ≠ []) (tail : Items item mid rest t) : Items item s (head ++ rest) t

theorem Items.append {item : σ → Reader ε σ} {s mid t : σ} {first rest : List UInt8}
    (left : Items item s first mid) (right : Items item mid rest t) :
    Items item s (first ++ rest) t := by
  induction left with
  | nil _ => exact right
  | cons read nonempty _ ih =>
    rw [List.append_assoc]
    exact .cons read nonempty (ih right)

theorem Items.eq_of_nil {item : σ → Reader ε σ} {s t : σ} (items : Items item s [] t) : t = s := by
  generalize empty : ([] : List UInt8) = bytes at items
  cases items with
  | nil => rfl
  | cons read nonempty tail => exact absurd (List.append_eq_nil_iff.mp empty.symm).1 nonempty

theorem Items.single {item : σ → Reader ε σ} {s t : σ} {bytes : List UInt8}
    (read : Reads (item s) bytes t) (nonempty : bytes ≠ []) : Items item s bytes t := by
  simpa only [List.append_nil] using Items.cons read nonempty (.nil t)

/-- A part that may be missing, and leaves the state alone when it is. -/
theorem Items.option {item : σ → Reader ε σ} {value : Option α} {bytes : α → List UInt8}
    (store : Option α → σ)
    (present : ∀ a ∈ value, Reads (item (store none)) (bytes a) (store value) ∧ bytes a ≠ []) :
    Items item (store none) ((value.map bytes).getD []) (store value) := by
  cases value with
  | none => exact .nil _
  | some a =>
    obtain ⟨read, nonempty⟩ := present a rfl
    exact .single read nonempty

/-- A list of parts, each of which takes an accumulator one step further. -/
theorem Items.list {item : σ → Reader ε σ} {bytes : α → List UInt8} {list : List α}
    (store : β → σ) {step : β → α → β}
    (part : ∀ b, ∀ a ∈ list, Reads (item (store b)) (bytes a) (store (step b a)) ∧ bytes a ≠ [])
    (b : β) : Items item (store b) (list.flatMap bytes) (store (list.foldl step b)) := by
  induction list generalizing b with
  | nil => exact .nil _
  | cons a rest ih =>
    obtain ⟨read, nonempty⟩ := part b a List.mem_cons_self
    rw [List.flatMap_cons, List.foldl_cons]
    apply Items.cons read nonempty
    exact ih (fun b a member => part b a (List.mem_cons_of_mem _ member)) (step b a)

private theorem block_loop_reads {overrun : ε} {item : σ → Reader ε σ} {s t : σ}
    {bytes : List UInt8} (items : Items item s bytes t) (before after : List UInt8) {fuel : ℕ}
    (enough : bytes.length < fuel) :
    Outcome.loop (loopBody (fun s => do
        let nextPos ← position
        if nextPos = before.length + bytes.length then pure (.inr s)
        else if nextPos > before.length + bytes.length then fail overrun
        else .inl <$> item s) (before ++ (bytes ++ after))) fuel (s, before.length) =
      .ok (t, before.length + bytes.length) := by
  induction items generalizing before fuel with
  | nil s =>
    obtain ⟨fuel, rfl⟩ : ∃ k, fuel = k + 1 := ⟨fuel - 1, by omega⟩
    exact Outcome.loop_break (loopBody_eq_inr_iff.mpr (by simp [bind_apply])) fuel
  | @cons s mid t head rest read nonempty _ ih =>
    have := List.length_pos_iff.mpr nonempty
    simp only [List.length_append] at enough ⊢
    obtain ⟨fuel, rfl⟩ : ∃ k, fuel = k + 1 := ⟨fuel - 1, by omega⟩
    have step := read before (rest ++ after)
    refine (Outcome.loop_continue (loopBody_eq_inl_iff.mpr
      (show _ = Outcome.ok (Sum.inl mid, before.length + head.length) from ?_)) fuel).trans ?_
    · simp only [bind_apply, position_apply, Outcome.ok_bind]
      rw [if_neg (by omega), if_neg (by omega)]
      exact map_eq_ok_iff.mpr ⟨mid, by simpa only [List.append_assoc] using step, rfl⟩
    · simpa only [List.append_assoc, List.length_append, Nat.add_assoc] using
        ih (before ++ head) (by omega)

/-- A block reads the items whose lengths add up to its announced length. -/
theorem block_reads {overrun : ε} {item : σ → Reader ε σ} {s t : σ} {bytes : List UInt8}
    (items : Items item s bytes t) (before after : List UInt8) :
    block overrun item (before.length + bytes.length) s (before ++ (bytes ++ after)) before.length =
      .ok (t, before.length + bytes.length) :=
  block_loop_reads items before after (by simp only [List.length_append]; omega)

end Reader

end Wire
