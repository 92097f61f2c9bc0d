import Aqua.Wire.BigEndian

/-! # Skeletons of readers

A skeleton reads only the lengths of a format and steps over everything else. It `Follows`: wherever
the reader succeeds the skeleton succeeds too, ends at the same position, and returns what later
lengths depend on. The rules follow the structure of the reader.
-/

namespace Wire

namespace Reader

variable {ε α β γ δ : Type}

/-- Step over `count` bytes. -/
def skip (e : ε) (count : ℕ) : Reader ε Unit := (fun _ => ()) <$> sliceOr e count

/-- Step over bytes behind their two-byte length. -/
def skipPrefixed (e : ε) : Reader ε Unit := do
  let high ← indexOr e
  let low ← indexOr e
  skip e (be16 high low).toNat

/-- Wherever `r` succeeds, `skeleton` succeeds at the same position with a related value. -/
def Follows (r : Reader ε α) (skeleton : Reader ε β) (same : α → β → Prop) : Prop :=
  ∀ ⦃buf pos a next⦄, r buf pos = .ok (a, next) → ∃ b, skeleton buf pos = .ok (b, next) ∧ same a b

/-- A skeleton whose value nothing depends on. -/
abbrev Spans (r : Reader ε α) (skeleton : Reader ε Unit) : Prop :=
  Follows r skeleton fun _ _ => True

/-- A reader that reads nothing. -/
def Still (r : Reader ε α) : Prop := ∀ ⦃buf pos a next⦄, r buf pos = .ok (a, next) → next = pos

theorem Still.pure (a : α) : Still (pure a : Reader ε α) := by
  intro buf pos b next read
  cases read
  rfl

theorem Still.fail (e : ε) : Still (fail e : Reader ε α) := by
  intro buf pos a next read
  cases read

theorem Still.position : Still (position : Reader ε ℕ) := by
  intro buf pos b next read
  cases read
  rfl

theorem Still.bind {r : Reader ε α} {f : α → Reader ε β} (first : Still r)
    (rest : ∀ a, Still (f a)) : Still (r >>= f) := by
  intro buf pos b next read
  obtain ⟨a, mid, head, tail⟩ := bind_eq_ok_iff.mp read
  rw [rest a tail, first head]

theorem Still.ite {c : Prop} [Decidable c] {r r' : Reader ε α} (yes : Still r) (no : Still r') :
    Still (if c then r else r') := by
  split
  · exact yes
  · exact no

namespace Follows

variable {r : Reader ε α} {s : Reader ε β} {same : α → β → Prop} {same' : γ → δ → Prop}

protected theorem pure {a : α} {b : β} (related : same a b) :
    Follows (pure a : Reader ε α) (pure b) same := by
  intro buf pos a next read
  cases read
  exact ⟨b, rfl, related⟩

theorem fail (e : ε) : Follows (fail e : Reader ε α) s same := by
  intro buf pos a next read
  cases read

theorem bind {f : α → Reader ε γ} {g : β → Reader ε δ} (head : Follows r s same)
    (tail : ∀ a b, same a b → Follows (f a) (g b) same') : Follows (r >>= f) (s >>= g) same' := by
  intro buf pos c next read
  obtain ⟨a, mid, first, rest⟩ := bind_eq_ok_iff.mp read
  obtain ⟨b, first', related⟩ := head first
  obtain ⟨d, rest', related'⟩ := tail a b related rest
  exact ⟨d, bind_eq_ok_iff.mpr ⟨b, mid, first', rest'⟩, related'⟩

theorem map {f : α → γ} {same' : γ → β → Prop} (follows : Follows r s same)
    (keeps : ∀ a b, same a b → same' (f a) b) : Follows (f <$> r) s same' := by
  intro buf pos c next read
  obtain ⟨a, inner, rfl⟩ := map_eq_ok_iff.mp read
  obtain ⟨b, read', related⟩ := follows inner
  exact ⟨b, read', keeps a b related⟩

/-- What reads nothing at the end needs nothing in the skeleton. -/
theorem bind_still {f : α → Reader ε γ} {same' : γ → β → Prop} (head : Follows r s same)
    (still : ∀ a, Still (f a))
    (keeps : ∀ {a b buf pos c next}, same a b → f a buf pos = .ok (c, next) → same' c b) :
    Follows (r >>= f) s same' := by
  intro buf pos c next read
  obtain ⟨a, mid, first, rest⟩ := bind_eq_ok_iff.mp read
  obtain ⟨b, first', related⟩ := head first
  obtain rfl := still a rest
  exact ⟨b, first', keeps related rest⟩

/-- What reads nothing at the start needs nothing in the skeleton. -/
theorem still_bind {q : Reader ε α} {f : α → Reader ε γ} {t : Reader ε δ} (still : Still q)
    (tail : ∀ a, Follows (f a) t same') : Follows (q >>= f) t same' := by
  intro buf pos c next read
  obtain ⟨a, mid, first, rest⟩ := bind_eq_ok_iff.mp read
  obtain rfl := still first
  exact tail a rest

theorem ite {c c' : Prop} [Decidable c] [Decidable c'] {r' : Reader ε α} {s' : Reader ε β}
    (iff : c ↔ c') (yes : c → Follows r s same) (no : ¬ c → Follows r' s' same) :
    Follows (if c then r else r') (if c' then s else s') same := by
  by_cases holds : c
  · rw [if_pos holds, if_pos (iff.mp holds)]
    exact yes holds
  · rw [if_neg holds, if_neg (mt iff.mpr holds)]
    exact no holds

theorem still {s : Reader ε Unit} (reads_nothing : Still r) (empty : s = Pure.pure ()) :
    Follows r s fun _ _ => True := by
  intro buf pos a next read
  rw [empty, reads_nothing read]
  exact ⟨(), rfl, trivial⟩

theorem index (e : ε) : Follows index (indexOr e) Eq := by
  intro buf pos byte next read
  exact ⟨byte, indexOr_eq_ok_iff.mpr (index_eq_ok_iff.mp read), rfl⟩

end Follows

namespace Spans

variable {r : Reader ε α} {s : Reader ε Unit}

theorem bind {f : α → Reader ε γ} {g : Reader ε δ} {same : γ → δ → Prop} (head : Spans r s)
    (tail : ∀ a, Follows (f a) g same) : Follows (r >>= f) (s >>= fun _ => g) same :=
  Follows.bind head fun a _ _ => tail a

theorem bind_still {f : α → Reader ε γ} (head : Spans r s) (still : ∀ a, Still (f a)) :
    Spans (r >>= f) s :=
  Follows.bind_still head still fun _ _ => trivial

theorem map {f : α → γ} (spans : Spans r s) : Spans (f <$> r) s :=
  Follows.map spans fun _ _ _ => trivial

theorem slice (e : ε) (count : ℕ) : Spans (slice count) (skip e count) := by
  intro buf pos bytes next read
  obtain ⟨inside, _, rfl⟩ := slice_eq_ok_iff.mp read
  exact ⟨(), map_eq_ok_iff.mpr ⟨_, sliceOr_eq_ok_iff.mpr ⟨inside, rfl, rfl⟩, rfl⟩, trivial⟩

theorem sliceOr (e : ε) (count : ℕ) : Spans (sliceOr e count) (skip e count) := by
  intro buf pos bytes next read
  exact ⟨(), map_eq_ok_iff.mpr ⟨bytes, read, rfl⟩, trivial⟩

/-- Any reader that ends `count` bytes further inside the buffer. -/
theorem of_end {r : Reader ε α} (e : ε) {count : ℕ}
    (ends : ∀ ⦃buf pos a next⦄, r buf pos = .ok (a, next) → next = pos + count ∧ next ≤ buf.length) :
    Spans r (skip e count) := by
  intro buf pos a next read
  obtain ⟨rfl, inside⟩ := ends read
  exact ⟨(), map_eq_ok_iff.mpr ⟨_, sliceOr_eq_ok_iff.mpr ⟨inside, rfl, rfl⟩, rfl⟩, trivial⟩

theorem u16 (e : ε) : Spans Reader.u16 (skip e 2) :=
  of_end e fun _ _ _ _ read => ⟨u16_end read, (u16_progresses read).2⟩

/-- A two-byte length and that many bytes. -/
theorem prefixed (e : ε) {f : UInt16 → Reader ε α} (content : ∀ n, Spans (f n) (skip e n.toNat)) :
    Spans (Reader.u16 >>= f) (skipPrefixed e) := by
  intro buf pos a next read
  obtain ⟨n, mid, length, rest⟩ := bind_eq_ok_iff.mp read
  obtain ⟨high, low, first, second, rfl, rfl⟩ := u16_eq_ok_iff.mp length
  obtain ⟨_, skipped, _⟩ := content _ rest
  refine ⟨(), ?_, trivial⟩
  exact bind_eq_ok_iff.mpr ⟨high, _, indexOr_eq_ok_iff.mpr ⟨first, rfl⟩,
    bind_eq_ok_iff.mpr ⟨low, _, indexOr_eq_ok_iff.mpr ⟨second, rfl⟩, skipped⟩⟩

end Spans

end Reader

end Wire
