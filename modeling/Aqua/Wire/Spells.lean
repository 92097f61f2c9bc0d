import Aqua.Wire.Sized
import Mathlib.Data.List.Perm.Basic

/-! # What a reader accepts

`Stands` says where bytes stand in a buffer. A reader spells a relation between values and bytes if it
returns a value exactly where bytes related to the value stand. For a block whose items spell parts, this
gives the lists of parts the block accepts: `Admitted` collects what the items demand of one part after the
other, and the lemmas about it turn demands on the state into demands on the list.
-/

namespace Wire

/-- The bytes stand in the buffer from one position to the other. -/
def Stands (buf : List UInt8) (pos : ℕ) (bytes : List UInt8) (next : ℕ) : Prop :=
  ∃ before after, buf = before ++ (bytes ++ after) ∧ pos = before.length ∧
    next = before.length + bytes.length

namespace Stands

variable {buf first rest bytes bytes' : List UInt8} {pos mid next : ℕ}

theorem nil (inside : pos ≤ buf.length) : Stands buf pos [] pos := by
  refine ⟨buf.take pos, buf.drop pos, (List.take_append_drop pos buf).symm, ?_, ?_⟩
  · rw [List.length_take, min_eq_left inside]
  · rw [List.length_take, min_eq_left inside, List.length_nil, Nat.add_zero]

theorem length (stands : Stands buf pos bytes next) : next = pos + bytes.length := by
  obtain ⟨before, after, rfl, rfl, rfl⟩ := stands
  rfl

theorem within (stands : Stands buf pos bytes next) : next ≤ buf.length := by
  obtain ⟨before, after, rfl, rfl, rfl⟩ := stands
  simp only [List.length_append]
  omega

/-- What stands at the start is followed by the rest of the buffer. -/
theorem start (stands : Stands buf 0 bytes next) : buf = bytes ++ buf.drop next := by
  obtain ⟨before, after, whole, empty, rfl⟩ := stands
  obtain rfl := List.length_eq_zero_iff.mp empty.symm
  rw [whole, List.nil_append, List.length_nil, Nat.zero_add, List.drop_left]

theorem append (head : Stands buf pos first mid) (tail : Stands buf mid rest next) :
    Stands buf pos (first ++ rest) next := by
  obtain ⟨before, after, whole, rfl, rfl⟩ := head
  obtain ⟨before', after', whole', same, rfl⟩ := tail
  have cut : before ++ first ++ after = before' ++ (rest ++ after') := by
    rw [List.append_assoc, ← whole, whole']
  obtain ⟨front, rfl⟩ := List.append_inj cut (by rw [List.length_append, same])
  refine ⟨before, after', ?_, rfl, ?_⟩
  · rw [whole, List.append_assoc]
  · rw [← same, List.length_append, Nat.add_assoc]

theorem split (whole : Stands buf pos (first ++ rest) next) :
    Stands buf pos first (pos + first.length) ∧ Stands buf (pos + first.length) rest next := by
  obtain ⟨before, after, rfl, rfl, rfl⟩ := whole
  refine ⟨⟨before, rest ++ after, ?_, rfl, rfl⟩, ⟨before ++ first, after, ?_, ?_, ?_⟩⟩
  · simp only [List.append_assoc]
  · simp only [List.append_assoc]
  · rw [List.length_append]
  · simp only [List.length_append, Nat.add_assoc]

theorem unique (left : Stands buf pos bytes next) (right : Stands buf pos bytes' next) :
    bytes = bytes' := by
  obtain ⟨before, after, whole, rfl, rfl⟩ := left
  obtain ⟨before', after', whole', same, length⟩ := right
  rw [whole] at whole'
  obtain ⟨rfl, behind⟩ := List.append_inj whole' same
  exact (List.append_inj behind (Nat.add_left_cancel length)).left

end Stands

namespace Reader

variable {ε α β σ π : Type}

theorem Reads.stands {r : Reader ε α} {buf bytes : List UInt8} {pos next : ℕ} {a : α}
    (read : Reads r bytes a) (stands : Stands buf pos bytes next) : r buf pos = .ok (a, next) := by
  obtain ⟨before, after, rfl, rfl, rfl⟩ := stands
  exact read before after

/-- The reader returns a value exactly where bytes related to the value stand. -/
structure Spells (r : Reader ε α) (W : α → List UInt8 → Prop) : Prop where
  reads : ∀ {a bytes}, W a bytes → Reads r bytes a
  sound : ∀ {buf pos a next}, r buf pos = .ok (a, next) → pos ≤ buf.length →
    ∃ bytes, W a bytes ∧ Stands buf pos bytes next

namespace Spells

variable {r : Reader ε α} {W V : α → List UInt8 → Prop}

theorem eq_ok_iff (spells : Spells r W) {buf : List UInt8} {pos next : ℕ} {a : α}
    (inside : pos ≤ buf.length) :
    r buf pos = .ok (a, next) ↔ ∃ bytes, W a bytes ∧ Stands buf pos bytes next := by
  constructor
  · intro read
    exact spells.sound read inside
  · rintro ⟨bytes, related, stands⟩
    exact (spells.reads related).stands stands

theorem congr (spells : Spells r W) (same : ∀ a bytes, W a bytes ↔ V a bytes) : Spells r V where
  reads related := spells.reads ((same _ _).mpr related)
  sound read inside := by
    obtain ⟨bytes, related, stands⟩ := spells.sound read inside
    exact ⟨bytes, (same _ _).mp related, stands⟩

protected theorem pure (a : α) : Spells (pure a : Reader ε α) fun b bytes => b = a ∧ bytes = [] where
  reads related := by
    obtain ⟨rfl, rfl⟩ := related
    exact Reads.pure _
  sound read inside := by
    cases read
    exact ⟨[], ⟨rfl, rfl⟩, .nil inside⟩

theorem fail (e : ε) : Spells (fail e : Reader ε α) fun _ _ => False where
  reads := False.elim
  sound read _ := by cases read

theorem map {g : α → β} (spells : Spells r W) :
    Spells (g <$> r) fun b bytes => ∃ a, g a = b ∧ W a bytes where
  reads related := by
    obtain ⟨a, rfl, related⟩ := related
    exact (spells.reads related).map
  sound read inside := by
    obtain ⟨a, inner, rfl⟩ := map_eq_ok_iff.mp read
    obtain ⟨bytes, related, stands⟩ := spells.sound inner inside
    exact ⟨bytes, ⟨a, rfl, related⟩, stands⟩

theorem bind {f : α → Reader ε β} {U : α → β → List UInt8 → Prop} (head : Spells r W)
    (tail : ∀ a, Spells (f a) (U a)) :
    Spells (r >>= f) fun b bytes => ∃ a first rest, W a first ∧ U a b rest ∧ bytes = first ++ rest where
  reads related := by
    obtain ⟨a, first, rest, related, related', rfl⟩ := related
    exact (head.reads related).bind ((tail a).reads related')
  sound read inside := by
    obtain ⟨a, mid, inner, behind⟩ := bind_eq_ok_iff.mp read
    obtain ⟨first, related, stands⟩ := head.sound inner inside
    obtain ⟨rest, related', stands'⟩ := (tail a).sound behind stands.within
    exact ⟨first ++ rest, ⟨a, first, rest, related, related', rfl⟩, stands.append stands'⟩

theorem ite {c : Prop} [Decidable c] {r' : Reader ε α} (yes : c → Spells r W) (no : ¬ c → Spells r' W) :
    Spells (if c then r else r') W := by
  split
  · next holds => exact yes holds
  · next fails => exact no fails

theorem index : Spells (index : Reader ε UInt8) fun byte bytes => bytes = [byte] where
  reads related := related ▸ Reads.index _
  sound {buf pos byte next} read _ := by
    obtain ⟨present, rfl⟩ := index_eq_ok_iff.mp read
    have inside := (List.getElem?_eq_some_iff.mp present).1
    refine ⟨[byte], rfl, buf.take pos, buf.drop (pos + 1), ?_, ?_, ?_⟩
    · rw [List.singleton_append, ← drop_eq_cons present, List.take_append_drop]
    · rw [List.length_take, min_eq_left inside.le]
    · rw [List.length_take, min_eq_left inside.le, List.length_singleton]

private theorem stands_take {buf : List UInt8} {pos count : ℕ} (inside : pos + count ≤ buf.length) :
    ((buf.drop pos).take count).length = count ∧
      Stands buf pos ((buf.drop pos).take count) (pos + count) := by
  have size : ((buf.drop pos).take count).length = count := by
    rw [List.length_take, List.length_drop]
    omega
  refine ⟨size, buf.take pos, (buf.drop pos).drop count, ?_, ?_, ?_⟩
  · rw [List.take_append_drop, List.take_append_drop]
  · rw [List.length_take]
    omega
  · rw [size, List.length_take]
    omega

theorem slice (count : ℕ) : Spells (slice count : Reader ε _) fun content bytes =>
    bytes = content ∧ content.length = count where
  reads related := by
    obtain ⟨rfl, rfl⟩ := related
    exact Reads.slice _
  sound read _ := by
    obtain ⟨inside, rfl, rfl⟩ := slice_eq_ok_iff.mp read
    obtain ⟨size, stands⟩ := stands_take inside
    exact ⟨_, ⟨rfl, size⟩, stands⟩

theorem sliceOr (e : ε) (count : ℕ) : Spells (sliceOr e count) fun content bytes =>
    bytes = content ∧ content.length = count where
  reads related := by
    obtain ⟨rfl, rfl⟩ := related
    exact Reads.sliceOr _ _
  sound read _ := by
    obtain ⟨inside, rfl, rfl⟩ := sliceOr_eq_ok_iff.mp read
    obtain ⟨size, stands⟩ := stands_take inside
    exact ⟨_, ⟨rfl, size⟩, stands⟩

private theorem be16Bytes_be16 (high low : UInt8) : be16Bytes (be16 high low) = [high, low] := by
  have := high.toNat_lt
  have := low.toNat_lt
  rw [be16Bytes, List.cons.injEq, List.cons.injEq]
  refine ⟨UInt8.toNat.inj ?_, UInt8.toNat.inj ?_, rfl⟩ <;>
    simp only [UInt16.toNat_toUInt8, UInt16.toNat_shiftRight, Nat.shiftRight_eq_div_pow, be16_toNat,
      UInt16.reduceToNat, Nat.reduceMod, Nat.reducePow] <;>
    omega

private theorem be32Bytes_be32 (b₀ b₁ b₂ b₃ : UInt8) : be32Bytes (be32 b₀ b₁ b₂ b₃) = [b₀, b₁, b₂, b₃] := by
  have := b₀.toNat_lt
  have := b₁.toNat_lt
  have := b₂.toNat_lt
  have := b₃.toNat_lt
  rw [be32Bytes, List.cons.injEq, List.cons.injEq, List.cons.injEq, List.cons.injEq]
  refine ⟨UInt8.toNat.inj ?_, UInt8.toNat.inj ?_, UInt8.toNat.inj ?_, UInt8.toNat.inj ?_, rfl⟩ <;>
    simp only [UInt32.toNat_toUInt8, UInt32.toNat_shiftRight, Nat.shiftRight_eq_div_pow, be32_toNat,
      UInt32.reduceToNat, Nat.reduceMod, Nat.reducePow] <;>
    omega

theorem u16 : Spells (u16 : Reader ε UInt16) fun value bytes => bytes = be16Bytes value where
  reads related := related ▸ Reads.u16 _
  sound read inside := by
    have pair : Spells (Reader.u16 : Reader ε UInt16) _ := index.bind fun _ => index.bind fun _ => .pure _
    obtain ⟨bytes, related, stands⟩ := pair.sound read inside
    obtain ⟨high, _, _, rfl, ⟨low, _, _, rfl, ⟨rfl, rfl⟩, rfl⟩, rfl⟩ := related
    exact ⟨_, (be16Bytes_be16 high low).symm, stands⟩

theorem u32Slice (e : ε) : Spells (u32Slice e) fun value bytes => bytes = be32Bytes value where
  reads related := related ▸ Reads.u32Slice e _
  sound {buf pos value next} read inside := by
    obtain ⟨bytes, mid, taken, rest⟩ := bind_eq_ok_iff.mp read
    obtain ⟨_, ⟨rfl, size⟩, stands⟩ := (slice 4).sound taken inside
    obtain ⟨b₀, b₁, b₂, b₃, rfl⟩ := List.length_eq_four.mp size
    cases rest
    exact ⟨_, (be32Bytes_be32 b₀ b₁ b₂ b₃).symm, stands⟩

end Spells

section Blocks

variable {admits : σ → π → Prop} {store : σ → π → σ}

/-- Parts that a state admits one after the other, each of them stored before the next is looked at. -/
def Admitted (admits : σ → π → Prop) (store : σ → π → σ) : σ → List π → Prop
  | _, [] => True
  | s, part :: rest => admits s part ∧ Admitted admits store (store s part) rest

theorem admitted_append {s : σ} {first rest : List π} :
    Admitted admits store s (first ++ rest) ↔
      Admitted admits store s first ∧ Admitted admits store (first.foldl store s) rest := by
  induction first generalizing s with
  | nil => exact iff_of_eq (true_and _).symm
  | cons part first ih => rw [List.cons_append, Admitted, Admitted, ih, and_assoc, List.foldl_cons]

theorem admitted_and {demand : σ → π → Prop} {s : σ} {parts : List π} :
    Admitted (fun s part => admits s part ∧ demand s part) store s parts ↔
      Admitted admits store s parts ∧ Admitted demand store s parts := by
  induction parts generalizing s with
  | nil => exact (and_self_iff ).symm
  | cons part rest ih => rw [Admitted, Admitted, Admitted, ih, and_and_and_comm]

/-- A demand on the part alone. -/
theorem admitted_part {demand : π → Prop} {s : σ} {parts : List π} :
    Admitted (fun _ part => demand part) store s parts ↔ ∀ part ∈ parts, demand part := by
  induction parts generalizing s with
  | nil => exact iff_of_true trivial (List.forall_mem_nil _)
  | cons part rest ih => rw [Admitted, ih, List.forall_mem_cons]

/-- A part is admitted if its place is free, and takes the places of the parts it clashes with. -/
theorem admitted_free {taken : σ → π → Prop} {clash : π → π → Prop}
    (takes : ∀ s part other, taken (store s part) other ↔ taken s other ∨ clash part other)
    {s : σ} {parts : List π} :
    Admitted (fun s part => ¬ taken s part) store s parts ↔
      (∀ part ∈ parts, ¬ taken s part) ∧ parts.Pairwise fun part other => ¬ clash part other := by
  induction parts generalizing s with
  | nil => exact iff_of_true trivial ⟨List.forall_mem_nil _, .nil⟩
  | cons part rest ih =>
    rw [Admitted, ih, List.forall_mem_cons, List.pairwise_cons]
    simp only [takes, not_or, forall_and, and_assoc]

theorem Items.of_admitted {item : σ → Reader ε σ} {wire : π → List UInt8}
    (reads : ∀ s part, admits s part → Reads (item s) (wire part) (store s part))
    (nonempty : ∀ part, wire part ≠ []) {s : σ} {parts : List π} (admitted : Admitted admits store s parts) :
    Items item s (parts.flatMap wire) (parts.foldl store s) := by
  induction parts generalizing s with
  | nil => exact .nil s
  | cons part rest ih => exact .cons (reads s part admitted.left) (nonempty part) (ih admitted.right)

/-- A block returns exactly what its items store of admitted parts that fill it. -/
theorem block_eq_ok_iff {overrun : ε} {item : σ → Reader ε σ} {wire : π → List UInt8}
    (spells : ∀ s, Spells (item s) fun t bytes =>
      ∃ part, admits s part ∧ t = store s part ∧ bytes = wire part)
    (nonempty : ∀ part, wire part ≠ []) {endPos : ℕ} {s t : σ} {buf : List UInt8} {pos next : ℕ}
    (inside : pos ≤ buf.length) :
    block overrun item endPos s buf pos = .ok (t, next) ↔ ∃ parts, Admitted admits store s parts ∧
      t = parts.foldl store s ∧ Stands buf pos (parts.flatMap wire) endPos ∧ next = endPos := by
  constructor
  · intro run
    obtain rfl := block_end run
    have kept := block_invariant (fun t next => ∃ parts, Admitted admits store s parts ∧
      t = parts.foldl store s ∧ Stands buf pos (parts.flatMap wire) next) ?_ ?_ run
    · obtain ⟨parts, admitted, stored, stands⟩ := kept
      exact ⟨parts, admitted, stored, stands, rfl⟩
    · rintro _ mid u after ⟨parts, admitted, rfl, stands⟩ step
      obtain ⟨_, ⟨part, fits, rfl, rfl⟩, stands'⟩ := (spells _).sound step stands.within
      refine ⟨parts ++ [part], admitted_append.mpr ⟨admitted, fits, trivial⟩, ?_, ?_⟩
      · rw [List.foldl_append, List.foldl_cons, List.foldl_nil]
      · rw [List.flatMap_append, List.flatMap_singleton]
        exact stands.append stands'
    · exact ⟨[], trivial, rfl, .nil inside⟩
  · rintro ⟨parts, admitted, rfl, ⟨before, after, rfl, rfl, rfl⟩, rfl⟩
    have reads (s : σ) (part : π) (fits : admits s part) : Reads (item s) (wire part) (store s part) :=
      (spells s).reads ⟨part, fits, rfl, rfl⟩
    exact block_reads (.of_admitted reads nonempty admitted) before after

/-- Parts that are told apart at the start of a buffer are told apart in a row. -/
theorem flatMap_injective {r : Reader ε π} {wire : π → List UInt8} {parts parts' : List π}
    (nonempty : ∀ part, wire part ≠ []) (reads : ∀ part ∈ parts, Reads r (wire part) part)
    (reads' : ∀ part ∈ parts', Reads r (wire part) part)
    (same : parts.flatMap wire = parts'.flatMap wire) : parts = parts' := by
  induction parts generalizing parts' with
  | nil =>
    cases parts' with
    | nil => rfl
    | cons part rest =>
      rw [List.flatMap_nil, List.flatMap_cons, List.nil_eq, List.append_eq_nil_iff] at same
      exact absurd same.left (nonempty part)
  | cons part rest ih =>
    cases parts' with
    | nil =>
      rw [List.flatMap_nil, List.flatMap_cons, List.append_eq_nil_iff] at same
      exact absurd same.left (nonempty part)
    | cons part' rest' =>
      obtain ⟨first, others⟩ := List.forall_mem_cons.mp reads
      obtain ⟨first', others'⟩ := List.forall_mem_cons.mp reads'
      rw [List.flatMap_cons, List.flatMap_cons] at same
      obtain ⟨_, behind, rfl⟩ := first.unique first' same
      rw [ih others others' behind]

/-- A field that a part either sets or leaves, and that no two parts set, is the one that is found. -/
theorem foldl_field {α : Type} {field : σ → Option α} {value : π → Option α}
    (sets : ∀ s part, field (store s part) = (value part).or (field s)) {s : σ} {parts : List π}
    (single : parts.Pairwise fun part other => value part = none ∨ value other = none) :
    field (parts.foldl store s) = (parts.findSome? value).or (field s) := by
  induction parts generalizing s with
  | nil => rfl
  | cons part rest ih =>
    obtain ⟨alone, single⟩ := List.pairwise_cons.mp single
    rw [List.foldl_cons, ih single, sets, List.findSome?_cons]
    cases found : value part with
    | none => rfl
    | some a =>
      have none_left : rest.findSome? value = none := by
        refine List.findSome?_eq_none_iff.mpr fun other member => ?_
        exact (alone other member).resolve_left (found ▸ Option.some_ne_none a)
      rw [none_left]
      rfl

/-- What is found does not depend on the order of parts of which no two have a value. -/
theorem findSome?_perm {α : Type} {value : π → Option α} {parts parts' : List π} (perm : parts.Perm parts')
    (single : parts.Pairwise fun part other => value part = none ∨ value other = none) :
    parts.findSome? value = parts'.findSome? value := by
  induction perm with
  | nil => rfl
  | cons part _ ih => rw [List.findSome?_cons, List.findSome?_cons, ih (List.pairwise_cons.mp single).right]
  | swap part other rest =>
    have either := (List.pairwise_cons.mp single).left part List.mem_cons_self
    simp only [List.findSome?_cons]
    rcases either with none_ | none_ <;> rw [none_]
  | trans left _ ihl ihr =>
    rw [ihl single]
    refine ihr ((left.pairwise_iff ?_).mp single)
    exact fun h => h.symm

end Blocks

end Reader

end Wire
