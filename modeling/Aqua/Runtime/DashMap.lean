import Mathlib.Data.List.AList
import Mathlib.Tactic.Common

/-! # Concurrent maps

A map with atomic operations, as an association list without repeated keys. It is iterated in the
order of its entries, which the operations say nothing about: `Reorders` relates maps that differ
in that order only.
-/

namespace Runtime

/-- A map whose operations are atomic. -/
abbrev DashMap (K V : Type) := AList fun _ : K => V

namespace DashMap

variable {K V : Type} [DecidableEq K]

def new : DashMap K V := ∅

def get (map : DashMap K V) (key : K) : Option V := map.lookup key

def insert (map : DashMap K V) (key : K) (value : V) : DashMap K V := AList.insert key value map

def remove (map : DashMap K V) (key : K) : DashMap K V := AList.erase key map

/-- The entries in the order of an iteration. -/
def iter (map : DashMap K V) : List (K × V) := map.entries.map fun entry => (entry.1, entry.2)

/-- `map.entry(key).or_default()`, changed in place. -/
def modify (map : DashMap K V) (key : K) (default : V) (change : V → V) : DashMap K V :=
  map.insert key (change ((map.get key).getD default))

@[simp] theorem get_new (key : K) : (new : DashMap K V).get key = none := AList.lookup_empty key

@[simp] theorem get_insert_self (map : DashMap K V) (key : K) (value : V) :
    (map.insert key value).get key = some value := AList.lookup_insert map

theorem get_insert_of_ne {map : DashMap K V} {key key' : K} {value : V} (ne : key ≠ key') :
    (map.insert key' value).get key = map.get key := AList.lookup_insert_ne ne

theorem get_insert (map : DashMap K V) (key key' : K) (value : V) :
    (map.insert key' value).get key = if key = key' then some value else map.get key := by
  split
  · next same => rw [same, get_insert_self]
  · next ne => exact get_insert_of_ne ne

@[simp] theorem get_remove_self (map : DashMap K V) (key : K) : (map.remove key).get key = none :=
  AList.lookup_erase key map

theorem get_remove_of_ne {map : DashMap K V} {key key' : K} (ne : key ≠ key') :
    (map.remove key').get key = map.get key := AList.lookup_erase_ne ne

theorem get_remove (map : DashMap K V) (key key' : K) :
    (map.remove key').get key = if key = key' then none else map.get key := by
  split
  · next same => rw [same, get_remove_self]
  · next ne => exact get_remove_of_ne ne

theorem get_modify (map : DashMap K V) (key key' : K) (default : V) (change : V → V) :
    (map.modify key' default change).get key =
      if key = key' then some (change ((map.get key').getD default)) else map.get key :=
  get_insert map key key' _

theorem mem_iter_iff {map : DashMap K V} {key : K} {value : V} :
    (key, value) ∈ map.iter ↔ map.get key = some value := by
  rw [get, ← Option.mem_def, AList.mem_lookup_iff, iter, List.mem_map]
  constructor
  · rintro ⟨⟨key', value'⟩, member, same⟩
    cases same
    exact member
  · exact fun member => ⟨⟨key, value⟩, member, rfl⟩

omit [DecidableEq K] in
theorem iter_nodup (map : DashMap K V) : map.iter.Nodup := by
  refine List.Nodup.map ?_ map.nodupKeys.nodup
  rintro ⟨key, value⟩ ⟨key', value'⟩ same
  cases same
  rfl

/-- The entry of a key, if there is one, and those of the other keys. -/
theorem iter_perm (map : DashMap K V) (key : K) :
    map.iter.Perm ((map.get key).toList.map (Prod.mk key) ++ (map.remove key).iter) := by
  have absent : ∀ value, (key, value) ∉ (map.remove key).iter := by
    intro value member
    rw [mem_iter_iff, get_remove_self] at member
    cases member
  rw [List.perm_ext_iff_of_nodup map.iter_nodup]
  · rintro ⟨key', value⟩
    rw [mem_iter_iff, List.mem_append, mem_iter_iff, get_remove, List.mem_map]
    split
    · next same =>
      subst same
      simp
    · next ne =>
      simp [Ne.symm ne]
  · cases map.get key with
    | none => exact (map.remove key).iter_nodup
    | some value => exact List.nodup_cons.mpr ⟨absent value, (map.remove key).iter_nodup⟩

omit [DecidableEq K] in
/-- The same map, iterated in another order. -/
def Reorders (map map' : DashMap K V) : Prop := map.iter.Perm map'.iter

theorem Reorders.get_eq {map map' : DashMap K V} (reorders : Reorders map map') (key : K) :
    map'.get key = map.get key := by
  apply Option.ext
  intro value
  rw [← mem_iter_iff, ← mem_iter_iff]
  exact reorders.mem_iff.symm

end DashMap

end Runtime
