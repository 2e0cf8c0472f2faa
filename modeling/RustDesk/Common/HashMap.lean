import Mathlib.Data.Finmap
import Mathlib.Data.List.AList
import Mathlib.Tactic.Common

/-!
# Hash maps

A hash map in no order, with the two operations that act on all its entries, and a map whose entries have an order,
with those that write where an entry stands. What each leaves of a map is said by its lookups.
-/

/-- `HashMap<K, V>`. -/
abbrev HashMap (K V : Type*) := Finmap fun _ : K => V

namespace HashMap

variable {K V : Type*}

/-- `HashMap::retain`. -/
def retain (map : HashMap K V) (p : K → V → Bool) : HashMap K V where
  entries := map.entries.filter fun entry => p entry.1 entry.2
  nodupKeys := Multiset.nodup_keys.mp <|
    Multiset.nodup_of_le (Multiset.map_le_map (Multiset.filter_le _ _)) (Multiset.nodup_keys.mpr map.nodupKeys)

variable [DecidableEq K]

/-- `HashMap::extend`. The entries of `other` stay where both have one. -/
def extend (map other : HashMap K V) : HashMap K V := other ∪ map

variable {map other : HashMap K V} {k : K} {v : V}

@[simp]
theorem lookup_retain (map : HashMap K V) (p : K → V → Bool) (k : K) :
    (map.retain p).lookup k = (map.lookup k).filter (p k) := by
  refine Option.ext fun v => ?_
  rw [← Option.mem_def, ← Option.mem_def, Finmap.mem_lookup_iff, Option.mem_filter_iff, Finmap.mem_lookup_iff]
  exact Multiset.mem_filter

@[simp]
theorem lookup_extend (map other : HashMap K V) (k : K) :
    (map.extend other).lookup k = (other.lookup k).or (map.lookup k) := by
  unfold extend
  by_cases hk : k ∈ other
  · obtain ⟨v, hv⟩ := Option.isSome_iff_exists.mp (Finmap.lookup_isSome.mpr hk)
    rw [Finmap.lookup_union_left hk, hv, Option.some_or]
  · rw [Finmap.lookup_union_right hk, Finmap.lookup_eq_none.mpr hk, Option.none_or]

end HashMap

namespace AList

variable {K V : Type*}

/-- `values_mut`: every value is written in its place. -/
def mapValues (map : AList fun _ : K => V) (f : K → V → V) : AList fun _ : K => V where
  entries := map.entries.map fun e => ⟨e.1, f e.1 e.2⟩
  nodupKeys := by
    have hkeys : (map.entries.map fun e => (⟨e.1, f e.1 e.2⟩ : Sigma fun _ : K => V)).keys = map.entries.keys :=
      List.map_map
    rw [List.NodupKeys, hkeys]
    exact map.nodupKeys

variable [DecidableEq K]

/-- What is there with a key is written. -/
def set (map : AList fun _ : K => V) (k : K) (v : V) : AList fun _ : K => V :=
  map.mapValues fun k' v' => if k' = k then v else v'

variable {map : AList fun _ : K => V} {k k' : K} {v v' : V}

@[simp]
theorem lookup_mapValues (map : AList fun _ : K => V) (f : K → V → V) (k : K) :
    (map.mapValues f).lookup k = (map.lookup k).map (f k) := by
  refine Option.ext fun v => ?_
  rw [← Option.mem_def, mem_lookup_iff, Option.map_eq_some_iff]
  constructor
  · intro h
    obtain ⟨e, he, heq⟩ := List.mem_map.mp h
    cases heq
    exact ⟨e.2, mem_lookup_iff.mpr he, rfl⟩
  · rintro ⟨v, hv, rfl⟩
    exact List.mem_map.mpr ⟨⟨k, v⟩, mem_lookup_iff.mp hv, rfl⟩

theorem lookup_set (map : AList fun _ : K => V) (h : map.lookup k = some v') : (map.set k v).lookup k = some v := by
  simp only [set, lookup_mapValues, h, Option.map_some, if_true]

theorem lookup_set_ne (map : AList fun _ : K => V) (v : V) (h : k' ≠ k) :
    (map.set k v).lookup k' = map.lookup k' := by
  rw [set, lookup_mapValues]
  simp only [h, if_false, Option.map_id']

/-- An entry after one was written. -/
theorem of_lookup_set (h : (map.set k v).lookup k' = some v') : v' = v ∨ map.lookup k' = some v' := by
  by_cases hk : k' = k
  · simp only [set, lookup_mapValues, hk, if_true] at h
    obtain ⟨-, -, rfl⟩ := Option.map_eq_some_iff.mp h
    exact .inl rfl
  · exact .inr ((lookup_set_ne map v hk).symm.trans h)

end AList
