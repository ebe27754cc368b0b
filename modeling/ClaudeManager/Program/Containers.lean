import Mathlib

/-!
# Ordered containers

Ordered maps and sets with text keys, and vectors that stay sorted:

* `upsert` — change the value under a key, from a default where there is none
* `insertSorted` — put a value in its place of a sorted vector, once

The laws are those by which data built from single insertions does not depend on their
order.
-/

namespace Containers

/-- An ordered map with text keys. -/
abbrev Map (α : Type) := Std.ExtTreeMap String α compare

/-- An ordered set of texts. -/
abbrev StrSet := Std.ExtTreeSet String compare

variable {α : Type}

/-! ## Sets -/

theorem mem_ofList_iff {l : List String} {s : String} :
    s ∈ (Std.ExtTreeSet.ofList l compare : StrSet) ↔ s ∈ l := by
  simp [Std.ExtTreeSet.mem_ofList]

/-- Some element of the set satisfies `p`. -/
def anyOf (s : StrSet) (p : String → Bool) : Bool := s.toList.any p

theorem anyOf_iff {s : StrSet} {p : String → Bool} :
    anyOf s p = true ↔ ∃ x ∈ s, p x = true := by
  simp [anyOf, List.any_eq_true, Std.ExtTreeSet.mem_toList]

theorem mem_insert_set {s : StrSet} {a b : String} : a ∈ s.insert b ↔ a = b ∨ a ∈ s := by
  rw [Std.ExtTreeSet.mem_insert, Std.LawfulEqCmp.compare_eq_iff_eq, eq_comm]

theorem mem_erase_set {s : StrSet} {a b : String} : a ∈ s.erase b ↔ a ≠ b ∧ a ∈ s := by
  rw [Std.ExtTreeSet.mem_erase, Ne, Std.LawfulEqCmp.compare_eq_iff_eq, eq_comm, Ne]

theorem exists_mem_of_not_isEmpty {s : StrSet} (h : ¬ s.isEmpty = true) : ∃ x, x ∈ s := by
  rw [← Std.ExtTreeSet.isEmpty_toList, List.isEmpty_iff] at h
  obtain ⟨x, hx⟩ := List.exists_mem_of_ne_nil _ h
  exact ⟨x, Std.ExtTreeSet.mem_toList.mp hx⟩

/-! ## Maps -/

/-- Some value of the map satisfies `p`. -/
def anyValue (m : Map α) (p : α → Bool) : Bool := m.toList.any fun e => p e.2

theorem anyValue_iff {m : Map α} {p : α → Bool} :
    anyValue m p = true ↔ ∃ (k : String) (v : α), m[k]? = some v ∧ p v = true := by
  unfold anyValue
  rw [List.any_eq_true]
  constructor
  · rintro ⟨⟨k, v⟩, hmem, hp⟩
    exact ⟨k, v, Std.ExtTreeMap.mem_toList_iff_getElem?_eq_some.mp hmem, hp⟩
  · rintro ⟨k, v, hk, hp⟩
    exact ⟨⟨k, v⟩, Std.ExtTreeMap.mem_toList_iff_getElem?_eq_some.mpr hk, hp⟩

/-- The first entry, in key order, that satisfies `p`. -/
def findEntry (m : Map α) (p : String → α → Bool) : Option (String × α) :=
  m.toList.find? fun e => p e.1 e.2

theorem findEntry_some {m : Map α} {p : String → α → Bool} {k : String} {v : α}
    (h : findEntry m p = some (k, v)) : m[k]? = some v ∧ p k v = true := by
  refine ⟨Std.ExtTreeMap.mem_toList_iff_getElem?_eq_some.mp (List.mem_of_find?_eq_some h), ?_⟩
  simpa using List.find?_some h

theorem findEntry_none {m : Map α} {p : String → α → Bool} :
    findEntry m p = none ↔ ∀ (k : String) (v : α), m[k]? = some v → p k v = false := by
  unfold findEntry
  rw [List.find?_eq_none]
  constructor
  · intro h k v hk
    simpa using h (k, v) (Std.ExtTreeMap.mem_toList_iff_getElem?_eq_some.mpr hk)
  · rintro h ⟨k, v⟩ hmem
    simpa using h k v (Std.ExtTreeMap.mem_toList_iff_getElem?_eq_some.mp hmem)

/-- The value under `key`, in a map that reads `default` where nothing is stored. -/
def entryD (m : Map α) (key : String) (default : α) : α := m[key]?.getD default

theorem getElem?_insert_map {m : Map α} {k k' : String} {v : α} :
    (m.insert k v)[k']? = if k' = k then some v else m[k']? := by
  rw [Std.ExtTreeMap.getElem?_insert]
  by_cases h : k = k'
  · simp [h]
  · have h' : ¬ k' = k := fun e => h e.symm
    simp [h, h']

theorem getElem?_erase_map {m : Map α} {k k' : String} :
    (m.erase k)[k']? = if k' = k then none else m[k']? := by
  rw [Std.ExtTreeMap.getElem?_erase]
  by_cases h : k = k'
  · simp [h]
  · have h' : ¬ k' = k := fun e => h e.symm
    simp [h, h']

theorem mem_toList_map {m : Map α} {k : String} {v : α} : (k, v) ∈ m.toList ↔ m[k]? = some v :=
  Std.ExtTreeMap.mem_toList_iff_getElem?_eq_some

theorem mem_keys_map {m : Map α} {k : String} : k ∈ m.keys ↔ ∃ v, m[k]? = some v := by
  rw [Std.ExtTreeMap.mem_keys, Std.ExtTreeMap.mem_iff_isSome_getElem?, Option.isSome_iff_exists]

/-- The keys of the entries that satisfy `p` are all different. -/
theorem nodup_filter_keys {m : Map α} {p : String × α → Bool} :
    ((m.toList.filter p).map Prod.fst).Nodup := by
  refine List.Nodup.sublist ?_ (Std.ExtTreeMap.nodup_keys (t := m))
  rw [← Std.ExtTreeMap.map_fst_toList_eq_keys]
  exact (List.filter_sublist).map _

/-- A map rebuilt from its entries, each value changed. -/
theorem getElem?_ofList_toList {β : Type} {m : Map α} {f : String → α → β} {k : String} :
    (Std.ExtTreeMap.ofList (m.toList.map fun e => (e.1, f e.1 e.2)) compare : Map β)[k]?
      = m[k]?.map (f k) := by
  cases h : m[k]? with
  | none =>
    refine Std.ExtTreeMap.getElem?_ofList_of_contains_eq_false ?_
    rw [List.map_map, ← Bool.not_eq_true, List.contains_iff_mem]
    intro hk
    obtain ⟨⟨k', v⟩, hmem, hkey⟩ := List.mem_map.mp hk
    simp only [Function.comp_apply] at hkey
    rw [← hkey, mem_toList_map.mp hmem] at h
    cases h
  | some v =>
    refine Std.ExtTreeMap.getElem?_ofList_of_mem (k := k) Std.ReflCmp.compare_self ?_ ?_
    · exact List.pairwise_map.mpr Std.ExtTreeMap.distinct_keys_toList
    · exact List.mem_map.mpr ⟨(k, v), mem_toList_map.mpr h, rfl⟩

/-! ## Updates in place -/

/-- Change the value under `key`, starting from `default` where nothing is stored. -/
def upsert (m : Map α) (key : String) (default : α) (f : α → α) : Map α :=
  m.insert key (f (entryD m key default))

theorem getElem?_upsert {m : Map α} {k k' : String} {d : α} {f : α → α} :
    (upsert m k d f)[k']? = if k' = k then some (f (entryD m k d)) else m[k']? :=
  getElem?_insert_map

theorem entryD_upsert {m : Map α} {k k' : String} {d : α} {f : α → α} :
    entryD (upsert m k d f) k' d = if k' = k then f (entryD m k d) else entryD m k' d := by
  unfold entryD
  rw [getElem?_upsert]
  split <;> simp [entryD]

/-- Updates that commute on values commute on maps, under any two keys. -/
theorem upsert_comm {m : Map α} {k k' : String} {d : α} {f g : α → α}
    (h : ∀ x, f (g x) = g (f x)) :
    upsert (upsert m k d f) k' d g = upsert (upsert m k' d g) k d f := by
  ext1 j
  rw [getElem?_upsert, getElem?_upsert, getElem?_upsert, getElem?_upsert, entryD_upsert,
    entryD_upsert]
  by_cases hk : k = k'
  · subst hk
    by_cases hj : j = k <;> simp [hj, h]
  · have hk' : ¬ k' = k := fun e => hk e.symm
    by_cases hj : j = k
    · simp [hj, hk]
    · by_cases hj' : j = k'
      · simp [hj', hk']
      · simp [hj, hj']

/-- An update is what it does to the value that is there. -/
theorem upsert_congr {m : Map α} {k : String} {d : α} {f g : α → α}
    (h : f (entryD m k d) = g (entryD m k d)) : upsert m k d f = upsert m k d g := by
  rw [upsert, upsert, h]

/-- Two updates of one value are one update. -/
theorem upsert_twice {m : Map α} {k : String} {d : α} {f g : α → α} :
    upsert (upsert m k d f) k d g = upsert m k d (g ∘ f) := by
  ext1 j
  rw [getElem?_upsert, getElem?_upsert, getElem?_upsert, entryD_upsert, if_pos rfl]
  by_cases h : j = k <;> simp [h]

/-! ## Sorted vectors -/

section Sorted

variable [DecidableEq α] (lt : α → α → Prop) [DecidableRel lt]

/-- Insert `x` before the first element that is not below it, unless that is `x` already. -/
def insertSorted (x : α) : List α → List α
  | [] => [x]
  | y :: ys =>
    if lt y x then y :: insertSorted x ys
    else if y = x then y :: ys
    else x :: y :: ys

theorem mem_insertSorted {x y : α} {l : List α} : y ∈ insertSorted lt x l ↔ y = x ∨ y ∈ l := by
  induction l with
  | nil => simp [insertSorted]
  | cons z l ih =>
    unfold insertSorted
    by_cases hlt : lt z x
    · simp only [if_pos hlt, List.mem_cons, ih]
      tauto
    · by_cases heq : z = x
      · rw [if_neg hlt, if_pos heq]
        simp [heq]
      · simp [hlt, heq]

end Sorted

end Containers
