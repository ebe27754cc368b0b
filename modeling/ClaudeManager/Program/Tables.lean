import Mathlib

/-!
# Tables

Rows in a list, each found by its key.

* `find?_update` — what is found after the row of one key was changed
* `find?_of_mem` — where keys are unique, a row is found by its key
* `filter_map_keeps` — a change that leaves some rows alone leaves what is selected of them
* `eq_of_countP` — where a property has at most one row, it names that row
-/

namespace Program

variable {α κ : Type} [DecidableEq κ] {key : α → κ}

/-- A change of the rows of one key is seen under that key only. -/
theorem find?_update {f : α → α} {k : κ} (hf : ∀ a, key a = k → key (f a) = k) {l : List α} {j : κ} :
    (l.map fun a => if key a = k then f a else a).find? (fun a => key a = j) =
      if j = k then (l.find? fun a => key a = k).map f else l.find? fun a => key a = j := by
  have hkeep : ∀ a, (key (if key a = k then f a else a) = j) ↔ key a = j := by
    intro a
    by_cases ha : key a = k
    · rw [if_pos ha, hf a ha, ha]
    · rw [if_neg ha]
  have hfind : (l.map fun a => if key a = k then f a else a).find? (fun a => key a = j) =
      (l.find? fun a => key a = j).map fun a => if key a = k then f a else a := by
    simp only [List.find?_map, Function.comp_def, hkeep]
  rw [hfind]
  cases hm : l.find? fun a => key a = j with
  | none =>
    by_cases hj : j = k
    · subst hj
      rw [if_pos rfl, hm]
      rfl
    · rw [if_neg hj]
      rfl
  | some a =>
    have hkey : key a = j := of_decide_eq_true (List.find?_some (p := fun a => decide (key a = j)) hm)
    by_cases hj : j = k
    · subst hj
      rw [if_pos rfl, hm, Option.map_some, Option.map_some, if_pos hkey]
    · have hne : key a ≠ k := fun he => hj (hkey.symm.trans he)
      rw [if_neg hj, Option.map_some, if_neg hne]

/-- Where keys are unique, a row is found by its key. -/
theorem find?_of_mem {l : List α} (h : (l.map key).Nodup) {a : α} (ha : a ∈ l) :
    (l.find? fun b => key b = key a) = some a := by
  cases hfind : l.find? fun b => key b = key a with
  | none => exact absurd (decide_eq_true rfl) (List.find?_eq_none.mp hfind a ha)
  | some b =>
    have hkey : key b = key a :=
      of_decide_eq_true (List.find?_some (p := fun b => decide (key b = key a)) hfind)
    rw [List.inj_on_of_nodup_map h (List.mem_of_find?_eq_some hfind) ha hkey]

omit [DecidableEq κ] in
/-- A change that leaves the rows of a property alone leaves what is selected of them. -/
theorem filter_map_keeps {f : α → α} {p : α → Bool} (hp : ∀ a, p (f a) = p a)
    (hf : ∀ a, p a = true → f a = a) (l : List α) : (l.map f).filter p = l.filter p := by
  have hpred : p ∘ f = p := funext hp
  have hsame : ∀ a ∈ l.filter p, f a = a := fun a ha => hf a (List.mem_filter.mp ha).2
  rw [List.filter_map, hpred, List.map_congr_left hsame]
  exact List.map_id _

omit [DecidableEq κ] in
/-- Where a property has at most one row, it names that row. -/
theorem eq_of_countP {p : α → Bool} {l : List α} (h : l.countP p ≤ 1) {a b : α} (ha : a ∈ l)
    (hb : b ∈ l) (hpa : p a = true) (hpb : p b = true) : a = b := by
  rw [List.countP_eq_length_filter] at h
  have ha' : a ∈ l.filter p := List.mem_filter.mpr ⟨ha, hpa⟩
  have hb' : b ∈ l.filter p := List.mem_filter.mpr ⟨hb, hpb⟩
  cases hf : l.filter p with
  | nil =>
    rw [hf] at ha'
    cases ha'
  | cons c rest =>
    rw [hf, List.length_cons] at h
    have hrest : rest = [] := List.eq_nil_of_length_eq_zero (by omega)
    rw [hf, hrest, List.mem_singleton] at ha' hb'
    rw [ha', hb']

end Program
