import ClaudeManager.Program.Containers

/-!
# Vectors that stay sorted

* `pairwise_insertSorted` — insertion keeps a vector sorted
* `insertSorted_perm` — a new value is put in once
* `takeWhile_eq_filter`, `dropWhile_eq_filter` — a partition point splits a sorted vector at a
  condition
* `Lists` — a sorted vector of exactly what a condition holds of
* `place`, `Lists.place` — a value is put in behind what comes before it
-/

namespace Containers

variable {α : Type} [DecidableEq α] {lt : α → α → Prop} [DecidableRel lt]

theorem pairwise_insertSorted (htrans : ∀ a b c, lt a b → lt b c → lt a c)
    (htotal : ∀ a b, lt a b ∨ a = b ∨ lt b a) {x : α} {l : List α} (h : l.Pairwise lt) :
    (insertSorted lt x l).Pairwise lt := by
  induction l with
  | nil => exact List.pairwise_singleton lt x
  | cons y l ih =>
    obtain ⟨hy, hl⟩ := List.pairwise_cons.mp h
    unfold insertSorted
    by_cases hlt : lt y x
    · rw [if_pos hlt, List.pairwise_cons]
      refine ⟨fun z hz => ?_, ih hl⟩
      rcases (mem_insertSorted lt).mp hz with rfl | hz
      · exact hlt
      · exact hy z hz
    · by_cases heq : y = x
      · rw [if_neg hlt, if_pos heq]
        exact h
      · rw [if_neg hlt, if_neg heq, List.pairwise_cons]
        have hxy : lt x y := ((htotal x y).resolve_right fun h' =>
          h'.elim (fun h' => heq h'.symm) hlt)
        refine ⟨fun z hz => ?_, h⟩
        rcases List.mem_cons.mp hz with rfl | hz
        · exact hxy
        · exact htrans _ _ _ hxy (hy z hz)

/-- A value that is not there yet is put in once. -/
theorem insertSorted_perm {x : α} {l : List α} (h : x ∉ l) :
    (insertSorted lt x l).Perm (x :: l) := by
  induction l with
  | nil => exact List.Perm.refl _
  | cons y l ih =>
    obtain ⟨hxy, hl⟩ := not_or.mp (List.mem_cons.not.mp h)
    unfold insertSorted
    split
    · exact ((ih hl).cons y).trans (List.Perm.swap x y l)
    · rw [if_neg (fun he => hxy he.symm)]

/-- A value that is there already is not put in again. -/
theorem insertSorted_of_mem (hirrefl : ∀ a, ¬ lt a a) {x : α}
    {l : List α} (h : l.Pairwise lt) (hx : x ∈ l) : insertSorted lt x l = l := by
  induction l with
  | nil => cases hx
  | cons y l ih =>
    obtain ⟨hy, hl⟩ := List.pairwise_cons.mp h
    unfold insertSorted
    rcases List.mem_cons.mp hx with rfl | hx
    · rw [if_neg (hirrefl x), if_pos rfl]
    · rw [if_pos (hy x hx), ih hl hx]

omit [DecidableEq α] [DecidableRel lt] in
/-- Where a condition holds of everything before what it holds of, the vector starts with what it
holds of. -/
theorem takeWhile_eq_filter {p : α → Bool} {l : List α}
    (h : l.Pairwise fun a b => p b = true → p a = true) : l.takeWhile p = l.filter p := by
  induction l with
  | nil => rfl
  | cons a l ih =>
    obtain ⟨ha, hl⟩ := List.pairwise_cons.mp h
    cases hp : p a with
    | true => rw [List.takeWhile_cons_of_pos hp, List.filter_cons_of_pos hp, ih hl]
    | false =>
      rw [List.takeWhile_cons_of_neg (by simp [hp]), List.filter_cons_of_neg (by simp [hp])]
      refine (List.filter_eq_nil_iff.mpr fun b hb hpb => ?_).symm
      rw [ha b hb hpb] at hp
      cases hp

omit [DecidableEq α] [DecidableRel lt] in
/-- Where it holds of everything before what it holds of, the rest of the vector is what it does
not hold of. -/
theorem dropWhile_eq_filter {p : α → Bool} {l : List α}
    (h : l.Pairwise fun a b => p b = true → p a = true) :
    l.dropWhile p = l.filter fun a => !p a := by
  induction l with
  | nil => rfl
  | cons a l ih =>
    obtain ⟨ha, hl⟩ := List.pairwise_cons.mp h
    cases hp : p a with
    | true => rw [List.dropWhile_cons_of_pos hp, List.filter_cons_of_neg (by simp [hp]), ih hl]
    | false =>
      rw [List.dropWhile_cons_of_neg (by simp [hp]), List.filter_cons_of_pos (by simp [hp])]
      refine congrArg (a :: ·) (List.filter_eq_self.mpr fun b hb => ?_).symm
      rw [Bool.not_eq_true', ← Bool.not_eq_true]
      intro hpb
      rw [ha b hb hpb] at hp
      cases hp

omit [DecidableEq α] [DecidableRel lt] in
/-- What comes after a partition point. -/
theorem drop_takeWhile {p : α → Bool} {l : List α} :
    l.drop (l.takeWhile p).length = l.dropWhile p := by
  have h := List.takeWhile_append_dropWhile (p := p) (l := l)
  calc l.drop (l.takeWhile p).length
      = (l.takeWhile p ++ l.dropWhile p).drop (l.takeWhile p).length := by rw [h]
    _ = l.dropWhile p := List.drop_left

/-! ## What a vector lists -/

/-- A sorted vector of exactly what `P` holds of. -/
structure Lists (lt : α → α → Prop) (v : List α) (P : α → Prop) : Prop where
  sorted : v.Pairwise lt
  mem_iff : ∀ x, x ∈ v ↔ P x

omit [DecidableEq α] [DecidableRel lt] in
theorem Lists.nil {P : α → Prop} (h : ∀ x, ¬ P x) : Lists lt [] P :=
  ⟨List.Pairwise.nil, fun x => iff_of_false List.not_mem_nil (h x)⟩

omit [DecidableEq α] [DecidableRel lt] in
theorem Lists.congr {v : List α} {P Q : α → Prop} (h : Lists lt v P) (hPQ : ∀ x, Q x ↔ P x) :
    Lists lt v Q :=
  ⟨h.sorted, fun x => (h.mem_iff x).trans (hPQ x).symm⟩

/-- Insertion adds one value to what is listed. -/
theorem Lists.insert {v : List α} {P Q : α → Prop} {x : α} (h : Lists lt v P)
    (htrans : ∀ a b c, lt a b → lt b c → lt a c) (htotal : ∀ a b, lt a b ∨ a = b ∨ lt b a)
    (hQ : ∀ y, Q y ↔ y = x ∨ P y) : Lists lt (insertSorted lt x v) Q :=
  ⟨pairwise_insertSorted htrans htotal h.sorted, fun y => by
    rw [mem_insertSorted, h.mem_iff, hQ]⟩

omit [DecidableEq α] [DecidableRel lt] in
/-- A value that comes after everything goes to the end. -/
theorem Lists.push {v : List α} {P Q : α → Prop} {x : α} (h : Lists lt v P)
    (hlast : ∀ y, P y → lt y x) (hQ : ∀ y, Q y ↔ y = x ∨ P y) : Lists lt (v ++ [x]) Q := by
  refine ⟨?_, fun y => ?_⟩
  · rw [List.pairwise_append]
    refine ⟨h.sorted, List.pairwise_singleton lt x, fun y hy z hz => ?_⟩
    exact List.mem_singleton.mp hz ▸ hlast y ((h.mem_iff y).mp hy)
  · rw [List.mem_append, List.mem_singleton, h.mem_iff, hQ, or_comm]

/-! ## Places -/

/-- `slice::partition_point`, in a vector that starts with what the condition holds of. -/
def partitionPoint (p : α → Bool) (v : List α) : Nat := (v.takeWhile p).length

/-- Put a value in behind what comes before it: at the end, or else where a search finds its place. -/
def place (before : α → Bool) (x : α) (v : List α) : List α :=
  if v.getLast?.all before then v ++ [x] else v.insertIdx (partitionPoint before v) x

omit [DecidableEq α] [DecidableRel lt] in
theorem insertIdx_split {x : α} {b : List α} : ∀ a : List α, (a ++ b).insertIdx a.length x = a ++ x :: b
  | [] => rfl
  | y :: a => by
    rw [List.cons_append, List.length_cons, List.insertIdx_succ_cons, insertIdx_split a, List.cons_append]

omit [DecidableEq α] [DecidableRel lt] in
/-- The value stands between what comes before it and what does not. -/
theorem place_eq {before : α → Bool} {x : α} {v : List α}
    (h : v.Pairwise fun a b => before b = true → before a = true) :
    place before x v = v.takeWhile before ++ x :: v.dropWhile before := by
  unfold place
  split
  · rename_i hlast
    have hall : ∀ y ∈ v, before y = true := by
      intro y hy
      cases hv : v.getLast? with
      | none =>
        rw [List.getLast?_eq_none_iff.mp hv] at hy
        cases hy
      | some z =>
        rw [hv] at hlast
        obtain ⟨init, rfl⟩ := List.getLast?_eq_some_iff.mp hv
        rcases List.mem_append.mp hy with hy | hy
        · exact (List.pairwise_append.mp h).2.2 y hy z (List.mem_singleton.mpr rfl) hlast
        · rw [List.mem_singleton.mp hy]
          exact hlast
    rw [List.takeWhile_eq_self_iff.mpr hall, List.dropWhile_eq_nil_iff.mpr hall]
  · calc v.insertIdx (v.takeWhile before).length x
        = (v.takeWhile before ++ v.dropWhile before).insertIdx (v.takeWhile before).length x := by
          rw [List.takeWhile_append_dropWhile]
      _ = v.takeWhile before ++ x :: v.dropWhile before := insertIdx_split _

omit [DecidableEq α] [DecidableRel lt] in
/-- One value is put in. -/
theorem place_perm {before : α → Bool} {x : α} {v : List α} : (place before x v).Perm (x :: v) := by
  unfold place
  split
  · exact List.perm_append_singleton x v
  · exact List.perm_insertIdx x v (List.takeWhile_sublist before).length_le

omit [DecidableEq α] in
/-- A value that compares with everything listed is put in its place. -/
theorem Lists.place {v : List α} {P Q : α → Prop} {x : α} (h : Lists lt v P)
    (htrans : ∀ a b c, lt a b → lt b c → lt a c) (hx : ∀ y, P y → lt y x ∨ lt x y)
    (hQ : ∀ y, Q y ↔ y = x ∨ P y) : Lists lt (place (fun y => decide (lt y x)) x v) Q := by
  have hsplit : v.Pairwise fun a b => decide (lt b x) = true → decide (lt a x) = true :=
    h.sorted.imp fun hab hb => decide_eq_true (htrans _ _ _ hab (of_decide_eq_true hb))
  have hv := List.takeWhile_append_dropWhile (p := fun y => decide (lt y x)) (l := v)
  rw [place_eq hsplit]
  refine ⟨?_, fun y => ?_⟩
  · have hsorted := h.sorted
    rw [← hv, List.pairwise_append] at hsorted
    obtain ⟨hfront, hrest, hacross⟩ := hsorted
    have hbefore : ∀ y ∈ v.takeWhile (fun y => decide (lt y x)), lt y x := fun y hy => by
      simpa using List.mem_takeWhile_imp (p := fun y => decide (lt y x)) hy
    have hafter : ∀ y ∈ v.dropWhile (fun y => decide (lt y x)), lt x y := by
      intro y hy
      rw [dropWhile_eq_filter hsplit, List.mem_filter] at hy
      exact (hx y ((h.mem_iff y).mp hy.1)).resolve_left (by simpa using hy.2)
    rw [List.pairwise_append, List.pairwise_cons]
    refine ⟨hfront, ⟨hafter, hrest⟩, fun y hy z hz => ?_⟩
    rcases List.mem_cons.mp hz with rfl | hz
    · exact hbefore y hy
    · exact hacross y hy z hz
  · rw [hQ, ← h.mem_iff]
    conv => rhs; rw [← hv]
    simp only [List.mem_append, List.mem_cons]
    tauto

end Containers
