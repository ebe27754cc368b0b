import Mathlib

/-!
# Stable sorting

* `sortByKey` — a sort that leaves values of one key in their order
* `eq_of_keys` — two sorted lists that have the same values of each key are one list
* `sortByKey_filter` — a selection may be made before the sort or after it
* `flatMap_single` — where one value alone gives anything, the whole gives what it does
-/

namespace Containers

variable {α κ : Type} [LinearOrder κ] {key : α → κ}

/-- `sort_by_key`. -/
def sortByKey (key : α → κ) (l : List α) : List α := l.mergeSort fun a b => decide (key a ≤ key b)

/-- The values of one key. -/
def ofKey (key : α → κ) (k : κ) (l : List α) : List α := l.filter fun a => decide (key a = k)

theorem sortByKey_perm {l : List α} : (sortByKey key l).Perm l := List.mergeSort_perm _ _

theorem mem_sortByKey {l : List α} {a : α} : a ∈ sortByKey key l ↔ a ∈ l := List.mem_mergeSort

theorem pairwise_sortByKey {l : List α} : (sortByKey key l).Pairwise fun a b => key a ≤ key b := by
  have h := @List.pairwise_mergeSort _ (fun a b => decide (key a ≤ key b)) ?_ ?_ l
  · exact h.imp of_decide_eq_true
  · intro a b c hab hbc
    exact decide_eq_true ((of_decide_eq_true hab).trans (of_decide_eq_true hbc))
  · intro a b
    rw [Bool.or_eq_true, decide_eq_true_eq, decide_eq_true_eq]
    exact le_total _ _

/-- The sort leaves the values of one key in their order. -/
theorem ofKey_sortByKey {k : κ} {l : List α} : ofKey key k (sortByKey key l) = ofKey key k l := by
  have hsorted : (ofKey key k l).Pairwise fun a b => decide (key a ≤ key b) = true := by
    refine List.Pairwise.imp_of_mem (R := fun _ _ => True) (fun {a b} ha hb _ => ?_)
      (List.pairwise_of_forall fun _ _ => trivial)
    have hka := of_decide_eq_true (List.mem_filter.mp ha).2
    have hkb := of_decide_eq_true (List.mem_filter.mp hb).2
    exact decide_eq_true (hka.trans hkb.symm).le
  have hsub : (ofKey key k l).Sublist (sortByKey key l) := by
    refine List.sublist_mergeSort ?_ ?_ hsorted List.filter_sublist
    · intro a b c hab hbc
      exact decide_eq_true ((of_decide_eq_true hab).trans (of_decide_eq_true hbc))
    · intro a b
      rw [Bool.or_eq_true, decide_eq_true_eq, decide_eq_true_eq]
      exact le_total _ _
  have hfilter := hsub.filter fun a => decide (key a = k)
  have hsame : (ofKey key k l).filter (fun a => decide (key a = k)) = ofKey key k l := by
    unfold ofKey
    rw [List.filter_filter]
    exact List.filter_congr fun a _ => Bool.and_self _
  rw [hsame] at hfilter
  refine (hfilter.eq_of_length ?_).symm
  exact (sortByKey_perm.filter fun a => decide (key a = k)).length_eq.symm

/-- Two sorted lists that have the same values of each key are one list. -/
theorem eq_of_keys : ∀ {l l' : List α}, l.Pairwise (fun a b => key a ≤ key b) →
    l'.Pairwise (fun a b => key a ≤ key b) → (∀ k, ofKey key k l = ofKey key k l') → l = l'
  | [], [], _, _, _ => rfl
  | [], b :: _, _, _, h => by
    have hb := h (key b)
    simp [ofKey] at hb
  | a :: _, [], _, _, h => by
    have ha := h (key a)
    simp [ofKey] at ha
  | a :: l, b :: l', hl, hl', h => by
    obtain ⟨ha, ht⟩ := List.pairwise_cons.mp hl
    obtain ⟨hb, ht'⟩ := List.pairwise_cons.mp hl'
    have hle : ∀ {c d : α} {m n : List α}, (∀ x ∈ n, key d ≤ key x) →
        ofKey key (key c) (c :: m) = ofKey key (key c) (d :: n) → key d ≤ key c := by
      intro c d m n hd heq
      have hc : c ∈ ofKey key (key c) (d :: n) := by
        rw [← heq]
        exact List.mem_filter.mpr ⟨List.mem_cons_self, decide_eq_true rfl⟩
      rcases List.mem_cons.mp (List.mem_filter.mp hc).1 with rfl | hc
      · exact le_refl _
      · exact hd c hc
    have hkey : key a = key b := le_antisymm (hle ha (h (key b)).symm) (hle hb (h (key a)))
    have hcons : ∀ k, (if key a = k then a :: ofKey key k l else ofKey key k l)
        = if key a = k then b :: ofKey key k l' else ofKey key k l' := by
      intro k
      have hk := h k
      unfold ofKey at hk ⊢
      simp only [List.filter_cons, decide_eq_true_eq, ← hkey] at hk
      exact hk
    have hab : a = b := by
      have hk := hcons (key a)
      rw [if_pos rfl, if_pos rfl] at hk
      exact (List.cons.inj hk).1
    subst hab
    refine congrArg (a :: ·) (eq_of_keys ht ht' fun k => ?_)
    have hk := hcons k
    by_cases hak : key a = k
    · rw [if_pos hak, if_pos hak] at hk
      exact (List.cons.inj hk).2
    · rw [if_neg hak, if_neg hak] at hk
      exact hk

/-- What is sorted and has the values of each key in their order is the sort. -/
theorem sortByKey_eq {l l' : List α} (h : l'.Pairwise fun a b => key a ≤ key b)
    (hkeys : ∀ k, ofKey key k l = ofKey key k l') : sortByKey key l = l' :=
  eq_of_keys pairwise_sortByKey h fun k => ofKey_sortByKey.trans (hkeys k)

/-- A selection may be made before the sort or after it. -/
theorem sortByKey_filter {l : List α} {p : α → Bool} :
    (sortByKey key l).filter p = sortByKey key (l.filter p) := by
  refine (sortByKey_eq (pairwise_sortByKey.filter p) fun k => ?_).symm
  have hcomm : ∀ m : List α, ofKey key k (m.filter p) = (ofKey key k m).filter p := by
    intro m
    unfold ofKey
    rw [List.filter_filter, List.filter_filter]
    exact List.filter_congr fun a _ => Bool.and_comm _ _
  rw [hcomm, hcomm, ofKey_sortByKey]

omit [LinearOrder κ] in
/-- Where one value alone gives anything, the whole gives what it does. -/
theorem flatMap_single {β : Type} {l : List α} {a : α} {f : α → List β} (hnodup : l.Nodup)
    (ha : a ∈ l) (hf : ∀ b ∈ l, b ≠ a → f b = []) : l.flatMap f = f a := by
  obtain ⟨before, rest, rfl⟩ := List.append_of_mem ha
  have hne := List.nodup_middle.mp hnodup
  have hnil : ∀ b ∈ before ++ rest, f b = [] := by
    intro b hb
    refine hf b ?_ fun h => (List.nodup_cons.mp hne).1 (h ▸ hb)
    exact List.perm_middle.symm.subset (List.mem_cons_of_mem a hb)
  rw [List.flatMap_append, List.flatMap_cons,
    List.flatMap_eq_nil_iff.mpr fun b hb => hnil b (List.mem_append_left rest hb),
    List.flatMap_eq_nil_iff.mpr fun b hb => hnil b (List.mem_append_right before hb),
    List.nil_append, List.append_nil]

end Containers
