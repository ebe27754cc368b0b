import ClaudeManager.Program.Sorted

/-!
# Scanning sorted vectors

A scan of a sorted vector goes on behind the place where the last one ended.

* `behind` — what lies behind an anchor
* `drop_behind` — it is found by a partition point
-/

namespace Program

open Containers

variable {α κ : Type} [LinearOrder κ] {key : α → κ} {anchor : Option κ}

/-- The element lies behind the anchor. -/
def behind (key : α → κ) (anchor : Option κ) (x : α) : Bool := anchor.all fun k => k < key x

/-- Behind a partition point at the anchor lies what lies behind the anchor. -/
theorem drop_behind {v : List α} (hsorted : v.Pairwise fun a b => key a < key b) :
    v.drop (anchor.elim 0 fun k => partitionPoint (fun x => decide (key x ≤ k)) v)
      = v.filter (behind key anchor) := by
  cases anchor with
  | none => exact (List.filter_eq_self.mpr fun _ _ => rfl).symm
  | some k =>
    have hsplit : v.Pairwise fun x y => decide (key y ≤ k) = true → decide (key x ≤ k) = true :=
      hsorted.imp fun hxy hy => decide_eq_true (hxy.le.trans (of_decide_eq_true hy))
    show v.drop (v.takeWhile _).length = _
    rw [drop_takeWhile, dropWhile_eq_filter hsplit]
    refine List.filter_congr fun x _ => ?_
    by_cases hle : key x ≤ k
    · simp [behind, hle, not_lt.mpr hle]
    · simp [behind, hle, not_le.mp hle]

end Program
