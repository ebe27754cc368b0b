import Mathlib

/-!
# Graphs without cycles

A relation is acyclic where no element leads to itself.

* `Acyclic.redirect` — new edges out of one node close no cycle if none of them leads back
* `not_reaches_of_closed` — a set closed under the edges holds all that its members reach
* `climb`, `reaches_redirect` — parents, and what a new parent of one node changes
-/

namespace Program

open Relation

variable {α : Type} {r r' : α → α → Prop}

/-- No element leads to itself. -/
def Acyclic (r : α → α → Prop) : Prop := ∀ a, ¬ TransGen r a a

theorem Acyclic.mono (h : Acyclic r) (hr : ∀ a b, r' a b → r a b) : Acyclic r' :=
  fun a ha => h a (TransGen.mono hr a a ha)

/-- A way along the new edges is a way along the old ones, or it goes through `n`. -/
theorem transGen_redirect {n a b : α} (hr : ∀ a b, a ≠ n → r' a b → r a b)
    (h : TransGen r' a b) :
    TransGen r a b ∨ ReflTransGen r' a n ∧ ∃ s, r' n s ∧ ReflTransGen r' s b := by
  induction h with
  | @single b hab =>
    by_cases ha : a = n
    · subst ha
      exact .inr ⟨.refl, b, hab, .refl⟩
    · exact .inl (.single (hr a b ha hab))
  | @tail b c hab hbc ih =>
    rcases ih with ih | ⟨han, s, hs, hsb⟩
    · by_cases hb : b = n
      · subst hb
        exact .inr ⟨hab.to_reflTransGen, c, hbc, .refl⟩
      · exact .inl (.tail ih (hr b c hb hbc))
    · exact .inr ⟨han, s, hs, hsb.tail hbc⟩

/-- New edges out of one node close no cycle if none of them leads back. -/
theorem Acyclic.redirect {n : α} (h : Acyclic r) (hr : ∀ a b, a ≠ n → r' a b → r a b)
    (hn : ∀ s, r' n s → ¬ ReflTransGen r' s n) : Acyclic r' := by
  intro a ha
  rcases transGen_redirect hr ha with hold | ⟨han, s, hs, hsa⟩
  · exact h a hold
  · exact hn s hs (hsa.trans han)

/-- A set closed under the edges holds all that its members reach. -/
theorem not_reaches_of_closed {C : Set α} {s t : α} (hs : s ∈ C)
    (hC : ∀ a ∈ C, ∀ b, r a b → b ∈ C) (ht : t ∉ C) : ¬ ReflTransGen r s t := by
  intro h
  have hall : ∀ b, ReflTransGen r s b → b ∈ C := by
    intro b hb
    induction hb with
    | refl => exact hs
    | tail _ hbc ih => exact hC _ ih _ hbc
  exact ht (hall t h)

/-! ## Parents -/

/-- The edge from a node to its parent. -/
def Edge (p : α → Option α) (a b : α) : Prop := p a = some b

/-- The node a number of parents up. -/
def climb (p : α → Option α) : Nat → α → Option α
  | 0, a => some a
  | n + 1, a => (p a).bind (climb p n)

section Parents

variable {p p' : α → Option α} {a b n y root : α}

theorem reaches_iff_climb : ReflTransGen (Edge p) a b ↔ ∃ k, climb p k a = some b := by
  constructor
  · intro h
    induction h using ReflTransGen.head_induction_on with
    | refl => exact ⟨0, rfl⟩
    | @head x y hxy _ ih =>
      obtain ⟨k, hk⟩ := ih
      refine ⟨k + 1, ?_⟩
      have hp : p x = some y := hxy
      simp only [climb, hp, Option.bind_some]
      exact hk
  · rintro ⟨k, hk⟩
    induction k generalizing a with
    | zero =>
      obtain rfl := Option.some.inj hk
      exact .refl
    | succ k ih =>
      obtain ⟨c, hc, hk⟩ := Option.bind_eq_some_iff.mp hk
      exact .head hc (ih hk)

/-- Without cycles a node is not its own ancestor. -/
theorem climb_ne (h : Acyclic (Edge p)) {k : Nat} (hk : climb p (k + 1) a = some b) : b ≠ a := by
  rintro rfl
  obtain ⟨c, hc, hk⟩ := Option.bind_eq_some_iff.mp hk
  exact h b (.head' hc (reaches_iff_climb.mpr ⟨k, hk⟩))

/-- A way that does not reach `n` is there under another parent of `n`. -/
theorem reaches_avoid (hp : ∀ x, x ≠ n → p' x = p x) (h : ReflTransGen (Edge p) y root)
    (hn : ¬ ReflTransGen (Edge p) y n) : ReflTransGen (Edge p') y root := by
  induction h using ReflTransGen.head_induction_on with
  | refl => exact .refl
  | @head x z hxz _ ih =>
    have hx : x ≠ n := by
      rintro rfl
      exact hn .refl
    have hedge : Edge p' x z := (hp x hx).trans hxz
    exact .head hedge (ih fun hz => hn (.head hxz hz))

/-- A new parent of `n` that is below `root`, and not below `n`, keeps what is below `root`. -/
theorem reaches_redirect (hp : ∀ x, x ≠ n → p' x = p x) (hn : p' n = some y)
    (hy : ReflTransGen (Edge p) y root) (hav : ¬ ReflTransGen (Edge p) y n)
    (h : ReflTransGen (Edge p) a root) : ReflTransGen (Edge p') a root := by
  induction h using ReflTransGen.head_induction_on with
  | refl => exact .refl
  | @head x z hxz _ ih =>
    by_cases hx : x = n
    · subst hx
      exact .head hn (reaches_avoid hp hy hav)
    · have hedge : Edge p' x z := (hp x hx).trans hxz
      exact .head hedge ih

/-- Where all ways lead to a root without a parent, there is no cycle. -/
theorem acyclic_of_rooted (hroot : p root = none) (h : ∀ a b, Edge p a b →
    ReflTransGen (Edge p) a root) : Acyclic (Edge p) := by
  have hend : ∀ k a, climb p k a = some root → ¬ TransGen (Edge p) a a := by
    intro k
    induction k with
    | zero =>
      intro a hk hcycle
      obtain rfl := Option.some.inj hk
      obtain ⟨c, hc, -⟩ := TransGen.head'_iff.mp hcycle
      have hp : p a = some c := hc
      rw [hroot] at hp
      cases hp
    | succ k ih =>
      intro a hk hcycle
      obtain ⟨c, hc, hk⟩ := Option.bind_eq_some_iff.mp hk
      obtain ⟨d, hd, hda⟩ := TransGen.head'_iff.mp hcycle
      have hcd : c = d := Option.some.inj (hc.symm.trans hd)
      subst hcd
      exact ih c hk (.tail' hda hc)
  intro a hcycle
  obtain ⟨c, hc, -⟩ := TransGen.head'_iff.mp hcycle
  obtain ⟨k, hk⟩ := reaches_iff_climb.mp (h a c hc)
  exact hend k a hk hcycle

end Parents

end Program
