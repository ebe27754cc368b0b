import Mathlib

/-!
# Permits that follow an owner

Each of many things has at most one owner, who is to hold the only permit for it. Permits are
moved by handovers: the old owner's permit goes, and the new owner may get one.

* `Permits.Within` — nobody but the owner holds a permit
* `Permits.Exact` — the owner holds the permit
* `Permits.hand` — a handover, which keeps both as long as it names the old owner
-/

namespace Program

/-- For each thing, who holds a permit for it. -/
abbrev Permits (κ π : Type) := κ → Set π

/-- The permit of `old` for a thing goes, and `new` gets one. -/
structure Handover (κ π : Type) where
  key : κ
  old : Option π
  new : Option π

namespace Permits

variable {κ π : Type} {P : Permits κ π} {S : Set π} {a b : Option π}

/-- The permits that remain when `old` gives way to `new`. -/
def passed (S : Set π) (old new : Option π) : Set π :=
  {p | (p ∈ S ∧ old ≠ some p) ∨ new = some p}

theorem passed_none : passed S none none = S := by
  ext p
  simp [passed]

section

variable [DecidableEq κ]

def hand (P : Permits κ π) (h : Handover κ π) : Permits κ π :=
  Function.update P h.key (passed (P h.key) h.old h.new)

/-- All permits for one thing go. -/
def clear (P : Permits κ π) (k : κ) : Permits κ π := Function.update P k ∅

theorem hand_self {h : Handover κ π} : P.hand h h.key = passed (P h.key) h.old h.new :=
  Function.update_self ..

theorem hand_other {h : Handover κ π} {k : κ} (hk : k ≠ h.key) : P.hand h k = P k :=
  Function.update_of_ne hk ..

theorem clear_self {k : κ} : P.clear k k = ∅ := Function.update_self ..

theorem clear_other {k k' : κ} (hk : k' ≠ k) : P.clear k k' = P k' := Function.update_of_ne hk ..

end

/-! ## Who holds the permit -/

/-- Nobody but the owner holds a permit. -/
def Within (S : Set π) (owner : Option π) : Prop := ∀ p ∈ S, owner = some p

/-- The owner, and nobody else, holds a permit. -/
def Exact (S : Set π) (owner : Option π) : Prop := ∀ p, p ∈ S ↔ owner = some p

theorem within_empty : Within (∅ : Set π) a := fun _ h => absurd h (Set.notMem_empty _)

theorem exact_empty : Exact (∅ : Set π) none := fun p => by simp

theorem Exact.within (h : Exact S a) : Within S a := fun p hp => (h p).mp hp

theorem Within.eq_empty (h : Within S none) : S = ∅ := by
  ext p
  exact ⟨fun hp => absurd (h p hp) (by simp), fun hp => absurd hp (Set.notMem_empty p)⟩

/-- A permit passes from the owner to the next one, or to nobody. -/
theorem Within.passed (h : Within S a) {new : Option π} (hnew : new = none ∨ new = b) :
    Within (passed S a new) b := by
  rintro p (⟨hp, hne⟩ | rfl)
  · exact absurd (h p hp) hne
  · rcases hnew with hnew | hnew
    · cases hnew
    · exact hnew.symm

/-- A permit passes from the owner to the next one. -/
theorem Within.passed_exact (h : Within S a) : Exact (Permits.passed S a b) b := by
  intro p
  constructor
  · exact fun hp => h.passed (.inr rfl) p hp
  · exact fun hp => .inr hp

end Permits

end Program
