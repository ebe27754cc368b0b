import Mathlib

/-!
# Mirrors

A source takes snapshots of the items it has; a mirror shows one of them at a time. Items that were
removed from the source never come back.

* `sublist_of_pairwise` — of two elements of a sorted list, the smaller one comes first
* `NoReturn` — what a snapshot lacks, and an earlier one had, is gone for good
-/

namespace Program

variable {σ ι : Type} {before : σ → σ → Prop} {has : σ → Set ι} {taken : List σ} {now now' : Set ι}

/-- Of two elements of a sorted list, the smaller one comes first. -/
theorem sublist_of_pairwise (hasymm : ∀ a b, before a b → ¬ before b a) {a b : σ} :
    ∀ {l : List σ}, l.Pairwise before → a ∈ l → b ∈ l → before a b → [a, b].Sublist l
  | [], _, ha, _, _ => absurd ha List.not_mem_nil
  | c :: l, h, ha, hb, hab => by
    obtain ⟨hfirst, hrest⟩ := List.pairwise_cons.mp h
    rcases List.mem_cons.mp ha with rfl | ha'
    · rcases List.mem_cons.mp hb with rfl | hb'
      · exact absurd hab (hasymm _ _ hab)
      · exact (List.singleton_sublist.mpr hb').cons_cons _
    · rcases List.mem_cons.mp hb with rfl | hb'
      · exact absurd hab (hasymm _ _ (hfirst a ha'))
      · exact (sublist_of_pairwise hasymm hrest ha' hb' hab).cons _

/-- What a snapshot lacks, and an earlier one had, is not in the source, nor in a later one. -/
def NoReturn (before : σ → σ → Prop) (has : σ → Set ι) (taken : List σ) (now : Set ι) : Prop :=
  ∀ a ∈ taken, ∀ b ∈ taken, before a b → ∀ x ∈ has a, x ∉ has b →
    x ∉ now ∧ ∀ c ∈ taken, before b c → x ∉ has c

namespace NoReturn

theorem nil : NoReturn before has [] now := fun _ ha => absurd ha List.not_mem_nil

/-- Items that are added are new. -/
theorem change (h : NoReturn before has taken now)
    (hnew : ∀ x ∈ now', x ∈ now ∨ ∀ a ∈ taken, x ∉ has a) : NoReturn before has taken now' := by
  intro a ha b hb hab x hx hx'
  obtain ⟨hnow, hlater⟩ := h a ha b hb hab x hx hx'
  refine ⟨fun hmem => ?_, hlater⟩
  rcases hnew x hmem with hold | hnone
  · exact hnow hold
  · exact hnone a ha hx

/-- A snapshot is taken of what the source has. -/
theorem take (h : NoReturn before has taken now) (hasymm : ∀ a b, before a b → ¬ before b a) {s : σ}
    (hlast : ∀ a ∈ taken, before a s) (hs : has s = now) : NoReturn before has (taken ++ [s]) now := by
  have hself : ¬ before s s := fun hss => hasymm s s hss hss
  intro a ha b hb hab x hx hx'
  rcases List.mem_append.mp hb with hb | hb
  · rcases List.mem_append.mp ha with ha | ha
    · obtain ⟨hnow, hlater⟩ := h a ha b hb hab x hx hx'
      refine ⟨hnow, fun c hc hbc => ?_⟩
      rcases List.mem_append.mp hc with hc | hc
      · exact hlater c hc hbc
      · rw [List.mem_singleton.mp hc, hs]
        exact hnow
    · rw [List.mem_singleton.mp ha] at hab
      exact absurd hab (hasymm _ _ (hlast b hb))
  · rw [List.mem_singleton.mp hb] at hx' ⊢
    refine ⟨fun hmem => hx' (hs ▸ hmem), fun c hc hbc => ?_⟩
    rcases List.mem_append.mp hc with hc | hc
    · exact absurd hbc (hasymm _ _ (hlast c hc))
    · rw [List.mem_singleton.mp hc] at hbc
      exact absurd hbc hself

end NoReturn

end Program
