import Mathlib

/-!
# The first element by a key

* `argmin_eq_some` — what comes first by a key that tells elements apart
* `argmin_perm` — it does not depend on the order of the list
* `argmin_preferred` — one element before the others
* `argmin_alike` — two keys choose alike from every list exactly when they order every pair alike
-/

namespace Least

variable {α β γ δ : Type} [LinearOrder β] [LinearOrder γ] {f : α → β} {g : α → γ} {l l' : List α}

theorem argmin_eq_some (hf : Function.Injective f) {a : α} :
    l.argmin f = some a ↔ a ∈ l ∧ ∀ b ∈ l, f a ≤ f b := by
  constructor
  · intro h
    exact ⟨List.argmin_mem h, fun b hb => List.le_of_mem_argmin hb h⟩
  · rintro ⟨ha, hle⟩
    cases h : l.argmin f with
    | none =>
      rw [List.argmin_eq_none.mp h] at ha
      cases ha
    | some b =>
      have hab : f a = f b := le_antisymm (hle b (List.argmin_mem h)) (List.le_of_mem_argmin ha h)
      rw [hf hab]

theorem argmin_perm (hf : Function.Injective f) (h : l.Perm l') : l.argmin f = l'.argmin f := by
  apply Option.ext
  intro a
  rw [argmin_eq_some hf, argmin_eq_some hf, h.mem_iff]
  exact and_congr_right fun _ => forall_congr' fun b => by rw [h.mem_iff]

/-- The first element of a list, and what is read of it. -/
theorem map_argmin (p : δ → α) (hf : Function.Injective f) (l : List δ) :
    (l.argmin (f ∘ p)).map p = (l.map p).argmin f := by
  cases h : l.argmin (f ∘ p) with
  | none =>
    rw [List.argmin_eq_none.mp h]
    rfl
  | some d =>
    symm
    rw [Option.map_some, argmin_eq_some hf]
    refine ⟨List.mem_map_of_mem (List.argmin_mem h), fun b hb => ?_⟩
    obtain ⟨e, he, rfl⟩ := List.mem_map.mp hb
    exact List.le_of_mem_argmin (f := f ∘ p) he h

/-- One element before the others, which are in the order of a key. -/
def preferred [DecidableEq α] (pin : Option α) (f : α → β) (a : α) : Bool ×ₗ β :=
  toLex (decide (some a ≠ pin), f a)

omit [LinearOrder β] in
theorem preferred_injective [DecidableEq α] (pin : Option α) {f : α → β}
    (hf : Function.Injective f) : Function.Injective (preferred pin f) := fun _ _ h =>
  hf (congrArg Prod.snd (toLex.injective h))

theorem argmin_preferred [DecidableEq α] {pin : Option α} (hf : Function.Injective f)
    (l : List α) :
    l.argmin (preferred pin f) = if pin.any (· ∈ l) then pin else l.argmin f := by
  by_cases hpin : pin.any (· ∈ l) = true
  · cases pin with
    | none => cases hpin
    | some a =>
      have ha : a ∈ l := of_decide_eq_true hpin
      rw [if_pos hpin, argmin_eq_some (preferred_injective _ hf)]
      refine ⟨ha, fun b _ => ?_⟩
      by_cases hb : b = a
      · rw [hb]
      · refine le_of_lt (Prod.Lex.toLex_lt_toLex.mpr (.inl ?_))
        simp [hb]
  · rw [if_neg hpin]
    apply Option.ext
    intro a
    rw [argmin_eq_some (preferred_injective _ hf), argmin_eq_some hf]
    have hother : ∀ b ∈ l, some b ≠ pin := by
      rintro b hb rfl
      exact hpin (by simp [hb])
    refine and_congr_right fun ha => forall₂_congr fun b hb => ?_
    unfold preferred
    rw [Prod.Lex.toLex_le_toLex]
    simp [hother a ha, hother b hb]

/-- Two keys order a pair alike. -/
def Alike (f : α → β) (g : α → γ) (a b : α) : Prop := f a < f b ↔ g a < g b

theorem argmin_congr (hf : Function.Injective f) (hg : Function.Injective g)
    (h : ∀ a ∈ l, ∀ b ∈ l, Alike f g a b) : l.argmin f = l.argmin g := by
  apply Option.ext
  intro a
  rw [argmin_eq_some hf, argmin_eq_some hg]
  refine and_congr_right fun ha => forall₂_congr fun b hb => ?_
  rw [← not_lt, ← not_lt]
  exact not_congr (h b hb a ha)

theorem alike_of_argmin (hf : Function.Injective f) (hg : Function.Injective g) {a b : α}
    (h : [a, b].argmin f = [a, b].argmin g) : Alike f g a b := by
  have hmem : ∀ c ∈ [a, b], c = a ∨ c = b := by simp
  have hfirst : (f a ≤ f b) ↔ (g a ≤ g b) := by
    have hiff : [a, b].argmin f = some a ↔ [a, b].argmin g = some a := by rw [h]
    rw [argmin_eq_some hf, argmin_eq_some hg] at hiff
    simpa using hiff
  unfold Alike
  rw [lt_iff_le_and_ne, lt_iff_le_and_ne, hfirst, hf.ne_iff, hg.ne_iff]

/-- Two keys choose alike from every list of some elements exactly when they order every pair of them
alike. -/
theorem argmin_alike (hf : Function.Injective f) (hg : Function.Injective g) {S : α → Prop} :
    (∀ l : List α, (∀ a ∈ l, S a) → l.argmin f = l.argmin g)
      ↔ ∀ a b, S a → S b → Alike f g a b := by
  constructor
  · intro h a b ha hb
    refine alike_of_argmin hf hg (h [a, b] fun c hc => ?_)
    rcases List.mem_cons.mp hc with rfl | hc
    · exact ha
    · exact List.mem_singleton.mp hc ▸ hb
  · intro h l hl
    exact argmin_congr hf hg fun a ha b hb => h a b (hl a ha) (hl b hb)

end Least
