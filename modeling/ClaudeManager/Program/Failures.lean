import ClaudeManager.Program.Stateful

/-!
# Failures

How a checked step fails.
-/

namespace Program

variable {ε α β : Type} {x y : ε}

/-- A sequence fails where its first part does, or the rest behind it. -/
theorem except_bind_error {m : Except ε α} {f : α → Except ε β} :
    m >>= f = .error x ↔ m = .error x ∨ ∃ a, m = .ok a ∧ f a = .error x := by
  cases m with
  | error y => simp [bind, Except.bind]
  | ok a => simp [bind, Except.bind]

theorem except_refuse_error {c : Prop} [Decidable c] (h : (refuse c x : Except ε PUnit) = .error y) :
    x = y := by
  unfold refuse at h
  split at h
  · exact Except.error.inj h
  · cases h

theorem except_okOr_error {o : Option α} (h : (okOr o x : Except ε α) = .error y) : x = y := by
  cases o with
  | none => exact Except.error.inj h
  | some a => cases h

/-- Every element of a checked list was checked. -/
theorem mapM_ok_mem {f : α → Except ε β} :
    ∀ {l : List α} {r : List β}, l.mapM f = .ok r → ∀ a ∈ l, ∃ b ∈ r, f a = .ok b
  | [], _, _, _, ha => (List.not_mem_nil ha).elim
  | a :: l, r, h, a', ha => by
    rw [List.mapM_cons] at h
    obtain ⟨b, hb, h⟩ := except_bind_ok.mp h
    obtain ⟨rest, hrest, h⟩ := except_bind_ok.mp h
    obtain rfl := except_pure_ok.mp h
    rcases List.mem_cons.mp ha with rfl | ha
    · exact ⟨b, List.mem_cons_self, hb⟩
    · obtain ⟨b', hb', hf⟩ := mapM_ok_mem hrest a' ha
      exact ⟨b', List.mem_cons_of_mem b hb', hf⟩

/-- Every element that a run over a list came past has what its step asks of it. -/
theorem forM_ok_mem {σ : Type} {f : α → EStateM ε σ PUnit} {P : α → Prop}
    (hf : ∀ a s t, f a s = .ok ⟨⟩ t → P a) {l : List α} {s t : σ} (h : l.forM f s = .ok ⟨⟩ t) :
    ∀ a ∈ l, P a := by
  induction l generalizing s with
  | nil => exact fun a ha => (List.not_mem_nil ha).elim
  | cons first l ih =>
    rw [List.forM_eq_forM, List.forM_cons, bind_unit_ok] at h
    obtain ⟨u, hu, hrest⟩ := h
    intro a ha
    rcases List.mem_cons.mp ha with rfl | ha
    · exact hf _ _ _ hu
    · exact ih hrest a ha

end Program
