import Mathlib
import ClaudeManager.Program.Stateful

/-!
# Runs

* `foldlM_rest` — an invariant of a loop that may fail, which knows what is left to do
* `Meets` — every step of a run meets a condition on the state it starts from
* `Meets.invariant` — what such steps preserve holds at the end of the run
-/

namespace Program

variable {σ ε : Type} {step : σ → ε → σ} {ok : σ → ε → Prop}

/-- A loop that may fail keeps an invariant that knows what is left to do. -/
theorem foldlM_rest {α β ρ : Type} {f : β → α → Except ρ β} (I : List α → β → Prop)
    (hstep : ∀ a l b b', I (a :: l) b → f b a = .ok b' → I l b') :
    ∀ {l : List α} {b r : β}, I l b → l.foldlM f b = .ok r → I [] r
  | [], b, r, hb, h => by
    rw [List.foldlM_nil] at h
    exact except_pure_ok.mp h ▸ hb
  | a :: l, b, r, hb, h => by
    rw [List.foldlM_cons] at h
    obtain ⟨b', hfirst, hrest⟩ := except_bind_ok.mp h
    exact foldlM_rest I hstep (hstep a l b b' hb hfirst) hrest

/-- What a checked loop gives comes from its items. -/
theorem mapM_mem {α β ρ : Type} {f : α → Except ρ β} :
    ∀ {l : List α} {r : List β}, l.mapM f = .ok r → ∀ b ∈ r, ∃ a ∈ l, f a = .ok b
  | [], r, h, b, hb => by
    rw [List.mapM_nil] at h
    obtain rfl := except_pure_ok.mp h
    cases hb
  | a :: l, r, h, b, hb => by
    rw [List.mapM_cons] at h
    obtain ⟨b', hfirst, h⟩ := except_bind_ok.mp h
    obtain ⟨r', hrest, h⟩ := except_bind_ok.mp h
    obtain rfl := except_pure_ok.mp h
    rcases List.mem_cons.mp hb with rfl | hb
    · exact ⟨a, List.mem_cons_self, hfirst⟩
    · obtain ⟨a', ha', hf⟩ := mapM_mem hrest b hb
      exact ⟨a', List.mem_cons_of_mem a ha', hf⟩

theorem mapM_length {α β ρ : Type} {f : α → Except ρ β} :
    ∀ {l : List α} {r : List β}, l.mapM f = .ok r → r.length = l.length
  | [], r, h => by
    rw [List.mapM_nil] at h
    obtain rfl := except_pure_ok.mp h
    rfl
  | a :: l, r, h => by
    rw [List.mapM_cons] at h
    obtain ⟨b, -, h⟩ := except_bind_ok.mp h
    obtain ⟨r', hrest, h⟩ := except_bind_ok.mp h
    obtain rfl := except_pure_ok.mp h
    rw [List.length_cons, List.length_cons, mapM_length hrest]

/-- Every step of a run meets a condition on the state it starts from. -/
def Meets (step : σ → ε → σ) (ok : σ → ε → Prop) : σ → List ε → Prop
  | _, [] => True
  | s, e :: es => ok s e ∧ Meets step ok (step s e) es

namespace Meets

/-- A run that is cut short meets what the whole run meets. -/
theorem of_append {fs : List ε} : ∀ {es : List ε} {s : σ}, Meets step ok s (es ++ fs) →
    Meets step ok s es ∧ Meets step ok (es.foldl step s) fs
  | [], _, h => ⟨trivial, h⟩
  | _ :: _, _, h => by
    obtain ⟨hfirst, hrest⟩ := of_append h.2
    exact ⟨⟨h.1, hfirst⟩, hrest⟩

/-- What steps that meet the condition preserve holds at the end of the run. -/
theorem invariant {I : σ → Prop} (hstep : ∀ s e, I s → ok s e → I (step s e)) {es : List ε}
    {s : σ} (hs : I s) (h : Meets step ok s es) : I (es.foldl step s) := by
  induction es generalizing s with
  | nil => exact hs
  | cons e es ih => exact ih (hstep s e hs h.1) h.2

/-- Two conditions that a run meets are one. -/
theorem and {ok' : σ → ε → Prop} : ∀ {es : List ε} {s : σ}, Meets step ok s es →
    Meets step ok' s es → Meets step (fun s e => ok s e ∧ ok' s e) s es
  | [], _, _, _ => trivial
  | _ :: _, _, h, h' => ⟨⟨h.1, h'.1⟩, h.2.and h'.2⟩

/-- A condition every step meets is no condition. -/
theorem of_forall (h : ∀ s e, ok s e) : ∀ {es : List ε} {s : σ}, Meets step ok s es
  | [], _ => trivial
  | e :: _, s => ⟨h s e, of_forall h⟩

end Meets

end Program
