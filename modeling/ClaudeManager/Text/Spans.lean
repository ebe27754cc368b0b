import Mathlib

/-!
# Spans between two marks

The spans of a text that an opening mark begins and the first closing mark after it ends, and what
is between them.

* `First` — a mark where it first stands
* `Pieces` — a text cut into its spans and the rest
* `exists_pieces`, `Pieces.unique` — every text is cut in one way
-/

namespace Text

variable {α : Type} {mark opening closing s before after : List α}

/-- The mark first stands between these two parts. -/
structure First (mark s before after : List α) : Prop where
  eq : s = before ++ (mark ++ after)
  first : ∀ f r, s = f ++ (mark ++ r) → before.length ≤ f.length

theorem First.unique {before' after' : List α} (h : First mark s before after)
    (h' : First mark s before' after') : before = before' ∧ after = after' := by
  have hlen : before.length = before'.length :=
    Nat.le_antisymm (h.first _ _ h'.eq) (h'.first _ _ h.eq)
  obtain ⟨rfl, hrest⟩ := List.append_inj (h.eq.symm.trans h'.eq) hlen
  exact ⟨rfl, List.append_cancel_left hrest⟩

/-- A mark that stands somewhere stands somewhere first. -/
theorem exists_first (h : ∃ f r, s = f ++ (mark ++ r)) : ∃ before after, First mark s before after := by
  have hlen : ∃ n f r, s = f ++ (mark ++ r) ∧ f.length = n := by
    obtain ⟨f, r, hs⟩ := h
    exact ⟨f.length, f, r, hs, rfl⟩
  classical
  obtain ⟨f, r, hs, hf⟩ := Nat.find_spec hlen
  refine ⟨f, r, hs, fun g q hg => ?_⟩
  rw [hf]
  exact Nat.find_le ⟨g, q, hg, rfl⟩

/-- A part of a text: as it stands, or what a span has between its marks. -/
inductive Piece (α : Type) where
  | literal (text : List α)
  | placeholder (inner : List α)
  deriving DecidableEq

/-- The text is cut into its spans, from the left, each ending at the first closing mark. An opening
mark that nothing closes is as it stands. -/
inductive Pieces (opening closing : List α) : List α → List (Piece α) → Prop
  | last {s : List α} : (∀ f t, s = f ++ (opening ++ t) → ∀ inner r, t ≠ inner ++ (closing ++ r)) →
      Pieces opening closing s [.literal s]
  | next {s lit t inner rest : List α} {ps : List (Piece α)} : First opening s lit t →
      First closing t inner rest → Pieces opening closing rest ps →
      Pieces opening closing s (.literal lit :: .placeholder inner :: ps)

/-- A text with a closed opening mark has a first span. -/
theorem exists_span (h : ∃ f t inner r, s = f ++ (opening ++ t) ∧ t = inner ++ (closing ++ r)) :
    ∃ lit t inner rest, First opening s lit t ∧ First closing t inner rest := by
  obtain ⟨f, t, inner, r, hs, ht⟩ := h
  obtain ⟨lit, t', hfirst⟩ := exists_first ⟨f, t, hs⟩
  -- What closes the later mark closes the first one too.
  have hsuffix : t <:+ t' := by
    have hle := hfirst.first f t hs
    have hlength := congrArg List.length (hfirst.eq.symm.trans hs)
    simp only [List.length_append] at hlength
    have ht : t <:+ s := ⟨f ++ opening, by rw [List.append_assoc, hs]⟩
    have ht' : t' <:+ s := ⟨lit ++ opening, by rw [List.append_assoc, ← hfirst.eq]⟩
    exact List.suffix_of_suffix_length_le ht ht' (by omega)
  obtain ⟨x, hx⟩ := hsuffix
  have hclosed : ∃ f r, t' = f ++ (closing ++ r) := ⟨x ++ inner, r, by rw [List.append_assoc, ← ht, hx]⟩
  obtain ⟨inner', rest, hlast⟩ := exists_first hclosed
  exact ⟨lit, t', inner', rest, hfirst, hlast⟩

/-- Every text is cut. -/
theorem exists_pieces (hopening : opening ≠ []) (s : List α) : ∃ ps, Pieces opening closing s ps := by
  induction hn : s.length using Nat.strong_induction_on generalizing s with
  | _ n ih =>
    by_cases h : ∃ f t inner r, s = f ++ (opening ++ t) ∧ t = inner ++ (closing ++ r)
    · obtain ⟨lit, t, inner, rest, hfirst, hlast⟩ := exists_span h
      have hshort : rest.length < n := by
        have hpos := List.length_pos_iff.mpr hopening
        have hs := congrArg List.length hfirst.eq
        have ht := congrArg List.length hlast.eq
        simp only [List.length_append] at hs ht
        omega
      obtain ⟨ps, hps⟩ := ih rest.length hshort rest rfl
      exact ⟨_, .next hfirst hlast hps⟩
    · exact ⟨_, .last fun f t hs inner r ht => h ⟨f, t, inner, r, hs, ht⟩⟩

/-- It is cut in one way. -/
theorem Pieces.unique {ps qs : List (Piece α)} (h : Pieces opening closing s ps)
    (h' : Pieces opening closing s qs) : ps = qs := by
  induction h generalizing qs with
  | last hnone =>
    cases h' with
    | last => rfl
    | next hfirst hlast => exact absurd hlast.eq (hnone _ _ hfirst.eq _ _)
  | next hfirst hlast _ ih =>
    cases h' with
    | last hnone => exact absurd hlast.eq (hnone _ _ hfirst.eq _ _)
    | next hfirst' hlast' hrest' =>
      obtain ⟨rfl, rfl⟩ := hfirst.unique hfirst'
      obtain ⟨rfl, rfl⟩ := hlast.unique hlast'
      rw [ih hrest']

end Text
