import Mathlib

/-!
# Pages

A stream that is sent in pages: each page is the next piece of it, in which nothing is said twice.

* `fresh` — what has not been said yet, each once
* `mem_pages`, `pages_before` — the pages of a stream say what the stream says, and nothing before what
  stands before it there
-/

namespace Program

variable {α : Type} [DecidableEq α] {said l : List α} {x : α}

/-- What a list says beyond what was said, each once. -/
def fresh (said : List α) : List α → List α
  | [] => []
  | x :: l => if x ∈ said then fresh said l else x :: fresh (x :: said) l

@[simp] theorem fresh_nil : fresh said [] = [] := rfl

theorem fresh_cons : fresh said (x :: l) = if x ∈ said then fresh said l else x :: fresh (x :: said) l :=
  rfl

theorem mem_fresh : ∀ {l : List α} {said : List α}, x ∈ fresh said l ↔ x ∈ l ∧ x ∉ said
  | [], _ => by simp
  | y :: l, said => by
    unfold fresh
    split
    · next hy =>
      rw [mem_fresh, List.mem_cons]
      constructor
      · rintro ⟨hx, hn⟩
        exact ⟨.inr hx, hn⟩
      · rintro ⟨rfl | hx, hn⟩
        · exact absurd hy hn
        · exact ⟨hx, hn⟩
    · next hy =>
      rw [List.mem_cons, mem_fresh, List.mem_cons, List.mem_cons, not_or]
      constructor
      · rintro (rfl | ⟨hx, -, hn⟩)
        · exact ⟨.inl rfl, hy⟩
        · exact ⟨.inr hx, hn⟩
      · rintro ⟨rfl | hx, hn⟩
        · exact .inl rfl
        · by_cases he : x = y
          · exact .inl he
          · exact .inr ⟨hx, he, hn⟩

/-- What is said does not depend on the order in which things were said before. -/
theorem fresh_congr : ∀ {l said said' : List α}, (∀ y, y ∈ said ↔ y ∈ said') →
    fresh said l = fresh said' l
  | [], _, _, _ => rfl
  | y :: l, said, said', h => by
    unfold fresh
    rw [if_congr (h y) (fresh_congr h) (congrArg (y :: ·) (fresh_congr fun z => ?_))]
    rw [List.mem_cons, List.mem_cons, h z]

theorem fresh_append : ∀ {l l' said : List α},
    fresh said (l ++ l') = fresh said l ++ fresh (said ++ l) l'
  | [], l', said => by
    rw [List.nil_append, fresh_nil, List.nil_append, List.append_nil]
  | y :: l, l', said => by
    rw [List.cons_append, fresh_cons, fresh_cons]
    split
    · next hy =>
      rw [fresh_append]
      refine congrArg _ (fresh_congr fun z => ?_)
      simp only [List.mem_append, List.mem_cons]
      constructor
      · exact fun h => h.imp_right .inr
      · rintro (h | rfl | h)
        · exact .inl h
        · exact .inl hy
        · exact .inr h
    · rw [fresh_append, List.cons_append]
      refine congrArg (y :: ·) (congrArg _ (fresh_congr fun z => ?_))
      simp only [List.mem_append, List.mem_cons]
      tauto

theorem fresh_nodup : ∀ {l said : List α}, (fresh said l).Nodup
  | [], _ => List.nodup_nil
  | y :: l, said => by
    rw [fresh_cons]
    split
    · exact fresh_nodup
    · exact List.nodup_cons.mpr ⟨fun hy => (mem_fresh.mp hy).2 List.mem_cons_self, fresh_nodup⟩

/-- Before something is said, everything that stands before it was said. -/
theorem fresh_before : ∀ {l said b a : List α}, fresh said l = b ++ x :: a →
    ∃ l₁ l₂, l = l₁ ++ x :: l₂ ∧ ∀ y ∈ l₁, y ∈ said ∨ y ∈ b
  | [], _, b, _, h => by
    have := congrArg List.length h
    simp at this
  | y :: l, said, b, a, h => by
    rw [fresh_cons] at h
    split at h
    · next hy =>
      obtain ⟨l₁, l₂, rfl, hl₁⟩ := fresh_before h
      refine ⟨y :: l₁, l₂, rfl, fun z hz => ?_⟩
      rcases List.mem_cons.mp hz with rfl | hz
      · exact .inl hy
      · exact hl₁ z hz
    · cases b with
      | nil =>
        obtain ⟨rfl, -⟩ := List.cons.inj h
        exact ⟨[], l, rfl, fun z hz => (List.not_mem_nil hz).elim⟩
      | cons y' b =>
        obtain ⟨rfl, hrest⟩ := List.cons.inj h
        obtain ⟨l₁, l₂, rfl, hl₁⟩ := fresh_before hrest
        refine ⟨y :: l₁, l₂, rfl, fun z hz => ?_⟩
        rcases List.mem_cons.mp hz with rfl | hz
        · exact .inr List.mem_cons_self
        · rcases hl₁ z hz with hz | hz
          · rcases List.mem_cons.mp hz with rfl | hz
            · exact .inr List.mem_cons_self
            · exact .inl hz
          · exact .inr (List.mem_cons_of_mem _ hz)

/-! ## Pieces -/

variable {pieces : List (List α)}

/-- The pages of pieces say what the pieces say. -/
theorem mem_pages : x ∈ (pieces.map (fresh [])).flatten ↔ x ∈ pieces.flatten := by
  simp only [List.mem_flatten, List.mem_map]
  constructor
  · rintro ⟨page, ⟨piece, hpiece, rfl⟩, hx⟩
    exact ⟨piece, hpiece, (mem_fresh.mp hx).1⟩
  · rintro ⟨piece, hpiece, hx⟩
    exact ⟨_, ⟨piece, hpiece, rfl⟩, mem_fresh.mpr ⟨hx, List.not_mem_nil⟩⟩

/-- Before something is said on a page, everything that stands before it was said on this page or an
earlier one. -/
theorem pages_before : ∀ {pieces : List (List α)} {b a : List α},
    (pieces.map (fresh [])).flatten = b ++ x :: a →
      ∃ l₁ l₂, pieces.flatten = l₁ ++ x :: l₂ ∧ ∀ y ∈ l₁, y ∈ b
  | [], b, _, h => by
    have := congrArg List.length h
    simp at this
  | piece :: pieces, b, a, h => by
    rw [List.map_cons, List.flatten_cons] at h
    rcases List.append_eq_append_iff.mp h with ⟨b', rfl, hrest⟩ | ⟨rest, hpage, hrest⟩
    · obtain ⟨l₁, l₂, hl, hl₁⟩ := pages_before hrest
      refine ⟨piece ++ l₁, l₂, ?_, fun y hy => ?_⟩
      · rw [List.flatten_cons, hl, List.append_assoc]
      · rcases List.mem_append.mp hy with hy | hy
        · exact List.mem_append_left _ (mem_fresh.mpr ⟨hy, List.not_mem_nil⟩)
        · exact List.mem_append_right _ (hl₁ y hy)
    · cases rest with
      | nil =>
        rw [List.append_nil] at hpage
        rw [List.nil_append] at hrest
        obtain ⟨l₁, l₂, hl, hl₁⟩ := pages_before (b := []) hrest.symm
        refine ⟨piece ++ l₁, l₂, ?_, fun y hy => ?_⟩
        · rw [List.flatten_cons, hl, List.append_assoc]
        · rcases List.mem_append.mp hy with hy | hy
          · exact hpage ▸ mem_fresh.mpr ⟨hy, List.not_mem_nil⟩
          · exact (List.not_mem_nil (hl₁ y hy)).elim
      | cons x' rest =>
        obtain ⟨rfl, -⟩ := List.cons.inj hrest
        obtain ⟨l₁, l₂, rfl, hl₁⟩ := fresh_before hpage
        refine ⟨l₁, l₂ ++ pieces.flatten, ?_, fun y hy => ?_⟩
        · rw [List.flatten_cons, List.append_assoc, List.cons_append]
        · exact (hl₁ y hy).resolve_left List.not_mem_nil

end Program
