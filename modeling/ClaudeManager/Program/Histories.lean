import Mathlib

/-!
# Histories

Facts about a list of happenings, oldest first, by what one more happening does to them:

* `Justified` — each happening was allowed by those before it
* `Open` — something happened that nothing closed since
* `Answered` — what a happening called for came right after it
-/

namespace Program

variable {α : Type}

/-- Where a longer list splits, the shorter one does or the last element is the one split at. -/
theorem concat_eq_append_cons {l a b : List α} {x y : α} :
    l ++ [y] = a ++ x :: b ↔ (a = l ∧ x = y ∧ b = []) ∨ ∃ c, b = c ++ [y] ∧ l = a ++ x :: c := by
  constructor
  · intro h
    rcases List.eq_nil_or_concat b with rfl | ⟨c, z, rfl⟩
    · obtain ⟨rfl, hy⟩ := List.append_inj' h rfl
      exact .inl ⟨rfl, (List.singleton_inj.mp hy).symm, rfl⟩
    · rw [List.concat_eq_append] at h ⊢
      rw [← List.cons_append, ← List.append_assoc] at h
      obtain ⟨hl, hz⟩ := List.append_inj' h rfl
      exact .inr ⟨c, by rw [List.singleton_inj.mp hz], hl⟩
  · rintro (⟨rfl, rfl, rfl⟩ | ⟨c, rfl, rfl⟩) <;> simp

/-! ## What was allowed -/

/-- Each happening was allowed by those before it. -/
def Justified (ok : List α → α → Prop) (l : List α) : Prop :=
  ∀ a x b, l = a ++ x :: b → ok a x

variable {ok : List α → α → Prop}

theorem justified_nil : Justified ok [] := by
  intro a x b h
  simp at h

theorem justified_concat {l : List α} {x : α} :
    Justified ok (l ++ [x]) ↔ Justified ok l ∧ ok l x := by
  constructor
  · intro h
    exact ⟨fun a y b hl => h a y (b ++ [x]) (by rw [hl]; simp), h l x [] rfl⟩
  · rintro ⟨h, hx⟩ a y b hl
    rcases concat_eq_append_cons.mp hl with ⟨rfl, rfl, -⟩ | ⟨c, -, hl⟩
    · exact hx
    · exact h a y c hl

/-- What is always allowed may be appended. -/
theorem Justified.append {l b : List α} (h : Justified ok l) (hb : ∀ x ∈ b, ∀ a, ok a x) :
    Justified ok (l ++ b) := by
  induction b using List.reverseRecOn with
  | nil => simpa using h
  | append_singleton b x ih =>
    rw [← List.append_assoc, justified_concat]
    exact ⟨ih fun y hy => hb y (List.mem_append_left _ hy), hb x (by simp) _⟩

/-- Of two happenings, one came before the other. -/
theorem before_or_before {l : List α} {x y : α} (hx : x ∈ l) (hy : y ∈ l) (hne : x ≠ y) :
    (∃ a b, l = a ++ y :: b ∧ x ∈ a) ∨ ∃ a b, l = a ++ x :: b ∧ y ∈ a := by
  obtain ⟨a, b, rfl⟩ := List.append_of_mem hx
  rcases List.mem_append.mp hy with hy | hy
  · exact .inr ⟨a, b, rfl, hy⟩
  · rcases List.mem_cons.mp hy with rfl | hy
    · exact absurd rfl hne
    · obtain ⟨c, d, rfl⟩ := List.append_of_mem hy
      exact .inl ⟨a ++ x :: c, d, by simp, by simp⟩

theorem Justified.of_mem {l : List α} (h : Justified ok l) {x : α} (hx : x ∈ l) :
    ∃ a b, l = a ++ x :: b ∧ ok a x := by
  obtain ⟨a, b, rfl⟩ := List.append_of_mem hx
  exact ⟨a, b, rfl, h a x b rfl⟩

/-! ## What is open -/

/-- Something happened that nothing closed since. -/
def Open (opens closes : α → Prop) (l : List α) : Prop :=
  ∃ a x b, l = a ++ x :: b ∧ opens x ∧ ∀ y ∈ b, ¬ closes y

variable {opens closes : α → Prop}

theorem not_open_nil : ¬ Open opens closes [] := by
  rintro ⟨a, x, b, h, -⟩
  simp at h

theorem open_concat {l : List α} {x : α} :
    Open opens closes (l ++ [x]) ↔ opens x ∨ Open opens closes l ∧ ¬ closes x := by
  constructor
  · rintro ⟨a, y, b, h, hy, hb⟩
    rcases concat_eq_append_cons.mp h with ⟨-, rfl, -⟩ | ⟨c, rfl, hl⟩
    · exact .inl hy
    · refine .inr ⟨⟨a, y, c, hl, hy, fun z hz => hb z (List.mem_append_left _ hz)⟩, ?_⟩
      exact hb x (by simp)
  · rintro (hx | ⟨⟨a, y, b, rfl, hy, hb⟩, hx⟩)
    · exact ⟨l, x, [], rfl, hx, by simp⟩
    · refine ⟨a, y, b ++ [x], by simp, hy, fun z hz => ?_⟩
      rcases List.mem_append.mp hz with hz | hz
      · exact hb z hz
      · rwa [List.mem_singleton.mp hz]

/-- What neither opens nor closes may be appended. -/
theorem open_append {l b : List α} (hopens : ∀ x ∈ b, ¬ opens x) (hcloses : ∀ x ∈ b, ¬ closes x) :
    Open opens closes (l ++ b) ↔ Open opens closes l := by
  induction b using List.reverseRecOn with
  | nil => simp
  | append_singleton b x ih =>
    rw [← List.append_assoc, open_concat, ih (fun y hy => hopens y (List.mem_append_left _ hy))
      fun y hy => hcloses y (List.mem_append_left _ hy)]
    simp [hopens x (by simp), hcloses x (by simp)]

theorem Open.mem {l : List α} (h : Open opens closes l) : ∃ x ∈ l, opens x := by
  obtain ⟨a, x, b, rfl, hx, -⟩ := h
  exact ⟨x, by simp, hx⟩

/-! ## What was answered -/

/-- What a happening called for, given those before it, came right after it. -/
def Answered (due : List α → α → α → Prop) (l : List α) : Prop :=
  ∀ a x b y, l = a ++ x :: b → due a x y → ∃ c, b = y :: c

variable {due : List α → α → α → Prop}

theorem answered_nil : Answered due [] := by
  intro a x b y h
  simp at h

/-- A happening that calls for nothing. -/
theorem answered_concat {l : List α} {x : α} (h : Answered due l) (hx : ∀ y, ¬ due l x y) :
    Answered due (l ++ [x]) := by
  intro a z b y hl hdue
  rcases concat_eq_append_cons.mp hl with ⟨rfl, rfl, -⟩ | ⟨c, rfl, hc⟩
  · exact absurd hdue (hx y)
  · obtain ⟨d, rfl⟩ := h a z c y hc hdue
    exact ⟨d ++ [x], rfl⟩

/-- A happening with the answer it calls for. -/
theorem answered_concat_pair {l : List α} {x y : α} (h : Answered due l)
    (hx : ∀ z, due l x z → z = y) (hy : ∀ z, ¬ due (l ++ [x]) y z) :
    Answered due (l ++ [x] ++ [y]) := by
  intro a z b w hl hdue
  rcases concat_eq_append_cons.mp hl with ⟨rfl, rfl, -⟩ | ⟨c, rfl, hc⟩
  · exact absurd hdue (hy w)
  · rcases concat_eq_append_cons.mp hc with ⟨rfl, rfl, hnil⟩ | ⟨d, rfl, hd⟩
    · exact ⟨[], by rw [hnil, hx w hdue]; rfl⟩
    · obtain ⟨e, rfl⟩ := h a z d w hd hdue
      exact ⟨e ++ [x] ++ [y], by simp⟩

end Program
