import Mathlib

/-!
# Trimming

* `trim` — a list without what a condition holds of at its ends
* `trim_trim` — trimming by less first changes nothing
-/

namespace Text

variable {α : Type} {p q : α → Bool} {a b l m : List α}

/-- What a condition holds of at both ends is left out. -/
def trim (p : α → Bool) (l : List α) : List α := ((l.dropWhile p).reverse.dropWhile p).reverse

/-- Neither end meets the condition. -/
def Bare (p : α → Bool) (l : List α) : Prop :=
  (∀ c ∈ l.head?, p c = false) ∧ ∀ c ∈ l.getLast?, p c = false

theorem dropWhile_all (h : ∀ c ∈ a, p c = true) : (a ++ l).dropWhile p = l.dropWhile p := by
  induction a with
  | nil => rfl
  | cons c a ih =>
    rw [List.cons_append, List.dropWhile_cons_of_pos (h c List.mem_cons_self)]
    exact ih fun d hd => h d (List.mem_cons_of_mem c hd)

theorem dropWhile_bare (h : ∀ c ∈ l.head?, p c = false) : l.dropWhile p = l := by
  cases l with
  | nil => rfl
  | cons c l => exact List.dropWhile_cons_of_neg (by simp [h c rfl])

theorem bare_reverse (h : Bare p l) : Bare p l.reverse :=
  ⟨fun c hc => h.2 c (List.head?_reverse ▸ hc), fun c hc => h.1 c (List.getLast?_reverse ▸ hc)⟩

theorem trim_append (p : α → Bool) (l : List α) :
    trim p l ++ ((l.dropWhile p).reverse.takeWhile p).reverse = l.dropWhile p := by
  unfold trim
  rw [← List.reverse_append, List.takeWhile_append_dropWhile, List.reverse_reverse]

theorem trim_split (p : α → Bool) (l : List α) :
    ∃ a b, l = a ++ trim p l ++ b ∧ (∀ c ∈ a, p c = true) ∧ ∀ c ∈ b, p c = true := by
  refine ⟨l.takeWhile p, ((l.dropWhile p).reverse.takeWhile p).reverse, ?_,
    fun c hc => List.mem_takeWhile_imp hc,
    fun c hc => List.mem_takeWhile_imp (List.mem_reverse.mp hc)⟩
  rw [List.append_assoc, trim_append, List.takeWhile_append_dropWhile]

theorem head_dropWhile (p : α → Bool) (l : List α) : ∀ c ∈ (l.dropWhile p).head?, p c = false := by
  intro c hc
  have h := List.head?_dropWhile_not p l
  rw [Option.mem_def.mp hc] at h
  simpa using h

theorem bare_trim (p : α → Bool) (l : List α) : Bare p (trim p l) := by
  refine ⟨fun c hc => head_dropWhile p l c ?_, fun c hc => ?_⟩
  · have hne : trim p l ≠ [] := by
      intro he
      rw [he] at hc
      cases hc
    rw [← trim_append, List.head?_append_of_ne_nil _ hne]
    exact hc
  · unfold trim at hc
    rw [List.getLast?_reverse] at hc
    exact head_dropWhile p _ c hc

theorem trim_eq (ha : ∀ c ∈ a, p c = true) (hb : ∀ c ∈ b, p c = true) (hm : Bare p m) :
    trim p (a ++ m ++ b) = m := by
  unfold trim
  rw [List.append_assoc, dropWhile_all ha]
  by_cases hne : m = []
  · subst hne
    rw [List.nil_append, ← List.append_nil b, dropWhile_all hb]
    rfl
  · rw [dropWhile_bare (l := m ++ b) fun c hc => hm.1 c (List.head?_append_of_ne_nil m hne ▸ hc),
      List.reverse_append, dropWhile_all fun c hc => hb c (List.mem_reverse.mp hc),
      dropWhile_bare (bare_reverse hm).1, List.reverse_reverse]

theorem trim_eq_self_iff : trim p l = l ↔ Bare p l := by
  constructor
  · intro h
    rw [← h]
    exact bare_trim p l
  · intro h
    have htrim := trim_eq (a := []) (b := []) (by simp) (by simp) h
    rwa [List.nil_append, List.append_nil] at htrim

/-- Trimming by less first changes nothing. -/
theorem trim_trim (h : ∀ c, q c = true → p c = true) : trim p (trim q l) = trim p l := by
  obtain ⟨a, b, hl, ha, hb⟩ := trim_split q l
  obtain ⟨a', b', hm, ha', hb'⟩ := trim_split p (trim q l)
  have hall : l = (a ++ a') ++ trim p (trim q l) ++ (b' ++ b) := by
    calc l = a ++ trim q l ++ b := hl
      _ = a ++ (a' ++ trim p (trim q l) ++ b') ++ b := by rw [← hm]
      _ = _ := by simp only [List.append_assoc]
  conv_rhs => rw [hall]
  symm
  refine trim_eq (fun c hc => ?_) (fun c hc => ?_) (bare_trim p _)
  · rcases List.mem_append.mp hc with hc | hc
    · exact h c (ha c hc)
    · exact ha' c hc
  · rcases List.mem_append.mp hc with hc | hc
    · exact hb' c hc
    · exact h c (hb c hc)

end Text
