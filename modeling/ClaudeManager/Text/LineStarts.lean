import Mathlib

/-!
# Lines and where they start

* `linesAt` — the lines of a sequence, each with its start
* `linesAt_append` — whole lines, and what follows them
* `linesAt_behind` — the lines that start behind a position are those behind the next line end
* `complete_append` — just the last line may lack its end
-/

namespace Text

variable {α : Type} [DecidableEq α] {nl : α} {p w : Nat} {a b l : List α}

/-- The lines of a sequence that starts at `p`, each with its line end and its start. -/
def linesAt (nl : α) : Nat → List α → List (Nat × List α)
  | _, [] => []
  | p, c :: rest =>
    if c = nl then (p, [c]) :: linesAt nl (p + 1) rest
    else match linesAt nl (p + 1) rest with
      | [] => [(p, [c])]
      | (_, line) :: lines => (p, c :: line) :: lines

/-- The line has its end. -/
def complete (nl : α) (line : List α) : Bool := line.getLast? = some nl

/-- A sequence that is empty or ends with a line. -/
def Whole (nl : α) (a : List α) : Prop := a = [] ∨ a.getLast? = some nl

/-- What is behind the first line end. -/
def behind (nl : α) (b : List α) : List α := (b.dropWhile (· ≠ nl)).tail

/-! ## Starts -/

theorem linesAt_spec (nl : α) (p : Nat) (b : List α) :
    (linesAt nl p b).Pairwise (fun x y => x.1 < y.1) ∧ (∀ x ∈ (linesAt nl p b).head?, x.1 = p) ∧
      ∀ x ∈ linesAt nl p b, p ≤ x.1 ∧ x.1 < p + b.length := by
  induction b generalizing p with
  | nil => simp [linesAt]
  | cons c rest ih =>
    obtain ⟨hsorted, hhead, hrange⟩ := ih (p + 1)
    unfold linesAt
    split
    · refine ⟨List.pairwise_cons.mpr ⟨fun x hx => ?_, hsorted⟩, by simp, fun x hx => ?_⟩
      · have := (hrange x hx).1
        omega
      · rcases List.mem_cons.mp hx with rfl | hx
        · simp
        · have := hrange x hx
          simp only [List.length_cons]
          omega
    · cases h : linesAt nl (p + 1) rest with
      | nil => simp
      | cons x lines =>
        rw [h] at hsorted hhead hrange
        have hx : x.1 = p + 1 := hhead x rfl
        refine ⟨List.pairwise_cons.mpr ⟨fun y hy => ?_, (List.pairwise_cons.mp hsorted).2⟩, by simp,
          fun y hy => ?_⟩
        · have := (List.pairwise_cons.mp hsorted).1 y hy
          show p < y.1
          omega
        · simp only [List.length_cons]
          rcases List.mem_cons.mp hy with rfl | hy
          · simp
          · have := hrange y (List.mem_cons_of_mem x hy)
            omega

theorem start_mem {x : Nat × List α} (h : x ∈ linesAt nl p b) : p ≤ x.1 ∧ x.1 < p + b.length :=
  (linesAt_spec nl p b).2.2 x h

theorem linesAt_ne_nil {c : α} {rest : List α} : linesAt nl p (c :: rest) ≠ [] := by
  unfold linesAt
  split
  · simp
  · split <;> simp

theorem flatten_linesAt (nl : α) (p : Nat) (b : List α) :
    ((linesAt nl p b).map Prod.snd).flatten = b := by
  induction b generalizing p with
  | nil => rfl
  | cons c rest ih =>
    have ih := ih (p + 1)
    unfold linesAt
    split
    · simp [ih]
    · cases h : linesAt nl (p + 1) rest with
      | nil =>
        rw [h] at ih
        simpa using ih
      | cons x lines =>
        rw [h] at ih
        simpa using ih

theorem linesAt_snd (p q : Nat) (b : List α) :
    (linesAt nl p b).map Prod.snd = (linesAt nl q b).map Prod.snd := by
  induction b generalizing p q with
  | nil => rfl
  | cons c rest ih =>
    have ih := ih (p + 1) (q + 1)
    rw [linesAt, linesAt]
    split
    · rw [List.map_cons, List.map_cons, ih]
    · cases hp : linesAt nl (p + 1) rest with
      | nil =>
        cases hq : linesAt nl (q + 1) rest with
        | nil => rfl
        | cons y ys => rw [hp, hq] at ih; cases ih
      | cons x xs =>
        cases hq : linesAt nl (q + 1) rest with
        | nil => rw [hp, hq] at ih; cases ih
        | cons y ys =>
          rw [hp, hq, List.map_cons, List.map_cons] at ih
          obtain ⟨hline, hlines⟩ := List.cons.inj ih
          simp only [List.map_cons, hline, hlines]

/-- Each line starts where the one before it ends. -/
def Chained : Nat → List (Nat × List α) → Prop
  | _, [] => True
  | p, x :: l => x.1 = p ∧ Chained (p + x.2.length) l

omit [DecidableEq α] in
theorem Chained.le {l : List (Nat × List α)} (h : Chained p l) : ∀ x ∈ l, p ≤ x.1 := by
  induction l generalizing p with
  | nil => simp
  | cons y l ih =>
    intro x hx
    rcases List.mem_cons.mp hx with rfl | hx
    · exact h.1.ge
    · have := ih h.2 x hx
      omega

theorem chained_linesAt (nl : α) (p : Nat) (b : List α) : Chained p (linesAt nl p b) := by
  induction b generalizing p with
  | nil => trivial
  | cons c rest ih =>
    have ih := ih (p + 1)
    rw [linesAt]
    split
    · exact ⟨rfl, ih⟩
    · cases h : linesAt nl (p + 1) rest with
      | nil => exact ⟨rfl, trivial⟩
      | cons x lines =>
        rw [h] at ih
        refine ⟨rfl, ?_⟩
        have hend : p + (c :: x.2).length = p + 1 + x.2.length := by
          simp only [List.length_cons]
          omega
        show Chained (p + (c :: x.2).length) lines
        rw [hend]
        exact ih.2

/-! ## Cutting -/

/-- Whole lines, and then those of what follows. -/
theorem linesAt_append (ha : Whole nl a) :
    linesAt nl p (a ++ b) = linesAt nl p a ++ linesAt nl (p + a.length) b := by
  induction a generalizing p with
  | nil => rfl
  | cons c rest ih =>
    have hlen : p + (c :: rest).length = p + 1 + rest.length := by
      simp only [List.length_cons]
      omega
    have hrest : Whole nl rest := by
      rcases ha with h | h
      · cases h
      · cases rest with
        | nil => exact .inl rfl
        | cons d rest => exact .inr (by simpa using h)
    rw [List.cons_append, hlen]
    by_cases hc : c = nl
    · rw [linesAt, linesAt, if_pos hc, if_pos hc, ih hrest, List.cons_append]
    · have hne : rest ≠ [] := by
        rintro rfl
        rcases ha with h | h
        · cases h
        · exact hc (by simpa using h)
      obtain ⟨d, rest, rfl⟩ := List.exists_cons_of_ne_nil hne
      rw [linesAt, linesAt, if_neg hc, if_neg hc, ih hrest]
      cases h : linesAt nl (p + 1) (d :: rest) with
      | nil => exact absurd h linesAt_ne_nil
      | cons x lines => rfl

theorem behind_length_lt (nl : α) (hb : b ≠ []) : (behind nl b).length < b.length := by
  unfold behind
  rw [List.length_tail]
  have hle := (List.dropWhile_sublist (l := b) (· ≠ nl)).length_le
  have hpos := List.length_pos_of_ne_nil hb
  omega

theorem behind_suffix (nl : α) (b : List α) : behind nl b <:+ b :=
  (List.tail_suffix _).trans (List.dropWhile_suffix _)

/-- The first line, and the lines behind it. -/
theorem linesAt_cons (nl : α) (p : Nat) (hb : b ≠ []) : ∃ line, linesAt nl p b
    = (p, line) :: linesAt nl (p + b.length - (behind nl b).length) (behind nl b) := by
  induction b generalizing p with
  | nil => exact absurd rfl hb
  | cons c rest ih =>
    rw [linesAt]
    by_cases hc : c = nl
    · have hbehind : behind nl (c :: rest) = rest := by
        unfold behind
        rw [List.dropWhile_cons_of_neg (by simp [hc]), List.tail_cons]
      have hstart : p + (c :: rest).length - rest.length = p + 1 := by
        simp only [List.length_cons]
        omega
      rw [if_pos hc, hbehind, hstart]
      exact ⟨[c], rfl⟩
    · have hbehind : behind nl (c :: rest) = behind nl rest := by
        unfold behind
        rw [List.dropWhile_cons_of_pos (by simp [hc])]
      have hstart : p + (c :: rest).length - (behind nl rest).length
          = p + 1 + rest.length - (behind nl rest).length := by
        simp only [List.length_cons]
        omega
      rw [if_neg hc, hbehind, hstart]
      cases rest with
      | nil => exact ⟨[c], rfl⟩
      | cons d rest =>
        obtain ⟨line, h⟩ := ih (p + 1) (by simp)
        rw [h]
        exact ⟨c :: line, rfl⟩

/-- A line does not start behind the position after its first character. -/
theorem filter_linesAt_cons {c : α} {rest : List α} (h : p < w) :
    (linesAt nl p (c :: rest)).filter (fun x => w < x.1)
      = (linesAt nl (p + 1) rest).filter (fun x => w < x.1) := by
  rw [linesAt]
  split
  · rw [List.filter_cons_of_neg (by simp only [decide_eq_true_eq]; omega)]
  · have hhead := (linesAt_spec nl (p + 1) rest).2.1
    cases hlines : linesAt nl (p + 1) rest with
    | nil =>
      have hw : ¬ decide (w < p) = true := by
        rw [decide_eq_true_eq]
        omega
      exact List.filter_cons_of_neg hw
    | cons x lines =>
      have hx : x.1 = p + 1 := hhead x (by rw [hlines]; rfl)
      rw [List.filter_cons_of_neg (by simp only [decide_eq_true_eq]; omega),
        List.filter_cons_of_neg (by simp only [decide_eq_true_eq]; omega)]

/-- The lines that start behind a position are those behind the next line end. -/
theorem linesAt_behind (nl : α) (p : Nat) (hw : w ≤ b.length) : (linesAt nl p b).filter (fun x => p + w < x.1)
    = linesAt nl (p + b.length - (behind nl (b.drop w)).length) (behind nl (b.drop w)) := by
  induction w generalizing p b with
  | zero =>
    rw [List.drop_zero]
    by_cases hb : b = []
    · subst hb
      rfl
    · obtain ⟨line, h⟩ := linesAt_cons nl p hb
      rw [h, List.filter_cons_of_neg (by simp)]
      have hlen := behind_length_lt nl hb
      refine List.filter_eq_self.mpr fun x hx => decide_eq_true ?_
      have := (start_mem hx).1
      omega
  | succ w ih =>
    cases b with
    | nil => simp at hw
    | cons c rest =>
      have hlen : p + (c :: rest).length = p + 1 + rest.length := by
        simp only [List.length_cons]
        omega
      have hpos : p + (w + 1) = p + 1 + w := by omega
      rw [List.drop_succ_cons, hlen, hpos, filter_linesAt_cons (by omega)]
      exact ih (p + 1) (by simpa using hw)

/-! ## Complete lines -/

/-- Up to the last line end. -/
def wholePart (nl : α) (b : List α) : List α := (b.reverse.dropWhile (· ≠ nl)).reverse

/-- What is behind the last line end. -/
def lastPart (nl : α) (b : List α) : List α := (b.reverse.takeWhile (· ≠ nl)).reverse

theorem wholePart_append_lastPart (nl : α) (b : List α) : wholePart nl b ++ lastPart nl b = b := by
  unfold wholePart lastPart
  rw [← List.reverse_append, List.takeWhile_append_dropWhile, List.reverse_reverse]

theorem whole_wholePart (nl : α) (b : List α) : Whole nl (wholePart nl b) := by
  unfold Whole wholePart
  rw [List.reverse_eq_nil_iff, List.getLast?_reverse]
  cases h : b.reverse.dropWhile (· ≠ nl) with
  | nil => exact .inl rfl
  | cons c rest =>
    have hc := List.head?_dropWhile_not (fun x => decide (x ≠ nl)) b.reverse
    rw [h] at hc
    exact .inr (by simpa using hc)

theorem notMem_lastPart (nl : α) (b : List α) : nl ∉ lastPart nl b := by
  unfold lastPart
  rw [List.mem_reverse]
  intro h
  simpa using List.mem_takeWhile_imp h

theorem complete_of_whole (ha : Whole nl a) : ∀ x ∈ linesAt nl p a, complete nl x.2 = true := by
  induction a generalizing p with
  | nil => simp [linesAt]
  | cons c rest ih =>
    have hrest : Whole nl rest := by
      rcases ha with h | h
      · cases h
      · cases rest with
        | nil => exact .inl rfl
        | cons d rest => exact .inr (by simpa using h)
    have ih := ih (p := p + 1) hrest
    intro x hx
    rw [linesAt] at hx
    split at hx
    · next hc =>
      rcases List.mem_cons.mp hx with rfl | hx
      · simp [complete, hc]
      · exact ih x hx
    · next hc =>
      cases hlines : linesAt nl (p + 1) rest with
      | nil =>
        cases rest with
        | nil =>
          rcases ha with h | h
          · cases h
          · exact absurd (by simpa using h) hc
        | cons d rest => exact absurd hlines linesAt_ne_nil
      | cons y lines =>
        rw [hlines] at hx ih
        rcases List.mem_cons.mp hx with rfl | hx
        · have hy := ih y List.mem_cons_self
          have hne : y.2 ≠ [] := by
            intro hne
            simp [complete, hne] at hy
          obtain ⟨d, line, hline⟩ := List.exists_cons_of_ne_nil hne
          simpa [complete, hline] using hy
        · exact ih x (List.mem_cons_of_mem y hx)

theorem linesAt_plain (h : nl ∉ a) : linesAt nl p a = if a = [] then [] else [(p, a)] := by
  induction a generalizing p with
  | nil => rfl
  | cons c rest ih =>
    obtain ⟨hc, hrest⟩ := not_or.mp (List.mem_cons.not.mp h)
    rw [linesAt, if_neg (fun he => hc he.symm), ih hrest, if_neg (List.cons_ne_nil c rest)]
    by_cases hnil : rest = []
    · rw [if_pos hnil, hnil]
    · rw [if_neg hnil]

theorem linesAt_parts (nl : α) (p : Nat) (b : List α) : linesAt nl p b
    = linesAt nl p (wholePart nl b)
      ++ linesAt nl (p + (wholePart nl b).length) (lastPart nl b) := by
  rw [← linesAt_append (whole_wholePart nl b), wholePart_append_lastPart]

theorem incomplete_lastPart : ∀ x ∈ linesAt nl p (lastPart nl b), complete nl x.2 = false := by
  intro x hx
  have hplain := notMem_lastPart nl b
  rw [linesAt_plain hplain] at hx
  split at hx
  · cases hx
  · rw [List.mem_singleton.mp hx]
    refine decide_eq_false fun h => hplain (List.mem_of_getLast? h)

theorem filter_complete (nl : α) (p : Nat) (b : List α) :
    (linesAt nl p b).filter (fun x => complete nl x.2) = linesAt nl p (wholePart nl b) := by
  rw [linesAt_parts, List.filter_append,
    List.filter_eq_self.mpr (complete_of_whole (whole_wholePart nl b)),
    List.filter_eq_nil_iff.mpr fun x hx => by simp [incomplete_lastPart x hx], List.append_nil]

theorem filter_incomplete (nl : α) (p : Nat) (b : List α) :
    (linesAt nl p b).filter (fun x => !complete nl x.2)
      = linesAt nl (p + (wholePart nl b).length) (lastPart nl b) := by
  rw [linesAt_parts, List.filter_append,
    List.filter_eq_nil_iff.mpr fun x hx => by simp [complete_of_whole (whole_wholePart nl b) x hx],
    List.filter_eq_self.mpr fun x hx => by simp [incomplete_lastPart x hx], List.nil_append]

/-- Just the last line may lack its end. -/
theorem complete_append (nl : α) (p : Nat) (b : List α) :
    (linesAt nl p b).filter (fun x => complete nl x.2)
      ++ (linesAt nl p b).filter (fun x => !complete nl x.2) = linesAt nl p b := by
  rw [filter_complete, filter_incomplete, ← linesAt_parts]

end Text
