import Mathlib

/-!
# Lines of a text

* `splitInclusive` — the lines of a text, each with its newline
* `lines` — the lines without what ends them
* `lines_append` — a text that ends with a line, and one after it
-/

namespace Text

/-- The lines of a text, each with its newline. The last one may lack it. -/
def splitInclusive : List Char → List (List Char)
  | [] => []
  | c :: rest =>
    if c = '\n' then [c] :: splitInclusive rest
    else match splitInclusive rest with
      | [] => [[c]]
      | line :: lines => (c :: line) :: lines

/-- A newline ends the line, or the line has none. -/
def IsLine (line : List Char) : Prop := line ≠ [] ∧ '\n' ∉ line.dropLast

/-- The line has its newline. -/
def endsLine (line : List Char) : Bool := line.getLast? = some '\n'

theorem flatten_splitInclusive : ∀ text, (splitInclusive text).flatten = text
  | [] => rfl
  | c :: rest => by
    have ih := flatten_splitInclusive rest
    unfold splitInclusive
    split
    · rw [List.flatten_cons, ih]
      rfl
    · split <;> rename_i hrest <;> rw [hrest] at ih <;> simpa using ih

theorem splitInclusive_ne_nil {c : Char} {rest : List Char} : splitInclusive (c :: rest) ≠ [] := by
  unfold splitInclusive
  split
  · simp
  · split <;> simp

theorem isLine_of_mem {line : List Char} : ∀ {text}, line ∈ splitInclusive text → IsLine line
  | [], h => by cases h
  | c :: rest, h => by
    unfold splitInclusive at h
    split at h
    · rcases List.mem_cons.mp h with rfl | h
      · exact ⟨by simp, by simp⟩
      · exact isLine_of_mem h
    · rename_i hc
      split at h
      · rw [List.mem_singleton.mp h]
        exact ⟨by simp, by simp⟩
      · rename_i first lines hrest
        have hlines : ∀ l ∈ first :: lines, IsLine l := fun l hl =>
          @isLine_of_mem l rest (hrest ▸ hl)
        rcases List.mem_cons.mp h with rfl | h
        · obtain ⟨hne, hnewline⟩ := hlines first List.mem_cons_self
          refine ⟨by simp, ?_⟩
          rw [List.dropLast_cons_of_ne_nil hne, List.mem_cons, not_or]
          exact ⟨fun h => hc h.symm, hnewline⟩
        · exact hlines line (List.mem_cons_of_mem first h)

/-- A line with its newline, before anything, is the first line. -/
theorem splitInclusive_append {line rest : List Char} (hline : IsLine line)
    (hends : endsLine line = true) : splitInclusive (line ++ rest) = line :: splitInclusive rest := by
  induction line with
  | nil => exact absurd rfl hline.1
  | cons c line ih =>
    rw [List.cons_append, splitInclusive]
    cases line with
    | nil =>
      have hc : c = '\n' := by simpa [endsLine] using hends
      rw [if_pos hc, List.nil_append, hc]
    | cons d line =>
      have hc : c ≠ '\n' := by
        intro hc
        exact hline.2 (by simp [hc])
      have htail : IsLine (d :: line) := ⟨by simp, fun h => hline.2 (by simp [h])⟩
      rw [if_neg hc, ih htail (by simpa [endsLine] using hends)]

/-- The lines of a text that ends with a line, and then those of what follows. -/
theorem splitInclusive_newline (a b : List Char) :
    splitInclusive (a ++ '\n' :: b) = splitInclusive (a ++ ['\n']) ++ splitInclusive b := by
  induction a with
  | nil => rfl
  | cons c a ih =>
    rw [List.cons_append, List.cons_append, splitInclusive, splitInclusive]
    by_cases hc : c = '\n'
    · rw [if_pos hc, if_pos hc, ih]
      rfl
    · rw [if_neg hc, if_neg hc, ih]
      cases hfirst : splitInclusive (a ++ ['\n']) with
      | nil =>
        have hne : splitInclusive (a ++ ['\n']) ≠ [] := by
          cases a with
          | nil => exact splitInclusive_ne_nil
          | cons d a => exact splitInclusive_ne_nil
        exact absurd hfirst hne
      | cons line rest => rfl

/-- `str::lines`: a line feed ends a line, with a carriage return before it. -/
def stripLine (line : List Char) : List Char :=
  if line.getLast? = some '\n' then
    if line.dropLast.getLast? = some '\r' then line.dropLast.dropLast else line.dropLast
  else line

def lines (text : List Char) : List (List Char) := (splitInclusive text).map stripLine

theorem lines_newline (a b : List Char) : lines (a ++ '\n' :: b) = lines (a ++ ['\n']) ++ lines b := by
  unfold lines
  rw [splitInclusive_newline, List.map_append]

/-- A text that is empty or ends with a line. -/
def WholeLines (text : List Char) : Prop := text = [] ∨ ∃ a, text = a ++ ['\n']

theorem lines_append {a b : List Char} (h : WholeLines a) : lines (a ++ b) = lines a ++ lines b := by
  obtain rfl | ⟨a, rfl⟩ := h
  · rfl
  · rw [List.append_assoc]
    exact lines_newline a b

/-- The text up to its last line feed, and what follows it. -/
def splitLast (text : List Char) : List Char × List Char :=
  let tail := (text.reverse.takeWhile (· ≠ '\n')).reverse
  (text.take (text.length - tail.length), tail)

theorem splitLast_append (text : List Char) : (splitLast text).1 ++ (splitLast text).2 = text := by
  unfold splitLast
  have hparts := List.takeWhile_append_dropWhile (p := (· ≠ '\n')) (l := text.reverse)
  have htext : (text.reverse.dropWhile (· ≠ '\n')).reverse ++ (text.reverse.takeWhile (· ≠ '\n')).reverse
      = text := by
    rw [← List.reverse_append, hparts, List.reverse_reverse]
  generalize (text.reverse.takeWhile (· ≠ '\n')).reverse = tail at htext ⊢
  generalize (text.reverse.dropWhile (· ≠ '\n')).reverse = front at htext
  subst htext
  simp

theorem splitLast_whole (text : List Char) : WholeLines (splitLast text).1 := by
  have hsplit : (splitLast text).1 = (text.reverse.dropWhile (· ≠ '\n')).reverse := by
    have happend := splitLast_append text
    have htext : (text.reverse.dropWhile (· ≠ '\n')).reverse ++ (splitLast text).2 = text := by
      unfold splitLast
      rw [← List.reverse_append, List.takeWhile_append_dropWhile, List.reverse_reverse]
    exact List.append_cancel_right (happend.trans htext.symm)
  rw [hsplit]
  cases hd : text.reverse.dropWhile (· ≠ '\n') with
  | nil => exact .inl rfl
  | cons c rest =>
    have hc : c = '\n' := by
      have h := List.head?_dropWhile_not (· ≠ '\n') text.reverse
      rw [hd] at h
      simpa using h
    exact .inr ⟨rest.reverse, by rw [List.reverse_cons, hc]⟩

end Text
