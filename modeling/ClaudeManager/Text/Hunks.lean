import Mathlib
import ClaudeManager.Text.Lines

/-!
# Hunks of a unified diff

* `parseHunk` — the ranges and the marked lines of a hunk
* `Hunk.apply` — a hunk replaces the lines that it finds where it says
* `parseHunk_write` — a hunk that is written out is read back

A hunk is `@@ -start,count +start,count @@` and its lines, each after a mark. A line that ends the
text without a newline has a marker line after it.
-/

namespace Text

/-! ## Hunks -/

inductive Mark where
  | context
  | removed
  | added
  deriving DecidableEq

def Mark.char : Mark → Char
  | .context => ' '
  | .removed => '-'
  | .added => '+'

/-- The other direction's mark. -/
def Mark.reverse : Mark → Mark
  | .context => .context
  | .removed => .added
  | .added => .removed

def Mark.ofChar (c : Char) : Option Mark :=
  if c = ' ' then some .context
  else if c = '-' then some .removed
  else if c = '+' then some .added
  else none

/-- A run of lines of the old text, and the lines that stand for it in the new one. -/
structure Hunk where
  oldStart : Nat
  oldCount : Nat
  newStart : Nat
  newCount : Nat
  lines : List (Mark × List Char)
  deriving DecidableEq

namespace Hunk

/-- The lines of one side. -/
def oldSide (h : Hunk) : List (List Char) :=
  (h.lines.filter fun l => l.1 ≠ .added).map Prod.snd

def newSide (h : Hunk) : List (List Char) :=
  (h.lines.filter fun l => l.1 ≠ .removed).map Prod.snd

/-- The same change, from the new text to the old one. -/
def reverse (h : Hunk) : Hunk where
  oldStart := h.newStart
  oldCount := h.newCount
  newStart := h.oldStart
  newCount := h.oldCount
  lines := h.lines.map fun l => (l.1.reverse, l.2)

/-- How many lines come before a range. An empty range gives the line before it. -/
def before (start count : Nat) : Option Nat :=
  if count = 0 then some start else if start = 0 then none else some (start - 1)

/-- The hunk applies to a text that has the old side's lines where it says; these give way to the
new side's. -/
def apply (h : Hunk) (text : List Char) : Option (List Char) := do
  let lines := splitInclusive text
  let k ← before h.oldStart h.oldCount
  if before h.newStart h.newCount = some k ∧ h.oldSide.length = h.oldCount
      ∧ h.newSide.length = h.newCount ∧ k ≤ lines.length
      ∧ (lines.drop k).take h.oldCount = h.oldSide then
    some (lines.take k ++ h.newSide ++ lines.drop (k + h.oldCount)).flatten
  else none

end Hunk

/-! ## Reading a hunk -/

/-- What follows a fixed text. -/
def stripPrefix (fixed : List Char) (text : List Char) : Option (List Char) :=
  if fixed.isPrefixOf text then some (text.drop fixed.length) else none

/-- A decimal number, and what follows it. -/
def parseNumber (text : List Char) : Option (Nat × List Char) :=
  let digits := text.takeWhile Char.isDigit
  if digits = [] then none else some (Nat.ofDigitChars 10 digits 0, text.drop digits.length)

/-- `start,count` -/
def parseRange (text : List Char) : Option ((Nat × Nat) × List Char) := do
  let (start, rest) ← parseNumber text
  let rest ← stripPrefix [','] rest
  let (count, rest) ← parseNumber rest
  return ((start, count), rest)

/-- The marked lines of a hunk. A marker line takes the newline from the line before it. -/
def parseBody : List (List Char) → Option (List (Mark × List Char))
  | [] => some []
  | (c :: line) :: ('\\' :: _) :: rest => do
    let mark ← Mark.ofChar c
    let lines ← parseBody rest
    return (mark, line.dropLast) :: lines
  | (c :: line) :: rest => do
    let mark ← Mark.ofChar c
    let lines ← parseBody rest
    return (mark, line) :: lines
  | [] :: _ => none

def parseHunk (text : List Char) : Option Hunk := do
  let rest ← stripPrefix "@@ -".toList text
  let (old, rest) ← parseRange rest
  let rest ← stripPrefix " +".toList rest
  let (new, rest) ← parseRange rest
  let rest ← stripPrefix " @@\n".toList rest
  let lines ← parseBody (splitInclusive rest)
  return ⟨old.1, old.2, new.1, new.2, lines⟩

/-! ## Writing a hunk -/

def noNewline : List Char := "\\ No newline at end of file\n".toList

/-- A marked line, with the marker line after it where it lacks its newline. -/
def writeLine (l : Mark × List Char) : List Char :=
  l.1.char :: l.2 ++ if endsLine l.2 then [] else '\n' :: noNewline

def writeRange (start count : Nat) : List Char :=
  Nat.toDigits 10 start ++ ',' :: Nat.toDigits 10 count

def writeHunk (h : Hunk) : List Char :=
  "@@ -".toList ++ writeRange h.oldStart h.oldCount ++ " +".toList ++ writeRange h.newStart h.newCount
    ++ " @@\n".toList ++ h.lines.flatMap writeLine

/-! ## What is written is read back -/

@[simp] theorem Mark.ofChar_char (m : Mark) : Mark.ofChar m.char = some m := by
  cases m <;> rfl

theorem stripPrefix_append (fixed rest : List Char) : stripPrefix fixed (fixed ++ rest) = some rest := by
  unfold stripPrefix
  rw [if_pos (by simp), List.drop_left]

theorem parseNumber_toDigits (n : Nat) {rest : List Char}
    (hrest : ∀ c ∈ rest.head?, c.isDigit = false) :
    parseNumber (Nat.toDigits 10 n ++ rest) = some (n, rest) := by
  have hdigits : ∀ c ∈ Nat.toDigits 10 n, c.isDigit = true := fun c hc =>
    Nat.isDigit_of_mem_toDigits (by omega) (by omega) hc
  have htake : (Nat.toDigits 10 n ++ rest).takeWhile Char.isDigit = Nat.toDigits 10 n := by
    rw [List.takeWhile_append_of_pos hdigits]
    cases rest with
    | nil => simp
    | cons c rest => simp [hrest c rfl]
  unfold parseNumber
  simp only [htake]
  rw [if_neg Nat.toDigits_ne_nil, List.drop_left, Nat.ofDigitChars_ten_toDigits]

theorem parseRange_write (start count : Nat) {rest : List Char}
    (hrest : ∀ c ∈ rest.head?, c.isDigit = false) :
    parseRange (writeRange start count ++ rest) = some ((start, count), rest) := by
  have hcomma : writeRange start count ++ rest
      = Nat.toDigits 10 start ++ ([','] ++ (Nat.toDigits 10 count ++ rest)) := by
    simp [writeRange]
  unfold parseRange
  rw [hcomma, parseNumber_toDigits start (by simp), Option.bind_eq_bind, Option.bind_some]
  simp only [stripPrefix_append, Option.bind_eq_bind, Option.bind_some, parseNumber_toDigits count hrest]
  rfl

/-- A written line, as lines of the hunk. -/
theorem splitInclusive_writeLine {l : Mark × List Char} (hline : IsLine l.2) (rest : List Char) :
    splitInclusive (writeLine l ++ rest)
      = if endsLine l.2 = true then (l.1.char :: l.2) :: splitInclusive rest
        else (l.1.char :: l.2 ++ ['\n']) :: noNewline :: splitInclusive rest := by
  have hmark : l.1.char ≠ '\n' := by cases l.1 <;> decide
  unfold writeLine
  split
  · rename_i hends
    rw [List.append_nil, splitInclusive_append]
    · refine ⟨by simp, ?_⟩
      rw [List.dropLast_cons_of_ne_nil hline.1, List.mem_cons, not_or]
      exact ⟨fun h => hmark h.symm, hline.2⟩
    · obtain ⟨c, line, hl⟩ := List.exists_cons_of_ne_nil hline.1
      rw [hl] at hends ⊢
      simpa [endsLine] using hends
  · rename_i hends
    have hnone : '\n' ∉ l.2 := by
      intro hmem
      rw [← List.dropLast_append_getLast hline.1, List.mem_append, List.mem_singleton] at hmem
      rcases hmem with hmem | hmem
      · exact hline.2 hmem
      · refine hends ?_
        unfold endsLine
        rw [List.getLast?_eq_some_getLast hline.1, ← hmem]
        simp
    have hfirst : l.1.char :: l.2 ++ '\n' :: noNewline ++ rest
        = (l.1.char :: l.2 ++ ['\n']) ++ (noNewline ++ rest) := by simp
    rw [hfirst, splitInclusive_append, splitInclusive_append]
    · exact ⟨by decide, by decide⟩
    · decide
    · refine ⟨by simp, ?_⟩
      rw [List.dropLast_concat, List.mem_cons, not_or]
      exact ⟨fun h => hmark h.symm, hnone⟩
    · unfold endsLine
      rw [List.getLast?_concat]
      simp

/-- Written lines are read back. -/
theorem parseBody_write : ∀ {lines : List (Mark × List Char)}, (∀ l ∈ lines, IsLine l.2) →
    parseBody (splitInclusive (lines.flatMap writeLine)) = some lines
  | [], _ => rfl
  | l :: lines, h => by
    have ih := parseBody_write fun m hm => h m (List.mem_cons_of_mem l hm)
    rw [List.flatMap_cons, splitInclusive_writeLine (h l List.mem_cons_self)]
    split
    · -- What follows starts with a mark, so that the line keeps its newline.
      have hnext : ∀ m rest, splitInclusive (lines.flatMap writeLine) = ('\\' :: m) :: rest → False := by
        intro m rest hrest
        cases lines with
        | nil => cases hrest
        | cons k lines =>
          have hmark : k.1.char ≠ '\\' := by cases k.1 <;> decide
          rw [List.flatMap_cons, splitInclusive_writeLine (h k (by simp))] at hrest
          split at hrest <;> exact hmark (List.cons.inj (List.cons.inj hrest).1).1
      rw [parseBody, Mark.ofChar_char, ih]
      · rfl
      · exact hnext
    · rw [show noNewline = '\\' :: noNewline.tail from rfl]
      simp only [List.cons_append, parseBody, Mark.ofChar_char, ih, Option.bind_eq_bind,
        Option.bind_some, List.dropLast_concat]
      rfl

/-- A hunk that is written out is read back. -/
theorem parseHunk_write {h : Hunk} (hlines : ∀ l ∈ h.lines, IsLine l.2) :
    parseHunk (writeHunk h) = some h := by
  have htext : writeHunk h = "@@ -".toList ++ (writeRange h.oldStart h.oldCount ++ (" +".toList
      ++ (writeRange h.newStart h.newCount ++ (" @@\n".toList ++ h.lines.flatMap writeLine)))) := by
    simp only [writeHunk, List.append_assoc]
  have hspace : ∀ (fixed rest : List Char), (fixed = " +".toList ∨ fixed = " @@\n".toList) →
      ∀ c ∈ (fixed ++ rest).head?, c.isDigit = false := by
    rintro fixed rest (rfl | rfl) c hc <;> cases hc <;> rfl
  unfold parseHunk
  rw [htext]
  simp only [stripPrefix_append, Option.bind_eq_bind, Option.bind_some,
    parseRange_write _ _ (hspace _ _ (.inl rfl)), parseRange_write _ _ (hspace _ _ (.inr rfl)),
    parseBody_write hlines]
  rfl

/-! ## Applying a hunk -/

namespace Hunk

/-- A hunk changes the part of a text between what comes before it and what comes after. -/
theorem apply_parts {h : Hunk} {text : List Char} {first last : List (List Char)}
    (htext : splitInclusive text = first ++ h.oldSide ++ last) (hcount : h.oldSide.length = h.oldCount)
    (hnewCount : h.newSide.length = h.newCount)
    (hbefore : before h.oldStart h.oldCount = some first.length)
    (hafter : before h.newStart h.newCount = some first.length) :
    h.apply text = some (first ++ h.newSide ++ last).flatten := by
  have hfound : ((splitInclusive text).drop first.length).take h.oldCount = h.oldSide := by
    rw [htext, List.append_assoc, List.drop_left, ← hcount, List.take_left]
  have hfirst : (splitInclusive text).take first.length = first := by
    rw [htext, List.append_assoc, List.take_left]
  have hlast : (splitInclusive text).drop (first.length + h.oldCount) = last := by
    rw [htext, ← hcount, ← List.length_append, List.drop_left]
  have hlength : first.length ≤ (splitInclusive text).length := by
    rw [htext, List.length_append, List.length_append]
    omega
  unfold apply
  simp only [hbefore, Option.bind_eq_bind, Option.bind_some]
  rw [if_pos ⟨hafter, hcount, hnewCount, hlength, hfound⟩, hfirst, hlast]

theorem reverse_oldSide (h : Hunk) : h.reverse.oldSide = h.newSide := by
  unfold oldSide newSide reverse
  rw [List.filter_map, List.map_map]
  refine congrArg (List.map _) (List.filter_congr fun l _ => ?_)
  obtain ⟨m, line⟩ := l
  cases m <;> rfl

theorem reverse_newSide (h : Hunk) : h.reverse.newSide = h.oldSide := by
  unfold oldSide newSide reverse
  rw [List.filter_map, List.map_map]
  refine congrArg (List.map _) (List.filter_congr fun l _ => ?_)
  obtain ⟨m, line⟩ := l
  cases m <;> rfl

end Hunk

end Text
