import ClaudeManager.Text.Hunks

/-!
# Diffs of norms

The diff that an agent acknowledges with a revision of the norms, and what it says: applied to the
old text it gives the new one, and the other way round.
-/

namespace ClaudeManager

open Text

/-! ## The diff -/

/-- How far two lists agree. -/
def commonLength (a b : List (List Char)) : Nat := ((a.zip b).takeWhile fun l => l.1 = l.2).length

/-- A marked line. One that ends its text without a newline is followed by a note of that. -/
def pushLine (mark : Char) (line : List Char) : List Char :=
  mark :: line ++ if line.getLast? = some '\n' then [] else "\n\\ No newline at end of file\n".toList

/-- A diff with a single changed hunk, and at most three lines of context on either side. -/
def textualDiff (old new base revision : String) : String :=
  if old = new then ""
  else
    let a := splitInclusive old.toList
    let b := splitInclusive new.toList
    let same := commonLength a b
    let suffix := commonLength (a.drop same).reverse (b.drop same).reverse
    let start := same - 3
    let aEnd := a.length - suffix
    let bEnd := b.length - suffix
    let tail := min suffix 3
    "--- " ++ base ++ "\n+++ " ++ revision ++ "\n@@ -"
      ++ toString (if a.isEmpty then 0 else start + 1) ++ "," ++ toString (aEnd + tail - start) ++ " +"
      ++ toString (if b.isEmpty then 0 else start + 1) ++ "," ++ toString (bEnd + tail - start) ++ " @@\n"
      ++ String.ofList (((a.take same).drop start).flatMap (pushLine ' ')
        ++ ((a.take aEnd).drop same).flatMap (pushLine '-')
        ++ ((b.take bEnd).drop same).flatMap (pushLine '+')
        ++ ((b.take (bEnd + tail)).drop bEnd).flatMap (pushLine ' '))

/-! ## Its parts -/

theorem commonLength_take : ∀ (a b : List (List Char)),
    a.take (commonLength a b) = b.take (commonLength a b)
  | [], b => by simp [commonLength]
  | x :: a, [] => by simp [commonLength]
  | x :: a, y :: b => by
    have ih := commonLength_take a b
    unfold commonLength at ih ⊢
    rw [List.zip_cons_cons, List.takeWhile_cons]
    by_cases h : x = y
    · simp [h, ih]
    · simp [h]

theorem commonLength_le (a b : List (List Char)) :
    commonLength a b ≤ a.length ∧ commonLength a b ≤ b.length := by
  have h : commonLength a b ≤ (a.zip b).length := (List.takeWhile_sublist _).length_le
  rw [List.length_zip] at h
  omega

/-- Two texts as the lines they begin with in common, those they end with, and those between. -/
theorem common_parts (a b : List (List Char)) : ∃ first oldPart newPart last,
    a = first ++ oldPart ++ last ∧ b = first ++ newPart ++ last ∧ first.length = commonLength a b
      ∧ last.length = commonLength (a.drop (commonLength a b)).reverse (b.drop (commonLength a b)).reverse := by
  have hsame := commonLength_take a b
  obtain ⟨hpa, hpb⟩ := commonLength_le a b
  generalize commonLength a b = p at hsame hpa hpb ⊢
  have hlast := commonLength_take (a.drop p).reverse (b.drop p).reverse
  obtain ⟨hqa, hqb⟩ := commonLength_le (a.drop p).reverse (b.drop p).reverse
  generalize commonLength (a.drop p).reverse (b.drop p).reverse = q at hlast hqa hqb ⊢
  rw [List.take_reverse, List.take_reverse, List.reverse_inj] at hlast
  rw [List.length_reverse] at hqa hqb
  refine ⟨a.take p, (a.drop p).take ((a.drop p).length - q), (b.drop p).take ((b.drop p).length - q),
    (a.drop p).drop ((a.drop p).length - q), ?_, ?_, ?_, ?_⟩
  · rw [List.append_assoc, List.take_append_drop, List.take_append_drop]
  · rw [hsame, hlast, List.append_assoc, List.take_append_drop, List.take_append_drop]
  · rw [List.length_take]
    omega
  · rw [List.length_drop]
    omega

/-- The marked lines of the change from `a` to `b`. -/
def diffLines (context oldPart newPart rest : List (List Char)) : List (Mark × List Char) :=
  context.map (Mark.context, ·) ++ oldPart.map (Mark.removed, ·) ++ newPart.map (Mark.added, ·)
    ++ rest.map (Mark.context, ·)

section

variable {context oldPart newPart rest : List (List Char)}

theorem filter_map_mark {m : Mark} {keep : Mark → Bool} {l : List (List Char)} :
    (((l.map fun x => (m, x)).filter fun x => keep x.1).map Prod.snd) = if keep m then l else [] := by
  cases h : keep m with
  | true => simp [List.filter_map, Function.comp_def, h]
  | false => simp [List.filter_map, Function.comp_def, h]

theorem diffLines_old : ((diffLines context oldPart newPart rest).filter fun l => l.1 ≠ .added).map Prod.snd
    = context ++ oldPart ++ rest := by
  unfold diffLines
  simp only [List.filter_append, List.map_append, @filter_map_mark _ fun m => decide (m ≠ .added)]
  simp

theorem diffLines_new :
    ((diffLines context oldPart newPart rest).filter fun l => l.1 ≠ .removed).map Prod.snd
      = context ++ newPart ++ rest := by
  unfold diffLines
  simp only [List.filter_append, List.map_append, @filter_map_mark _ fun m => decide (m ≠ .removed)]
  simp

theorem flatMap_pushLine (m : Mark) (l : List (List Char)) :
    l.flatMap (pushLine m.char) = (l.map fun x => (m, x)).flatMap writeLine := by
  rw [List.flatMap_map]
  refine List.flatMap_congr fun line _ => ?_
  unfold pushLine writeLine endsLine
  simp only [decide_eq_true_eq]
  rfl

theorem flatMap_writeLine : (diffLines context oldPart newPart rest).flatMap writeLine
    = context.flatMap (pushLine ' ') ++ oldPart.flatMap (pushLine '-') ++ newPart.flatMap (pushLine '+')
      ++ rest.flatMap (pushLine ' ') := by
  unfold diffLines
  rw [List.flatMap_append, List.flatMap_append, List.flatMap_append, ← flatMap_pushLine,
    ← flatMap_pushLine, ← flatMap_pushLine, ← flatMap_pushLine]
  rfl

end

/-! ## What the diff says -/

/-- The hunk of a change between two common parts, three lines of each for context. -/
def diffHunk (first oldPart newPart last : List (List Char)) : Hunk where
  oldStart := if (first ++ oldPart ++ last).isEmpty then 0 else first.length - 3 + 1
  oldCount := (first ++ oldPart).length + min last.length 3 - (first.length - 3)
  newStart := if (first ++ newPart ++ last).isEmpty then 0 else first.length - 3 + 1
  newCount := (first ++ newPart).length + min last.length 3 - (first.length - 3)
  lines := diffLines (first.drop (first.length - 3)) oldPart newPart (last.take (min last.length 3))

section

variable {first oldPart newPart last : List (List Char)}

/-- A range of the hunk begins where its context does. -/
theorem before_range (part : List (List Char)) :
    Hunk.before (if (first ++ part ++ last).isEmpty then 0 else first.length - 3 + 1)
      ((first ++ part).length + min last.length 3 - (first.length - 3)) = some (first.length - 3) := by
  unfold Hunk.before
  by_cases hempty : (first ++ part ++ last).isEmpty = true
  · rw [if_pos hempty]
    simp only [List.isEmpty_iff, List.append_eq_nil_iff] at hempty
    simp [hempty]
  · have hlength : 0 < first.length + part.length + last.length := by
      rw [List.isEmpty_iff, ← List.length_eq_zero_iff, List.length_append, List.length_append] at hempty
      omega
    rw [if_neg hempty, List.length_append, if_neg (by omega), if_neg (by omega), Nat.add_sub_cancel]

/-- The hunk takes the old lines for the new ones. -/
theorem diffHunk_apply {old new : List Char} (hold : splitInclusive old = first ++ oldPart ++ last)
    (hnew : splitInclusive new = first ++ newPart ++ last) :
    (diffHunk first oldPart newPart last).apply old = some new
      ∧ (diffHunk first oldPart newPart last).reverse.apply new = some old := by
  have hparts : ∀ part : List (List Char), first ++ part ++ last
      = first.take (first.length - 3) ++ (first.drop (first.length - 3) ++ part
        ++ last.take (min last.length 3)) ++ last.drop (min last.length 3) := by
    intro part
    conv_lhs => rw [← List.take_append_drop (first.length - 3) first,
      ← List.take_append_drop (min last.length 3) last]
    simp only [List.append_assoc]
  have hstart : (first.take (first.length - 3)).length = first.length - 3 := by
    rw [List.length_take]
    omega
  have hcount : ∀ part : List (List Char), (first.drop (first.length - 3) ++ part
      ++ last.take (min last.length 3)).length
      = (first ++ part).length + min last.length 3 - (first.length - 3) := by
    intro part
    simp only [List.length_append, List.length_drop, List.length_take]
    omega
  have holdSide : (diffHunk first oldPart newPart last).oldSide = first.drop (first.length - 3) ++ oldPart
      ++ last.take (min last.length 3) := diffLines_old
  have hnewSide : (diffHunk first oldPart newPart last).newSide = first.drop (first.length - 3) ++ newPart
      ++ last.take (min last.length 3) := diffLines_new
  constructor
  · rw [@Hunk.apply_parts _ _ (first.take (first.length - 3)) (last.drop (min last.length 3)),
      hnewSide, ← hparts, ← hnew, flatten_splitInclusive]
    · rw [holdSide, ← hparts, hold]
    · rw [holdSide, hcount]
      rfl
    · rw [hnewSide, hcount]
      rfl
    · rw [hstart]
      exact before_range oldPart
    · rw [hstart]
      exact before_range newPart
  · rw [@Hunk.apply_parts _ _ (first.take (first.length - 3)) (last.drop (min last.length 3)),
      Hunk.reverse_newSide, holdSide, ← hparts, ← hold, flatten_splitInclusive]
    · rw [Hunk.reverse_oldSide, hnewSide, ← hparts, hnew]
    · rw [Hunk.reverse_oldSide, hnewSide, hcount]
      rfl
    · rw [Hunk.reverse_newSide, holdSide, hcount]
      rfl
    · rw [hstart]
      exact before_range newPart
    · rw [hstart]
      exact before_range oldPart

end

/-- What two different texts' diff writes is one hunk. -/
theorem textualDiff_eq {old new base revision : String} (h : old ≠ new)
    {first oldPart newPart last : List (List Char)}
    (hold : splitInclusive old.toList = first ++ oldPart ++ last)
    (hnew : splitInclusive new.toList = first ++ newPart ++ last)
    (hfirst : first.length = commonLength (splitInclusive old.toList) (splitInclusive new.toList))
    (hlast : last.length = commonLength
      ((splitInclusive old.toList).drop (commonLength (splitInclusive old.toList) (splitInclusive new.toList))).reverse
      ((splitInclusive new.toList).drop (commonLength (splitInclusive old.toList) (splitInclusive new.toList))).reverse) :
    textualDiff old new base revision = "--- " ++ base ++ "\n+++ " ++ revision ++ "\n"
      ++ String.ofList (writeHunk (diffHunk first oldPart newPart last)) := by
  have hend : ∀ part : List (List Char), (first ++ part ++ last).length - last.length
      = (first ++ part).length := by
    intro part
    rw [List.length_append, Nat.add_sub_cancel]
  have hmiddle : ∀ part : List (List Char),
      ((first ++ part ++ last).take (first ++ part).length).drop first.length = part := by
    intro part
    rw [List.take_left, List.drop_left]
  have hcontext : ((first ++ oldPart ++ last).take first.length).drop (first.length - 3)
      = first.drop (first.length - 3) := by
    rw [List.append_assoc, List.take_left]
  have hrest : ((first ++ newPart ++ last).take ((first ++ newPart).length + min last.length 3)).drop
      (first ++ newPart).length = last.take (min last.length 3) := by
    rw [List.take_length_add_append, List.drop_left]
  rw [← hfirst] at hlast
  unfold textualDiff
  rw [if_neg h]
  simp only [← hfirst, ← hlast]
  simp only [hold, hnew, hend, hmiddle, hcontext, hrest]
  rw [← String.toList_inj]
  unfold writeHunk writeRange
  simp only [diffHunk, flatMap_writeLine, String.toList_append, String.toList_ofList,
    Nat.toString_eq_ofList_toDigits, List.append_assoc]
  rfl

/-- The diff of a text with itself is empty. Between different texts it is one hunk, which applied to
the old text gives the new one, and in reverse the old one from the new. -/
theorem textualDiff_patches (old new base revision : String) :
    (old = new → textualDiff old new base revision = "")
      ∧ (old ≠ new → ∃ (text : List Char) (h : Hunk),
        textualDiff old new base revision
            = "--- " ++ base ++ "\n+++ " ++ revision ++ "\n" ++ String.ofList text
          ∧ parseHunk text = some h ∧ h.apply old.toList = some new.toList
          ∧ h.reverse.apply new.toList = some old.toList) := by
  refine ⟨fun h => if_pos h, fun h => ?_⟩
  obtain ⟨first, oldPart, newPart, last, hold, hnew, hfirst, hlast⟩ :=
    common_parts (splitInclusive old.toList) (splitInclusive new.toList)
  refine ⟨_, _, textualDiff_eq h hold hnew hfirst hlast, parseHunk_write fun l hl => ?_,
    diffHunk_apply hold hnew⟩
  have holdLine : ∀ line ∈ first ++ oldPart ++ last, IsLine line := fun line hline =>
    isLine_of_mem (hold ▸ hline)
  have hnewLine : ∀ line ∈ first ++ newPart ++ last, IsLine line := fun line hline =>
    isLine_of_mem (hnew ▸ hline)
  simp only [diffHunk, diffLines, List.mem_append, List.mem_map] at hl
  obtain ((⟨line, hmem, rfl⟩ | ⟨line, hmem, rfl⟩) | ⟨line, hmem, rfl⟩) | ⟨line, hmem, rfl⟩ := hl
  · exact holdLine line (by simp [List.mem_of_mem_drop hmem])
  · exact holdLine line (by simp [hmem])
  · exact hnewLine line (by simp [hmem])
  · exact holdLine line (by simp [List.mem_of_mem_take hmem])

example : textualDiff "a\nb\nc" "a\nx\nc" "one" "two"
    = "--- one\n+++ two\n@@ -1,3 +1,3 @@\n a\n-b\n+x\n c\n\\ No newline at end of file\n" := by
  decide

end ClaudeManager
