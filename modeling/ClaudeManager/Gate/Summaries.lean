import ClaudeManager.Gate.Receipt

/-!
# Tool summaries

The last result line of a tool's summary, as counts:

* `parsePytest`, `parseMypy`, `parseRuff` — none where no line is one
* `nodeCounts` — the same counts, of a node list
-/

namespace Gate

open Python

/-! ## Lines -/

/-- Where `str.splitlines` ends a line. -/
def isLineEnd (c : Char) : Bool :=
  (10 ≤ c.toNat && c.toNat ≤ 13) || (28 ≤ c.toNat && c.toNat ≤ 30) || c.toNat = 0x85
    || c.toNat = 0x2028 || c.toNat = 0x2029

/-- Lines, `line` being the one under way. -/
def linesFrom : List Char → List Char → List (List Char)
  | line, [] => if line = [] then [] else [line.reverse]
  | line, '\r' :: '\n' :: cs => line.reverse :: linesFrom [] cs
  | line, c :: cs => if isLineEnd c then line.reverse :: linesFrom [] cs else linesFrom (c :: line) cs

/-- `s.splitlines()`. -/
def splitlines (s : String) : List (List Char) := linesFrom [] s.toList

/-- Without the characters of a kind at both ends. -/
def stripOf (p : Char → Bool) (cs : List Char) : List Char :=
  ((cs.dropWhile p).reverse.dropWhile p).reverse

/-- `line.strip().strip("=").strip()`. -/
def resultText (line : List Char) : List Char :=
  stripOf isSpace (stripOf (· = '=') (stripOf isSpace line))

/-! ## Patterns -/

/-- What is behind a text at the front. -/
def behind : List Char → List Char → Option (List Char)
  | [], cs => some cs
  | _ :: _, [] => none
  | p :: ps, c :: cs => if p = c then behind ps cs else none

/-- Does a pattern fit somewhere? It sees the character before and the text from there. -/
def somewhere (p : Option Char → List Char → Bool) : Option Char → List Char → Bool
  | before, [] => p before []
  | before, c :: cs => p before (c :: cs) || somewhere p (some c) cs

/-- The first place where a pattern fits. -/
def firstFit {α : Type} (p : List Char → Option α) : List Char → Option α
  | [] => p []
  | c :: cs => (p (c :: cs)).or (firstFit p cs)

section

variable [Tables]

/-- `int` of decimal digits. -/
def decimalValue (digits : List Char) : Nat :=
  digits.foldl (fun n c => 10 * n + (Tables.decimal c).getD 0) 0

/-- `\\d+`: a number at the front, and what is behind it. -/
def number (cs : List Char) : Option (Nat × List Char) :=
  let digits := cs.takeWhile isDecimal
  if digits = [] then none else some (decimalValue digits, cs.dropWhile isDecimal)

/-- The words of a result line, each before those it starts with. -/
def partWords : List String :=
  ["passed", "failed", "errors", "error", "skipped", "xfailed", "xpassed", "deselected", "warnings",
    "warning", "rerun"]

/-- The first of some words at the front, and what is behind it. -/
def wordAt (cs : List Char) : List String → Option (String × List Char)
  | [] => none
  | w :: ws => ((behind w.toList cs).map (Prod.mk w)).or (wordAt cs ws)

/-- One match of `_PYTEST_PART` at the front: the count, the word, and what is behind. -/
def partAt (cs : List Char) : Option (Nat × String × List Char) := do
  let (n, rest) ← number cs
  let rest ← behind [' '] rest
  let (w, rest) ← wordAt rest partWords
  return (n, w, rest)

/-- `_PYTEST_PART.findall`, with so many characters left to pass. -/
def partsFrom : Nat → List Char → List (Nat × String)
  | _, [] => []
  | skip + 1, _ :: cs => partsFrom skip cs
  | 0, c :: cs =>
    match partAt (c :: cs) with
    | some (n, w, rest) => (n, w) :: partsFrom (cs.length - rest.length) cs
    | none => partsFrom 0 cs

/-! ## pytest -/

/-- Counts of outcomes. -/
structure Counts where
  passed : Nat := 0
  failed : Nat := 0
  errors : Nat := 0
  skipped : Nat := 0
  xfailed : Nat := 0
  xpassed : Nat := 0
  deselected : Nat := 0
  deriving DecidableEq

/-- A count of a result line, under its word. -/
def Counts.put (c : Counts) (part : Nat × String) : Counts :=
  match part with
  | (n, "passed") => { c with passed := n }
  | (n, "failed") => { c with failed := n }
  | (n, "errors") | (n, "error") => { c with errors := n }
  | (n, "skipped") => { c with skipped := n }
  | (n, "xfailed") => { c with xfailed := n }
  | (n, "xpassed") => { c with xpassed := n }
  | (n, "deselected") => { c with deselected := n }
  | _ => c

variable [Library]

/-- `\\b` behind a character of a word. -/
def wordEnds (rest : List Char) : Bool := !rest.head?.any Library.isWord

/-- `\\b` before a character of a word. -/
def wordStarts (before : Option Char) : Bool := !before.any Library.isWord

/-- `\\bno tests ran\\b`. -/
def noTestsRan (cs : List Char) : Bool :=
  somewhere (fun before cs => wordStarts before && (behind "no tests ran".toList cs).any wordEnds)
    none cs

/-- `\\bin [\\d.]+s\\b`. -/
def timed (cs : List Char) : Bool :=
  let isTime := fun c => isDecimal c || c = '.'
  somewhere (fun before cs => wordStarts before && (behind "in ".toList cs).any fun rest =>
      rest.takeWhile isTime ≠ [] && (behind ['s'] (rest.dropWhile isTime)).any wordEnds)
    none cs

/-- The counts of one line, where it is a result line. -/
def resultLine (line : List Char) : Option Counts :=
  let text := resultText line
  if text = [] then none
  else if noTestsRan text then some {}
  else if !timed text then none
  else
    let parts := partsFrom 0 text
    if parts = [] then none else some (parts.foldl Counts.put {})

/-- `parse_pytest`: the counts of the last result line. -/
def parsePytest (summary : String) : Option Counts := (splitlines summary).reverse.findSome? resultLine

/-! ## The other tools -/

structure Mypy where
  ok : Bool
  errors : Nat
  files : Nat

/-- A line of success, or of errors in files. -/
def mypyLine (line : List Char) : Option Mypy :=
  (firstFit (fun cs => do
    let (n, rest) ← number (← behind "Success: no issues found in ".toList cs)
    let _ ← behind " source file".toList rest
    return ⟨true, 0, n⟩) line).or
  (firstFit (fun cs => do
    let (n, rest) ← number (← behind "Found ".toList cs)
    let rest ← behind " error".toList rest
    let rest ← (behind "s in ".toList rest).or (behind " in ".toList rest)
    let (files, rest) ← number rest
    let _ ← behind " file".toList rest
    return ⟨false, n, files⟩) line)

/-- `parse_mypy`. -/
def parseMypy (summary : String) : Option Mypy := (splitlines summary).reverse.findSome? mypyLine

/-- The violations that a line counts. -/
def ruffLine (line : List Char) : Option Nat :=
  if "All checks passed!".toList <:+: line then some 0
  else firstFit (fun cs => do
    let (n, rest) ← number (← behind "Found ".toList cs)
    let _ ← behind " error".toList rest
    return n) line

/-- `parse_ruff`. -/
def parseRuff (summary : String) : Option Nat := (splitlines summary).reverse.findSome? ruffLine

end

/-! ## Nodes -/

/-- How many nodes have an outcome. -/
def countOf (nodes : List Node) (o : Outcome) : Nat := nodes.countP fun n => n.outcome = o

/-- `node_counts`. -/
def nodeCounts (nodes : List Node) : Counts where
  passed := countOf nodes .passed
  failed := countOf nodes .failed
  errors := countOf nodes .error
  skipped := countOf nodes .skipped
  xfailed := countOf nodes .xfailed
  xpassed := countOf nodes .xpassed
  deselected := countOf nodes .deselected

end Gate
