import Mathlib
import ClaudeManager.Python.Builtins

/-!
# Texts and paths

String methods and the POSIX path functions of the standard library:

* `after`, `cut` — a text behind a prefix, and around a separator
* `basename`, `normpath`, `join` — `os.path`
* `int` — an integer from its text, by the interpreter's `Tables`
-/

namespace Python

/-! ## Parts of a text -/

/-- `s.removeprefix(pre)` where `s.startswith(pre)`. -/
def after (pre s : String) : Option String :=
  if pre.toList.isPrefixOf s.toList then some (String.ofList (s.toList.drop pre.toList.length))
  else none

/-- `s.startswith(pre)`. -/
def startsWith (pre s : String) : Bool := (after pre s).isSome

/-- `s.split(sep, 1)`, where the separator is in the text. -/
def cut (sep : Char) (s : String) : Option (String × String) :=
  match s.toList.span (· ≠ sep) with
  | (k, _ :: v) => some (String.ofList k, String.ofList v)
  | (_, []) => none

/-- `s.rstrip(c)` of one character. -/
def rstripChar (c : Char) (s : String) : String :=
  String.ofList (s.toList.reverse.dropWhile (· = c)).reverse

variable {pre s r k v : String} {sep : Char}

theorem after_eq_some : after pre s = some r ↔ s = pre ++ r := by
  unfold after
  constructor
  · intro h
    split at h
    · next hp =>
      obtain ⟨t, ht⟩ := List.isPrefixOf_iff_prefix.mp hp
      rw [← ht, List.drop_left] at h
      obtain rfl := Option.some.inj h
      apply String.toList_injective
      rw [String.toList_append, String.toList_ofList, ht]
    · cases h
  · rintro rfl
    have hp : pre.toList.isPrefixOf (pre ++ r).toList = true :=
      List.isPrefixOf_iff_prefix.mpr (by simp)
    rw [if_pos hp, String.toList_append, List.drop_left, String.ofList_toList]

theorem startsWith_iff : startsWith pre s = true ↔ ∃ r, s = pre ++ r := by
  unfold startsWith
  rw [Option.isSome_iff_exists]
  exact exists_congr fun r => after_eq_some

theorem cut_eq_some (h : cut sep s = some (k, v)) :
    s = k ++ String.singleton sep ++ v ∧ sep ∉ k.toList := by
  unfold cut at h
  rw [List.span_eq_takeWhile_dropWhile] at h
  split at h
  · next k' c v' hspan =>
    obtain ⟨rfl, rfl⟩ := Prod.mk.inj (Option.some.inj h)
    obtain ⟨hk, hv⟩ := Prod.mk.inj hspan
    have hc : c = sep := by
      have hne : s.toList.dropWhile (fun x => decide (x ≠ sep)) ≠ [] := by
        rw [hv]
        simp
      have hhead := List.head_dropWhile_not (fun x => decide (x ≠ sep)) hne
      simp only [hv, List.head_cons] at hhead
      simpa using hhead
    subst hc
    refine ⟨?_, ?_⟩
    · apply String.toList_injective
      simp only [String.toList_append, String.toList_ofList, String.toList_singleton]
      rw [← hk, List.append_assoc]
      exact (List.takeWhile_append_dropWhile.symm.trans (by rw [hv]; rfl))
    · rw [String.toList_ofList, ← hk]
      intro hmem
      simpa using List.mem_takeWhile_imp hmem
  · cases h

/-! ## Paths -/

/-- `os.path.basename`. -/
def basename (s : String) : String :=
  String.ofList (s.toList.reverse.takeWhile (· ≠ '/')).reverse

/-- The components that are left, the last one first. -/
def normComponents (rooted : Bool) : List String → List String → List String
  | kept, [] => kept
  | kept, comp :: rest =>
    if comp = "" ∨ comp = "." then normComponents rooted kept rest
    else if comp ≠ ".." then normComponents rooted (comp :: kept) rest
    else
      match kept with
      | [] => if rooted then normComponents rooted [] rest else normComponents rooted [comp] rest
      | last :: kept' =>
        if last = ".." then normComponents rooted (comp :: kept) rest
        else normComponents rooted kept' rest

/-- `os.path.normpath`: two slashes at the front stay, more are one. -/
def normpath (s : String) : String :=
  if s = "" then "."
  else
    let slashes :=
      if startsWith "/" s then if startsWith "//" s && !startsWith "///" s then "//" else "/" else ""
    let path := slashes ++ "/".intercalate
      (normComponents (slashes ≠ "") [] (splitOnChar '/' s)).reverse
    if path = "" then "." else path

/-- `os.path.join` of two. -/
def joinTwo (a b : String) : String :=
  if startsWith "/" b then b
  else if a = "" || a.toList.getLast? = some '/' then a ++ b
  else a ++ "/" ++ b

/-- `os.path.join`. -/
def join (a : String) (rest : List String) : String := rest.foldl joinTwo a

/-! ## Digits -/

/-- The interpreter's tables: the decimal digits of every script, the characters `str.isdigit`
takes for digits, and the texts of strings in quotes. -/
class Tables where
  decimal : Char → Option Nat
  isDigit : Char → Bool
  repr : String → String

/-- The characters of a number's text without the white space around it, to which the separators of
`str.isspace` do not belong. -/
def numeral (s : String) : List Char :=
  let blank := fun c : Char => isSpace c && !(28 ≤ c.toNat && c.toNat ≤ 31)
  ((s.toList.dropWhile blank).reverse.dropWhile blank).reverse

/-- The sign of a number, and what is behind it. -/
def signed : List Char → Int × List Char
  | '-' :: cs => (-1, cs)
  | '+' :: cs => (1, cs)
  | cs => (1, cs)

/-- `int(s)`: digits with single underscores between them, signed, in white space. -/
def int [Tables] (s : String) : Option Int :=
  let (sign, cs) := signed (numeral s)
  if (cs.splitOn '_').all (· ≠ []) then
    ((cs.filter (· ≠ '_')).mapM Tables.decimal).map fun ds =>
      sign * (ds.foldl (fun n d => 10 * n + d) 0 : Nat)
  else none

end Python
