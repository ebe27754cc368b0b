import ClaudeManager.Gate.Commands
import ClaudeManager.Program.Stateful
import ClaudeManager.Python.Integers

/-!
# Fields of a posted document

Profiles and receipts come as JSON. Each field is read by one of these, which refuse what does not
have its form:

* `text`, `requiredText`, `sha`, `validRef` — texts, within a limit
* `boolean`, `integer`, `texts` — the other forms
* `accepted` — the items of a list, each read in turn
-/

namespace Gate

open Json Python Program

/-- What the interpreter's library supplies: the text of a value, the characters of a word, a
search for a pattern and what is wrong with one, a digest, and the length of a dumped document. -/
class Library where
  str : Value → String
  isWord : Char → Bool
  search : String → String → Bool
  compileError : String → Option String
  sha256 : String → String
  dumps : Value → String
  dumpedLength : Value → Nat

/-- A refused gate write: `invalid_field`, with a message and the field where it is told. -/
structure GateError where
  message : String
  field : Option String := none
  deriving DecidableEq

/-- `a or b`, of two values. -/
def orValue (a b : Value) : Value := if truthy a then a else b

/-- A list of texts, as `str` shows it. -/
def shownList [Tables] (l : List String) : String := "[" ++ commas (l.map Tables.repr) ++ "]"

/-- `sorted`, of texts. -/
def sorted (l : List String) : List String := l.insertionSort (· ≤ ·)

/-! ## Texts -/

/-- `_str`. -/
def text (value : Value) (name : String) (limit : Nat) : Except GateError (Option String) :=
  match value with
  | .null => pure none
  | .str s =>
    if s = "" then pure none
    else if limit < s.length then
      throw ⟨s!"{name} is longer than {limit} characters", some name⟩
    else pure (some s)
  | _ => throw ⟨s!"{name} must be a string", some name⟩

/-- `_str` of a required field. -/
def requiredText (value : Value) (name : String) (limit : Nat) : Except GateError String := do
  okOr (← text value name limit) ⟨s!"{name} is required", some name⟩

/-- `SHA_RE`. -/
def isSha (s : String) : Bool :=
  let cs := dropNewline s.toList
  cs.length = 40 && cs.all fun c => isAscii c || ('a' ≤ c && c ≤ 'f')

/-- `GATE_NAME_RE`. -/
def isGateName (s : String) : Bool :=
  let lower := fun c => isAscii c || ('a' ≤ c && c ≤ 'z')
  match dropNewline s.toList with
  | c :: cs => lower c && cs.length ≤ 39 && cs.all fun c => lower c || c ∈ ['_', '.', '-']
  | [] => false

/-- The form of a tree's name. -/
def isTree (s : String) : Bool :=
  let cs := dropNewline s.toList
  (cs.length = 40 || cs.length = 64) && cs.all fun c => isAscii c || ('a' ≤ c && c ≤ 'f')

section

variable [Casing]

/-- What `_sha` makes of a text. -/
def fullSha (name : String) (s : String) : Except GateError String := do
  refuse (¬ isSha (Casing.lower s)) ⟨s!"{name} must be a full 40-hex commit SHA", some name⟩
  return Casing.lower s

/-- `_sha`. -/
def sha (value : Value) (name : String) : Except GateError (Option String) := do
  match ← text value name 40 with
  | none => return none
  | some s => return some (← fullSha name s)

/-- `_sha` of a required field. -/
def requiredSha (value : Value) (name : String) : Except GateError String := do
  fullSha name (← requiredText value name 40)

/-- `_tree`. -/
def tree (value : Value) (name : String) : Except GateError (Option String) := do
  match ← text value name 64 with
  | none => return none
  | some s =>
    if s = "conflict" then return some s
    refuse (¬ isTree (Casing.lower s)) ⟨s!"{name} must be a tree OID or \"conflict\"", some name⟩
    return some (Casing.lower s)

end

/-! ## References -/

/-- A character of a reference's name, or of a path in one. -/
def isRefChar (c : Char) : Bool :=
  isLetter c || isAscii c || c ∈ ['.', '_', '/', '@', '+', '-']

/-- `_REFNAME_RE` and `_REFPATH_RE`: which characters may come first, and how many behind. -/
def isRefForm (first : List Char) (limit : Nat) (s : String) : Bool :=
  match dropNewline s.toList with
  | c :: cs => (isLetter c || isAscii c || c ∈ first) && cs.length ≤ limit && cs.all isRefChar
  | [] => false

/-- Does a text stand within another? -/
def isWithin (sub s : String) : Bool := sub.toList <:+: s.toList

def endsWith (suffix s : String) : Bool := suffix.toList <:+ s.toList

/-- `bad_ref`. -/
def badRef (ref : String) : Bool :=
  !isRefForm ['_'] 199 ref || isWithin ".." ref || isWithin "//" ref
    || ["/", ".", ".lock"].any (endsWith · ref) || isWithin "@\x7b" ref

/-- `bad_path`. -/
def badPath (path : String) : Bool :=
  path ≠ "" && (!isRefForm ['_', '.'] 499 path || (splitOnChar '/' path).contains "..")

section

variable [Tables]

/-- What `valid_ref` makes of a text. -/
def plainRef (allowPath : Bool) (name s : String) : Except GateError String := do
  let (ref, path) := if allowPath then (cut ':' s).getD (s, "") else (s, "")
  let shown := Tables.repr s
  refuse (badRef ref ∨ badPath path ∨ (s.toList.contains ':' ∧ ¬ allowPath))
    ⟨s!"{name} {shown} is not a plain git ref", some name⟩
  return s

/-- `valid_ref`. -/
def validRef (value : Value) (name : String) (allowPath : Bool) :
    Except GateError (Option String) := do
  match ← text value name 700 with
  | none => return none
  | some s => return some (← plainRef allowPath name s)

/-- `valid_ref` of a required field. -/
def requiredRef (value : Value) (name : String) (allowPath : Bool) : Except GateError String := do
  plainRef allowPath name (← requiredText value name 700)

end

/-! ## Other forms -/

/-- `_bool`. -/
def boolean (value : Value) (name : String) : Except GateError Bool :=
  okOr value.asBool ⟨s!"{name} must be a boolean", some name⟩

/-- `_int`, of a field that may not be negative. -/
def integer (value : Value) (name : String) : Except GateError Nat :=
  match value with
  | .num (.ofNat n) => pure n
  | _ => throw ⟨s!"{name} must be an integer ≥ 0", some name⟩

/-- `_str_list`. -/
def texts (value : Value) (name : String) (limit itemLimit : Nat) :
    Except GateError (List String) := do
  match value with
  | .null => return []
  | value =>
    let items ← okOr (value.asArr.bind (·.mapM Value.asStr))
      ⟨s!"{name} must be a list of strings", some name⟩
    refuse (limit < items.length ∨ items.any fun s => itemLimit < s.length)
      ⟨s!"{name}: at most {limit} entries of at most {itemLimit} characters", some name⟩
    return items

/-- An object. -/
def asObj (value : Value) : Option (List (String × Value)) :=
  match value with
  | .obj members => some members
  | _ => none

/-- What a loop over a value runs over: the items of a list, the keys of an object, the characters of
a text. -/
def iterated : Value → Option (List Value)
  | .arr items => some items
  | .obj members => some (members.map fun m => .str m.1)
  | .str s => some (s.toList.map fun c => .str c.toString)
  | _ => none

/-- A field, where the document has it. -/
def optional {α : Type} (value : Value) (key : String) (read : Value → Except GateError α) :
    Except GateError (Option α) :=
  match value.get? key with
  | some v => some <$> read v
  | none => pure none

/-- A field, where the document has it and it is not `null`. -/
def present {α : Type} (value : Value) (key : String) (read : Value → Except GateError α) :
    Except GateError (Option α) :=
  match value.idx key with
  | .null => pure none
  | v => some <$> read v

/-- The keys of an object that are none of the known ones. -/
def unknownKeys (known : List String) (members : List (String × Value)) : List String :=
  (members.map Prod.fst).filter (· ∉ known)

end Gate
