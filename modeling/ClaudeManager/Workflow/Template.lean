import ClaudeManager.Messaging.Base
import ClaudeManager.Program.Stateful
import ClaudeManager.Text.Hunks
import ClaudeManager.Text.Numbers
import ClaudeManager.Text.Spans

/-!
# Prompt templates

What a workflow sends to a role: a template whose placeholders are replaced by what the roles said.

* `render` — scans the bytes of a template for placeholders
* `resolve` — the value of a key
-/

namespace ClaudeManager

open Text Program

/-- What the engine asks about a role's messages. -/
structure RoleResolver where
  userMessages : String → List String
  assistantMessages : String → List String
  assistantSinceActivation : String → List String
  priorUserMessages : String → List String
  priorAssistantMessages : String → List String
  latestPlan : String → Option String
  goal : Option String
  rejectedFindings : List String

/-! ## Keys -/

/-- `idx_str.parse().ok()` of an `isize`. -/
def parseIsize (s : List Char) : Option Int :=
  (parseInt s).filter fun n => -2 ^ 63 ≤ n ∧ n < 2 ^ 63

/-- A key like `roles.worker.user[0]`, as role, accessor and index. -/
def parseKey (key : List Char) : Option (List Char × List Char × Option Int) := do
  let rest ← stripPrefix "roles.".toList key
  let dot ← rest.idxOf? '.'
  let role := rest.take dot
  let rest := rest.drop (dot + 1)
  match rest.idxOf? '[' with
  | some start => do
    let close ← rest.idxOf? ']'
    guard (¬ close < start)
    let idxStr := (rest.take close).drop (start + 1)
    let idx ← parseIsize (trimmed (String.ofList idxStr)).toList
    return (role, rest.take start, some idx)
  | none => return (role, rest, none)

/-- `-idx` of an `isize`, which has no such number for the smallest one. -/
def negate (idx : Int) : Except Panic Int := if idx = -2 ^ 63 then .error .overflow else .ok (-idx)

/-- A possibly negative index, against a length. -/
def normIndex (len : Nat) (idx : Int) : Except Panic (Option Nat) :=
  if len = 0 then return none
  else if 0 ≤ idx then return if idx.toNat < len then some idx.toNat else none
  else do
    let back ← negate idx
    return if back.toNat ≤ len then some (len - back.toNat) else none

def indexInto (v : List String) (idx : Int) : Except Panic String := do
  match ← normIndex v.length idx with
  | some i => return v[i]?.getD ""
  | none => return ""

namespace RoleResolver

variable (r : RoleResolver)

/-- The message list of an indexed accessor. -/
def messages (accessor : List Char) (role : String) : Option (List String) :=
  if accessor = "user".toList then some (r.userMessages role)
  else if accessor = "assistant".toList then some (r.assistantMessages role)
  else if accessor = "prior_user".toList then some (r.priorUserMessages role)
  else if accessor = "prior_assistant".toList then some (r.priorAssistantMessages role)
  else none

/-- The value of an accessor without an index. -/
def bare (accessor : List Char) (role : String) : String :=
  if accessor = "last_message".toList then ((r.assistantMessages role).getLast?).getD ""
  else if accessor = "this_turn".toList then
    "\n\n---\n\n".intercalate (r.assistantSinceActivation role)
  else if accessor = "initial_prompt".toList then ((r.userMessages role).head?).getD ""
  else if accessor = "plan".toList then (r.latestPlan role).getD ""
  else ""

def goalText : String :=
  match r.goal with
  | some g => if blank g then ((r.userMessages "worker").head?).getD "" else g
  | none => ((r.userMessages "worker").head?).getD ""

def rejectedText : String :=
  if r.rejectedFindings = [] then ""
  else r.rejectedFindings.foldl (fun out item => out ++ "- " ++ trimmed item ++ "\n")
    ("Previously-rejected findings — the manager has decided these are not worth raising again. "
      ++ "Do not re-surface them:\n")

def resolve (key : List Char) : Except Panic String :=
  if key = "goal".toList then return r.goalText
  else if key = "rejected_findings".toList then return r.rejectedText
  else match parseKey key with
  | none => return ""
  | some (role, accessor, none) => return r.bare accessor (String.ofList role)
  | some (role, accessor, some n) =>
    match r.messages accessor (String.ofList role) with
    | some v => indexInto v n
    | none => return ""

end RoleResolver

/-! ## Rendering -/

/-- The first `}}` from a position on. -/
def findClose (s : List Char) (start : Nat) : Option Nat :=
  (List.range' start (utf8Len s - 1 - start)).find? fun i => byteIs s i '}' && byteIs s (i + 1) '}'

/-- A placeholder begins here, and this is where it closes. -/
def closing (s : List Char) (i : Nat) : Option Nat :=
  if byteIs s i '{' && byteIs s (i + 1) '{' then findClose s (i + 2) else none

theorem closing_le {s : List Char} {i close : Nat} (h : closing s i = some close) : i + 2 ≤ close := by
  unfold closing findClose at h
  split at h
  · exact (List.mem_range'_1.mp (List.mem_of_find?_eq_some h)).1
  · cases h

/-- What a placeholder's text is replaced by. -/
def expand (r : RoleResolver) (inner : List Char) : Except Panic String :=
  r.resolve (trimmed (String.ofList inner)).toList

/-- The scan from position `i`, with what was put out and where the text after it starts. -/
def renderFrom (r : RoleResolver) (s : List Char) (i literalStart : Nat) (out : List Char) :
    Except Panic (List Char) :=
  if i < utf8Len s then
    match hclose : closing s i with
    | some close => do
      let literal ← index s literalStart i
      let key ← index s (i + 2) close
      let value ← expand r key
      renderFrom r s (close + 2) (close + 2) (out ++ literal ++ value.toList)
    | none => renderFrom r s (i + 1) literalStart out
  else do
    let literal ← index s literalStart (utf8Len s)
    return out ++ literal
termination_by utf8Len s - i
decreasing_by
  · have := closing_le hclose
    omega
  · omega

def render (r : RoleResolver) (template : String) : Except Panic String :=
  String.ofList <$> renderFrom r template.toList 0 0 []

end ClaudeManager
