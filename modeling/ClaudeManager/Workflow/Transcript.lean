import ClaudeManager.Json.Value
import ClaudeManager.Messaging.Base
import ClaudeManager.Text.Lines
import ClaudeManager.Text.Utf8

/-!
# Transcripts

The JSONL transcript of a role, as the workflow runner reads it.

* `listMessages` — the messages of a kind that have a text
* `State`, `applyLines` — the counts of all entries, and whether the last turn is complete
* `applyLines_append` — lines are counted one after the other
-/

namespace ClaudeManager

open Json Text

inductive Engine where
  | claudeCode
  | codex
  deriving DecidableEq

inductive MessageKind where
  | user
  | assistant
  deriving DecidableEq

def MessageKind.name : MessageKind → String
  | .user => "user"
  | .assistant => "assistant"

/-- `serde_json::from_str` -/
class JsonText where
  parse : List Char → Option Value

variable [JsonText]

/-! ## Entries -/

/-- `v.pointer("/a/b")` -/
def pointer (v : Value) (a b : String) : Option Value := (v.get? a).bind (·.get? b)

def typeOf (v : Value) : Option String := (v.get? "type").bind Value.asStr

/-- The values that a transcript has, line by line. -/
def records (contents : List Char) : List Value :=
  (lines contents).filterMap fun line =>
    let line := (trimmed (String.ofList line)).toList
    if line = [] then none else JsonText.parse line

def isClaudeToolResult (v : Value) : Bool :=
  ((pointer v "message" "content").bind Value.asArr).any fun items =>
    items.any fun item => typeOf item = some "tool_result"

/-- The texts of the items that are taken, a line each. -/
def joinTexts (taken : String → Bool) (items : List Value) : Option String :=
  let buf := items.foldl (fun buf item =>
    if taken ((typeOf item).getD "") then
      match (item.get? "text").bind Value.asStr with
      | some s => if buf = "" then s else buf ++ "\n" ++ s
      | none => buf
    else buf) ""
  if buf = "" then none else some buf

def extractTextFromContent (content : Option Value) : Option String :=
  (content.bind Value.asArr).bind (joinTexts fun t => t = "text" || t = "output_text" || t = "")

/-- User content is a text or an array of items, of which tool results are skipped. -/
def extractUserText (content : Option Value) : Option String :=
  match content with
  | none => none
  | some c =>
    match c.asStr with
    | some s => some s
    | none => c.asArr.bind (joinTexts (· ≠ "tool_result"))

def extractText : MessageKind → Option Value → Option String
  | .user => extractUserText
  | .assistant => extractTextFromContent

/-- A record that is no turn of the user: a tool result, a meta record or a slash command. -/
def isClaudeAside (v : Value) : Bool :=
  isClaudeToolResult v || (v.get? "isMeta").bind Value.asBool = some true
    || ((pointer v "message" "content").bind Value.asStr).any fun s =>
      "<command-name>".toList.isPrefixOf (s.toList.dropWhile isWhitespace)

def extractClaudeLine (v : Value) (kind : MessageKind) : Option String :=
  if typeOf v ≠ some kind.name then none
  else if kind = .user ∧ isClaudeAside v = true then none
  else extractText kind (pointer v "message" "content")

def codexRole (v : Value) : Option String :=
  ((pointer v "payload" "role").bind Value.asStr).or ((v.get? "role").bind Value.asStr)

def extractCodexLine (v : Value) (kind : MessageKind) : Option String :=
  if codexRole v ≠ some kind.name then none
  else
    let content := pointer v "payload" "content"
    (extractText kind content).or (content.bind Value.asStr)

/-- The text of an entry, where it has one. -/
def messageOfEntry (engine : Engine) (kind : MessageKind) (v : Value) : Option String :=
  let text := match engine with
    | .claudeCode => extractClaudeLine v kind
    | .codex => extractCodexLine v kind
  text.bind fun t => if blank t then none else some (trimmed t)

/-- All messages of a kind, in order. -/
def listMessages (engine : Engine) (contents : List Char) (kind : MessageKind) : List String :=
  (records contents).filterMap (messageOfEntry engine kind)

/-! ## Counting -/

/-- What is kept of the entries so far. -/
inductive State where
  | claude (assistantTurns userTurns : Nat) (lastAssistantEndTurn : Option Bool)
  | codex (assistantTurns userTurns : Nat) (latestTurnState : Option Bool)
  deriving DecidableEq

namespace State

def fresh : Engine → State
  | .claudeCode => .claude 0 0 none
  | .codex => .codex 0 0 none

def engine : State → Engine
  | .claude .. => .claudeCode
  | .codex .. => .codex

def count : State → MessageKind → Nat
  | .claude a _ _, .assistant => a
  | .codex a _ _, .assistant => a
  | .claude _ u _, .user => u
  | .codex _ u _, .user => u

def turnComplete : State → Bool
  | .claude _ _ last => last.getD false
  | .codex _ _ latest => latest.getD false

end State

def applyClaudeLine (a u : Nat) (last : Option Bool) (v : Value) : State :=
  if typeOf v = some "assistant" then
    .claude (a + 1) u (some (((pointer v "message" "stop_reason").bind Value.asStr).getD "" = "end_turn"))
  else if typeOf v = some "user" ∧ isClaudeToolResult v = false then .claude a (u + 1) last
  else .claude a u last

def codexTurnState (v : Value) (latest : Option Bool) : Option Bool :=
  let top := (typeOf v).getD ""
  let ptype := ((pointer v "payload" "type").bind Value.asStr).getD ""
  if top = "event_msg" ∧ ptype = "task_complete" then some true
  else if top = "response_item" ∧ (ptype = "function_call" ∨ ptype = "reasoning" ∨ ptype = "message") then
    some false
  else latest

def applyCodexLine (a u : Nat) (latest : Option Bool) (v : Value) : State :=
  .codex (if codexRole v = some "assistant" then a + 1 else a) (if codexRole v = some "user" then u + 1 else u)
    (codexTurnState v latest)

def State.apply : State → Value → State
  | .claude a u last, v => applyClaudeLine a u last v
  | .codex a u latest, v => applyCodexLine a u latest v

def applyLines (state : State) (slice : List Char) : State := (records slice).foldl State.apply state

/-- The count of the entries of a kind, whether they have a text or not. -/
def countMessages (engine : Engine) (contents : List Char) (kind : MessageKind) : Nat :=
  (applyLines (State.fresh engine) contents).count kind

/-! ## Lines one after the other -/

theorem records_append {a b : List Char} (h : WholeLines a) : records (a ++ b) = records a ++ records b := by
  unfold records
  rw [lines_append h, List.filterMap_append]

theorem applyLines_append {a b : List Char} (h : WholeLines a) (state : State) :
    applyLines state (a ++ b) = applyLines (applyLines state a) b := by
  unfold applyLines
  rw [records_append h, List.foldl_append]

omit [JsonText] in
@[simp] theorem State.engine_apply (state : State) (v : Value) : (state.apply v).engine = state.engine := by
  cases state with
  | claude a u last =>
    show (applyClaudeLine a u last v).engine = _
    unfold applyClaudeLine
    split
    · rfl
    · split <;> rfl
  | codex a u latest => rfl

theorem engine_applyLines (state : State) (slice : List Char) : (applyLines state slice).engine = state.engine := by
  unfold applyLines
  induction records slice generalizing state with
  | nil => rfl
  | cons v l ih => rw [List.foldl_cons, ih, State.engine_apply]

end ClaudeManager
