import Mathlib
import ClaudeManager.Json.Value
import ClaudeManager.Python.Builtins
import ClaudeManager.Program.Containers

/-!
# What the manifests say of a checkout

* `loadWorkspaceFacts` — the facts of every checkout, from the documents that can be read
* `workspaceFactsForNative` — the facts of native children, from their parents
* `decision` — whether a checkout is protected, up to the state of its repository
* `refreshDynamicState` — the facts, tasks and sessions are read once more

A load is `none` where the code fails on a malformed document.
-/

namespace Reaper

open Json Python Containers

abbrev Path := String

/-- A path made canonical, and the time of a text with an offset. -/
class Host where
  resolve : String → Path
  aware : String → Option Rat

/-! ## Records -/

/-- When an assistant was last seen live. -/
inductive Seen where
  | live
  | until (t : Rat)
  deriving DecidableEq

/-- Sets are lists here: only their members are read. -/
structure WorkspaceFacts where
  workspaceIds : List String := []
  taskIds : List String := []
  pinned : Bool := false
  continuous : Bool := false
  durableKind : Option String := none
  assistantStream : Bool := false
  streamIdleSince : Option Rat := none
  assistantSeen : Option Seen := none
  openWorkspace : Bool := false
  manifestActivity : List Rat := []

structure TaskFacts where
  status : String
  kind : String

structure NativeParentLink where
  parentWorktree : Path
  activityAt : List Rat

structure Decision where
  action : String
  reason : String
  eligible : Bool
  deriving DecidableEq

def terminalTaskStatuses : List String := ["done", "archived"]
def durableKinds : List String := ["home", "stream"]
def assistantReleaseS : Rat := 7 * 86400

/-! ## Fields -/

/-- `isinstance(value, (int, float))`. -/
def asNumber : Value → Option Rat
  | .bool b => some (if b then 1 else 0)
  | .num n => some n
  | .frac q => some q
  | _ => none

/-- A text that is not empty. -/
def asText (v : Value) : Option String := v.asStr.filter fun s => s ≠ ""

/-- `list(value or [])`: of a text its characters, of an object its keys. -/
def asList (v : Value) : Option (List Value) :=
  if truthy v then
    match v with
    | .arr items => some items
    | .str s => some (s.toList.map fun c => .str (String.singleton c))
    | .obj members => some (members.map fun e => .str e.1)
    | _ => none
  else some []

variable [Host]

/-- `parse_timestamp`. -/
def parseTimestamp (v : Value) : Option Rat :=
  match asNumber v with
  | some t => some t
  | none => (asText v).bind Host.aware

omit [Host] in
/-- `record_org`. -/
def recordOrg (record : Value) : Value :=
  match record.idx "org" with
  | .null => if (record.idx "entry").isObj then (record.idx "entry").idx "org" else .null
  | org => org

omit [Host] in
/-- `is_open_assistant`. -/
def isOpenAssistant (org : Value) : Bool :=
  org.isObj && (org.idx "acting_as").asStr = some "assistant" && truthy (org.idx "member_id")
    && !truthy (org.idx "assistant_closed_at")

/-- When the assistant of a session record was seen: a row without an exit is live. -/
def seenIn (isRow : Bool) (record : Value) : Option Seen :=
  let exited := match record.idx "exited_at" with
    | .null => if (record.idx "last_exit").isObj then (record.idx "last_exit").idx "exited_at" else .null
    | exited => exited
  match isRow, exited with
  | true, .null => some .live
  | _, exited => (parseTimestamp exited).map .until

/-- Does the first come after the second? -/
def Seen.after : Seen → Seen → Bool
  | .live, .live => false
  | .live, .until _ => true
  | .until _, .live => false
  | .until t, .until u => decide (u < t)

/-- The later one is kept. -/
def latest (current : Option Seen) (seen : Seen) : Option Seen :=
  match current with
  | none => some seen
  | some c => if seen.after c then some seen else some c

/-! ## Documents -/

/-- A manifest file: it cannot be read, it is one value, or a log of lines of which some do not
parse. -/
inductive Document where
  | unreadable
  | manifest (data : Value)
  | archive (lines : List (Option Value))

/-- `d[key] = value`. -/
def assign (d : List (String × Value)) (key : String) (value : Value) : List (String × Value) :=
  if d.any fun e => e.1 = key then d.map fun e => if e.1 = key then (key, value) else e
  else d ++ [(key, value)]

/-- The workspaces of a log, by their ids. -/
def archivedWorkspaces (lines : List (Option Value)) : List (String × Value) :=
  lines.foldl (fun d line =>
    match line with
    | none => d
    | some record =>
      let workspace := record.idx "workspace"
      match workspace.isObj, (workspace.idx "id").asStr with
      | true, some id => assign d id workspace
      | _, _ => d) []

/-- `read_manifest_document`. -/
def Document.read : Document → Option Value
  | .unreadable => none
  | .manifest data => some data
  | .archive lines => some (.obj [("workspaces", .obj (archivedWorkspaces lines))])

/-- `iter_manifest_workspaces`. -/
def iterManifestWorkspaces (data : Value) : List Value :=
  match data.idx "workspaces" with
  | .obj members => (members.map Prod.snd).filter Value.isObj
  | .arr items => items.filter Value.isObj
  | _ => []

/-- The tasks bound to workspaces. -/
def bindingsOf (data : Value) : List (String × String) :=
  match data.idx "bindings" with
  | .obj members => members.filterMap fun e => e.2.asStr.map fun workspace => (e.1, workspace)
  | _ => []

/-- The exits a daemon recorded. -/
def exitsOf (data : Value) : List Value :=
  match data.idx "recently_exited" with
  | .arr items => items.filter Value.isObj
  | _ => []

/-! ## Merging -/

/-- What a session record adds. -/
def WorkspaceFacts.addSession (isRow : Bool) (f : WorkspaceFacts) (record : Value) : WorkspaceFacts :=
  if record.isObj then
    { f with
      taskIds := f.taskIds ++ (record.idx "task_id").asStr.toList
      continuous := f.continuous || truthy (record.idx "continuous_task_id")
      assistantSeen :=
        if isOpenAssistant (recordOrg record) then
          match seenIn isRow record with
          | some seen => latest f.assistantSeen seen
          | none => f.assistantSeen
        else f.assistantSeen
      manifestActivity := f.manifestActivity
        ++ ["created_at", "last_input_at"].filterMap fun key => parseTimestamp (record.idx key) }
  else f

omit [Host] in
/-- `a or b`, each a text or `None`. -/
def either (a b : Option String) : Option String := (a.filter fun s => s ≠ "").or b

omit [Host] in
/-- A stream that was claimed for an assistant. -/
def isAssistantStream (workspace : Value) : Bool :=
  ((workspace.idx "org").idx "workspace_kind").asStr = some "stream"
    && ((workspace.idx "org").idx "stream_of").asStr = some "assistant"

omit [Host] in
/-- The durable kind of any other workspace. -/
def durableKindOf (workspace : Value) : Option String :=
  if isAssistantStream workspace then none
  else ((workspace.idx "org").idx "workspace_kind").asStr.filter fun kind => kind ∈ durableKinds

omit [Host] in
/-- The idle time of a claimed stream. -/
def idleOf (workspace : Value) : Option Rat :=
  if isAssistantStream workspace then asNumber ((workspace.idx "org").idx "assistant_idle_since")
  else none

omit [Host] in
/-- What the fields of a workspace add, its sessions apart. -/
def WorkspaceFacts.addFields (bindings : List (String × String)) (f : WorkspaceFacts)
    (workspace : Value) : WorkspaceFacts :=
  let id := (workspace.idx "id").asStr
  { f with
    workspaceIds := f.workspaceIds ++ id.toList
    taskIds := f.taskIds ++ (bindings.filter fun b => id = some b.2).map Prod.fst
    pinned := f.pinned || truthy (workspace.idx "pinned")
    assistantStream := f.assistantStream || isAssistantStream workspace
    streamIdleSince := (idleOf workspace).or f.streamIdleSince
    durableKind := either f.durableKind (durableKindOf workspace)
    openWorkspace := f.openWorkspace || !truthy (workspace.idx "is_closed") }

/-- What a workspace adds to the facts of its checkout. -/
def WorkspaceFacts.addWorkspace (bindings : List (String × String)) (f : WorkspaceFacts)
    (workspace : Value) : Option WorkspaceFacts := do
  let live ← asList (workspace.idx "sessions")
  let tombstones ← asList (workspace.idx "tombstones")
  let f := live.foldl (WorkspaceFacts.addSession true) (f.addFields bindings workspace)
  return tombstones.foldl (WorkspaceFacts.addSession false) f

/-- The checkout a record names by its path. -/
def pathIn (record : Value) : Option Path := (asText (record.idx "worktree_path")).map Host.resolve

/-- What was read so far. -/
structure Load where
  facts : Map WorkspaceFacts := ∅
  exits : List Value := []
  pathOf : Map Path := ∅

def Load.addWorkspace (bindings : List (String × String)) (l : Load) (workspace : Value) :
    Option Load :=
  match pathIn workspace with
  | none => some l
  | some path => do
    let f ← (entryD l.facts path {}).addWorkspace bindings workspace
    return { l with
      facts := l.facts.insert path f
      pathOf := match (workspace.idx "id").asStr with
        | some id => l.pathOf.insert id path
        | none => l.pathOf }

def Load.addDocument (l : Load) (doc : Document) : Option Load :=
  match doc.read with
  | none => some l
  | some data =>
    if data.isObj then
      (iterManifestWorkspaces data).foldlM (Load.addWorkspace (bindingsOf data))
        { l with exits := l.exits ++ exitsOf data }
    else none

/-- The checkout of an exit: by its path, or else by the id of its workspace. -/
def Load.exitPath (l : Load) (record : Value) : Option (Option Path) :=
  match pathIn record with
  | some path => some (some path)
  | none =>
    match record.idx "workspace_id" with
    | .str id => some l.pathOf[id]?
    | .arr _ => none
    | .obj _ => none
    | _ => some none

def Load.addExit (l : Load) (record : Value) : Option Load :=
  if isOpenAssistant (recordOrg record) then do
    let path ← l.exitPath record
    match path, parseTimestamp (record.idx "exited_at") with
    | some path, some t =>
      return { l with
        facts := upsert l.facts path {} fun f =>
          { f with assistantSeen := latest f.assistantSeen (.until t) } }
    | _, _ => return l
  else some l

/-- `load_workspace_facts`. -/
def loadWorkspaceFacts (docs : List Document) : Option (Map WorkspaceFacts) := do
  let l ← docs.foldlM Load.addDocument {}
  let l ← l.exits.foldlM Load.addExit l
  return l.facts

omit [Host] in
/-- The facts of a native child, from its parent's. -/
def nativeFacts (manager : Map WorkspaceFacts) (link : NativeParentLink) : WorkspaceFacts :=
  let parent := entryD manager link.parentWorktree {}
  { workspaceIds := parent.workspaceIds
    taskIds := parent.taskIds
    pinned := parent.pinned
    continuous := parent.continuous
    openWorkspace := parent.openWorkspace
    manifestActivity := link.activityAt }

omit [Host] in
/-- `workspace_facts_for_native`. -/
def workspaceFactsForNative (manager : Map WorkspaceFacts) (links : Map NativeParentLink) :
    Map WorkspaceFacts :=
  manager.insertMany (links.toList.map fun e => (e.1, nativeFacts manager e.2))

/-! ## Decisions -/

inductive WorktreeKind where
  | manager
  | native
  deriving DecidableEq

structure ScanContext where
  now : Rat
  worktreeKind : WorktreeKind
  workspaces : Map WorkspaceFacts
  tasks : Map TaskFacts
  nativeParents : Map NativeParentLink
  ownership : Map WorkspaceFacts
  livePaths : StrSet
  processPaths : StrSet
  taskStateAvailable : Bool
  sessionStateAvailable : Bool

/-- What a decision asks the host about a checkout: whether it lies outside the root, is not a
real directory or changed its identity, what a scope guard says of it, and the verdict its
repository comes to under these facts. -/
structure Probe where
  escapes : Bool
  irregular : Bool
  identityChanged : Bool
  scopeGuard : Option (Option WorkspaceFacts)
  inspect : WorkspaceFacts → Decision

omit [Host] in
def within (now t : Rat) : Bool := now - t < assistantReleaseS

omit [Host] in
/-- `assistant_protects`. -/
def assistantProtects (f : WorkspaceFacts) (now : Rat) : Bool :=
  let recent := match f.assistantSeen with
    | none => false
    | some .live => true
    | some (.until t) => within now t
  if recent then true
  else if f.assistantStream then
    match f.streamIdleSince with
    | none => true
    | some t => within now t
  else false

omit [Host] in
/-- The facts with those of an extra ownership record. -/
def WorkspaceFacts.replace (f extra : WorkspaceFacts) : WorkspaceFacts :=
  { f with
    taskIds := f.taskIds ++ extra.taskIds
    pinned := f.pinned || extra.pinned
    continuous := f.continuous || extra.continuous
    durableKind := either f.durableKind extra.durableKind
    assistantStream := f.assistantStream || extra.assistantStream
    streamIdleSince := (f.streamIdleSince.filter fun t => t ≠ 0).or extra.streamIdleSince
    assistantSeen := match extra.assistantSeen with
      | some seen => latest f.assistantSeen seen
      | none => f.assistantSeen }

omit [Host] in
def Decision.stop (action reason : String) : Decision := ⟨action, reason, false⟩

omit [Host] in
/-- The tasks the records name, as far as they still exist. -/
def manifestTasks (ctx : ScanContext) (f : WorkspaceFacts) : List TaskFacts :=
  f.taskIds.filterMap fun task => ctx.tasks[task]?

omit [Host] in
/-- The facts of a checkout decide before its repository is looked at. -/
def ScanContext.judge (ctx : ScanContext) (f : WorkspaceFacts) (probe : Probe) (path : Path) : Decision :=
  if f.pinned then .stop "protect" "pinned_workspace"
  else if f.continuous then .stop "protect" "continuous_workspace"
  else match f.durableKind.filter fun kind => kind ≠ "" with
  | some kind => .stop "protect" (kind ++ "_workspace")
  | none =>
    if assistantProtects f ctx.now then .stop "protect" "assistant_checkout"
    else if path ∈ ctx.livePaths then .stop "protect" "live_session"
    else if path ∈ ctx.processPaths then .stop "protect" "live_process_reference"
    else if !ctx.taskStateAvailable then .stop "protect" "task_state_unavailable"
    else if !ctx.sessionStateAvailable then .stop "protect" "session_state_unavailable"
    else if (manifestTasks ctx f).any fun task => task.kind = "continuous" then
      .stop "protect" "continuous_task"
    else if (manifestTasks ctx f).any fun task => task.status ∉ terminalTaskStatuses then
      .stop "protect" "task_not_terminal"
    else probe.inspect f

omit [Host] in
/-- `decision`. -/
def decision (ctx : ScanContext) (probe : Probe) (path : Path) : Decision :=
  if probe.escapes then .stop "block" "path_escape"
  else if probe.irregular then .stop "block" "unsafe_path"
  else if probe.identityChanged then .stop "protect" "checkout_identity_changed"
  else
    let f := entryD ctx.workspaces path {}
    match probe.scopeGuard with
    | some none => .stop "protect" "cleanup_scope_changed"
    | some (some extra) => ctx.judge (f.replace extra) probe path
    | none =>
      match ctx.ownership[path]? with
      | some extra => ctx.judge (f.replace extra) probe path
      | none => ctx.judge f probe path

/-- The facts of all checkouts in a context. -/
def ScanContext.facts (ctx : ScanContext) (docs : List Document) : Option (Map WorkspaceFacts) := do
  let manager ← loadWorkspaceFacts docs
  return match ctx.worktreeKind with
    | .manager => manager
    | .native => workspaceFactsForNative manager ctx.nativeParents

/-- `refresh_dynamic_state`: tasks and live sessions are replaced where they can be read. -/
def refreshDynamicState (ctx : ScanContext) (docs : List Document) (tasks : Option (Map TaskFacts))
    (livePaths : Option StrSet) : Option ScanContext := do
  let ctx := { ctx with
    taskStateAvailable := tasks.isSome
    sessionStateAvailable := livePaths.isSome
    tasks := tasks.getD ctx.tasks
    livePaths := livePaths.getD ctx.livePaths }
  let workspaces ← ctx.facts docs
  return { ctx with workspaces }

end Reaper
