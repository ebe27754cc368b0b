import ClaudeManager.Gate.Profile

/-!
# Gate receipts

What a run tells of itself: its steps with their outcomes, inputs, worktree, base and cited waivers.
`normalizeReceipt` reads one. Only the form is checked here; what is missing is the verdict's.
-/

namespace Gate

open Json Python Program Containers

/-! ## Data -/

inductive Outcome where
  | passed | failed | error | skipped | xfailed | xpassed | deselected
  deriving DecidableEq

def Outcome.name : Outcome → String
  | .passed => "passed"
  | .failed => "failed"
  | .error => "error"
  | .skipped => "skipped"
  | .xfailed => "xfailed"
  | .xpassed => "xpassed"
  | .deselected => "deselected"

/-- `NODE_OUTCOMES`. -/
def nodeOutcomes : List Outcome :=
  [.passed, .failed, .error, .skipped, .xfailed, .xpassed, .deselected]

/-- `RAN_OUTCOMES`. -/
def Outcome.ran : Outcome → Bool
  | .passed | .failed | .error | .xfailed | .xpassed => true
  | .skipped | .deselected => false

/-- What a step reports of a node. -/
structure Node where
  id : String
  outcome : Outcome
  excType : Option String := none
  phase : Option String := none
  deriving DecidableEq

/-- A node that was skipped or deselected, and why. -/
structure Reasoned where
  node : String
  reason : String

inductive StepState where
  | ran | skipped | notRun | void
  deriving DecidableEq

def StepState.name : StepState → String
  | .ran => "ran"
  | .skipped => "skipped"
  | .notRun => "not_run"
  | .void => "void"

/-- `STEP_STATES`. -/
def stepStates : List StepState := [.ran, .skipped, .notRun, .void]

/-- The command that ran, and where. -/
structure EffectiveCmd extends Command where
  cwd : Option String
  injected : Option (List String)

/-- A step as the run reports it. -/
structure StepReport where
  name : String
  state : StepState
  effectiveCmd : Option EffectiveCmd
  atSha : Option String
  rc : Option Int
  startedAt : Option String
  endedAt : Option String
  summary : String
  nodes : Option (List Node)
  grantedNodes : Option (List String)
  skips : Option (List Reasoned)
  deselected : Option (List Reasoned)
  inputsUsed : List String
  reason : Option String

inductive InputState where
  | bound | missing | unbound
  deriving DecidableEq

def InputState.name : InputState → String
  | .bound => "bound"
  | .missing => "missing"
  | .unbound => "unbound"

/-- `INPUT_STATES`. -/
def inputStates : List InputState := [.bound, .missing, .unbound]

inductive Verification where
  | selfSuppliedUnverified | hashedAtRun
  deriving DecidableEq

def Verification.name : Verification → String
  | .selfSuppliedUnverified => "self_supplied_unverified"
  | .hashedAtRun => "hashed_at_run"

structure Input where
  name : String
  kind : InputKind
  state : InputState
  locator : String
  resolvedPath : Option String
  rootEnv : Option String
  contentId : Option String
  bytes : Option Int
  producedBy : Option String
  verification : Verification
  posterContentId : Option String
  note : Option String
  key : Option String

structure Runner where
  ref : String
  sha : String

structure Base where
  ref : Option String
  shaBefore : Option String
  shaAfter : Option String
  mergeTreeBefore : Option String
  mergeTreeAfter : Option String

structure Worktree where
  headBefore : Option String
  headAfter : Option String
  dirtyBefore : Option Bool
  dirtyAfter : Option Bool
  path : Option String

structure Closure where
  paths : List String
  digest : String
  cmd : List String

structure Receipt where
  gate : String
  klass : Option String
  repo : Option String
  branch : Option String
  headSha : String
  mfSha : Option String
  runner : Option Runner
  rulingId : Option String
  base : Base
  closure : Option Closure
  worktree : Worktree
  inputs : List Input
  steps : List StepReport
  waivers : List String
  logPath : Option String
  distinct : (steps.map StepReport.name).Nodup

/-! ## Limits -/

def maxWaivers : Nat := 20
def maxClosurePaths : Nat := 20000
def maxSummary : Nat := 2000
def maxReceiptBytes : Nat := 4 * 1024 * 1024

/-- `DAEMON_HASHED_KINDS`. -/
def daemonHashedKinds : List InputKind := [.file, .dir, .artifact]

/-! ## Steps -/

/-- `_node`. -/
def readNode (value : Value) : Except GateError Node := do
  refuse (¬ value.isObj) ⟨"nodes[] must be objects \x7bid, outcome, exc_type?\x7d", some "steps"⟩
  let id ← requiredText (value.idx "id") "nodes[].id" 1000
  let outcomes := commas (nodeOutcomes.map Outcome.name)
  let outcome ← okOr (nodeOutcomes.find? fun o => value.idx "outcome" = .str o.name)
    ⟨s!"node {id}: outcome must be one of {outcomes}", some "steps"⟩
  let excType ← text (value.idx "exc_type") "nodes[].exc_type" 200
  let phase ← text (value.idx "phase") "nodes[].phase" 20
  return { id, outcome, excType, phase }

def readReason (name : String) (v : Value) : Except GateError Reasoned := do
  refuse (¬ v.isObj) ⟨s!"{name}[] must be objects \x7bnode, reason\x7d", some name⟩
  let node ← requiredText (v.idx "node") s!"{name}[].node" 1000
  let reason ← text (v.idx "reason") s!"{name}[].reason" 500
  return ⟨node, reason.getD ""⟩

/-- `_reasoned`: an absent list stays absent. -/
def reasoned (value : Value) (name : String) : Except GateError (Option (List Reasoned)) := do
  match value with
  | .null => return none
  | value =>
    let items ← okOr value.asArr ⟨s!"{name} must be a list of \x7bnode, reason\x7d", some name⟩
    return some (← items.mapM (readReason name))

/-- The environment of a command, as texts. -/
def readEnv (value : Value) : Option (Map String) :=
  (asObj (orValue value (.obj []))).bind fun members =>
    (members.mapM fun (m : String × Value) => m.2.asStr.map (Prod.mk m.1)).map fun l => .ofList l

def readCmd (name : String) (cmd : Value) : Except GateError EffectiveCmd := do
  refuse (¬ cmd.isObj) ⟨s!"step {name}: effective_cmd is \x7bargv, env, cwd\x7d", some "steps"⟩
  let env ← okOr (readEnv (cmd.idx "env"))
    ⟨s!"step {name}: effective_cmd.env maps strings to strings", some "steps"⟩
  let argv ← texts (cmd.idx "argv") s!"{name}.argv" 500 4000
  let cwd ← text (cmd.idx "cwd") s!"{name}.cwd" 1000
  let injected ← present cmd "injected" fun v => texts v "injected" 20 1000
  return { argv, env, cwd, injected }

def readRc (name : String) (value : Value) : Except GateError (Option Int) :=
  match value with
  | .null => pure none
  | .num n => pure (some n)
  | _ => throw ⟨s!"step {name}: rc must be an integer", some "steps"⟩

def readNodes (name : String) (value : Value) : Except GateError (List Node) := do
  let items ← okOr (value.asArr.filter fun l => l.length ≤ maxNodes)
    ⟨s!"step {name}: nodes is a list of at most {maxNodes}", some "steps"⟩
  items.mapM readNode

/-- `s[-n:]`. -/
def lastChars (n : Nat) (s : String) : String := String.ofList (s.toList.drop (s.length - n))

section

variable [Casing]

/-- `normalize_step`. -/
def normalizeStep (raw : Value) : Except GateError StepReport := do
  refuse (¬ raw.isObj) ⟨"each step must be an object", some "steps"⟩
  let name ← requiredText (raw.idx "name") "steps[].name" 40
  let states := commas (stepStates.map StepState.name)
  let state ← okOr (stepStates.find? fun st => raw.idx "state" = .str st.name)
    ⟨s!"step {name}: state must be one of {states}", some "steps"⟩
  let effectiveCmd ← present raw "effective_cmd" (readCmd name)
  let atSha ← sha (raw.idx "at_sha") s!"{name}.at_sha"
  let rc ← readRc name (raw.idx "rc")
  let startedAt ← text (raw.idx "started_at") "started_at" 64
  let endedAt ← text (raw.idx "ended_at") "ended_at" 64
  let summary ← okOr (orValue (raw.idx "summary") "").asStr
    ⟨s!"step {name}: summary must be a string", some "steps"⟩
  let nodes ← present raw "nodes" (readNodes name)
  let grantedNodes ← present raw "granted_nodes" fun v =>
    texts v s!"{name}.granted_nodes" maxNodes 1000
  let skips ← reasoned (raw.idx "skips") "skips"
  let deselected ← reasoned (raw.idx "deselected") "deselected"
  let inputsUsed ← texts (raw.idx "inputs_used") "inputs_used" maxInputs 80
  let reason ← text (raw.idx "reason") "reason" 300
  return {
    name, state, effectiveCmd, atSha, rc, startedAt, endedAt
    summary := lastChars maxSummary summary
    nodes, grantedNodes, skips, deselected, inputsUsed, reason }

end

/-! ## Inputs -/

/-- A whole number, as a daemon reports it; a truth value counts as one. -/
def wholeNumber : Value → Option Int
  | .num n => some n
  | .bool b => some (if b then 1 else 0)
  | _ => none

/-- What the reporting daemon found at the path it resolved. -/
structure Found where
  state : InputState
  contentId : Option String
  bytes : Option Int
  verification : Verification := .selfSuppliedUnverified
  posterContentId : Option String := none
  note : Option String := none

/-- Only a hash that the daemon took itself, at a path that it derived, is one of the run. -/
def daemonFound [Library] (daemon : Value) (resolved : Option String) (f : Found) : Found :=
  if truthy (daemon.idx "missing") ∧ resolved.isSome then
    { f with state := .missing, contentId := none }
  else
    match (daemon.idx "content_id").asStr.filter fun _ => resolved.isSome with
    | some id =>
      { state := .bound
        contentId := some id
        bytes := (wholeNumber (daemon.idx "bytes")).or f.bytes
        verification := .hashedAtRun
        posterContentId := f.contentId.filter (· ≠ id) }
    | none =>
      if truthy (daemon.idx "unverifiable") then
        { f with
          state := .unbound
          contentId := none
          note := some (firstChars 200 (Library.str (daemon.idx "unverifiable"))) }
      else f

/-- What is bound has content. -/
def settled (state : InputState) (contentId : Option String) : InputState :=
  if state = .bound ∧ orElse contentId "" = "" then .unbound else state

/-- A resolved path counts only beside a hash of the daemon: it derives the path itself. -/
def readResolved (daemon raw : Value) : Except GateError (Option String) :=
  if daemon.isObj then text raw "resolved_path" 1000 else pure none

/-- `normalize_input`. -/
def normalizeInput [Library] (raw : Value) : Except GateError Input := do
  refuse (¬ raw.isObj) ⟨"inputs[] must be objects", some "inputs"⟩
  let name ← requiredText (raw.idx "name") "inputs[].name" 80
  let kinds := commas (inputKinds.map InputKind.name)
  let kind ← okOr ((raw.idx "kind").asStr.bind InputKind.ofName)
    ⟨s!"input {name}: kind must be one of {kinds}", some "inputs"⟩
  let states := commas (inputStates.map InputState.name)
  let state ← okOr (inputStates.find? fun st => (raw.get? "state").getD "bound" = .str st.name)
    ⟨s!"input {name}: state must be one of {states}", some "inputs"⟩
  let contentId ← text (raw.idx "content_id") "content_id" 300
  let producedBy := raw.idx "produced_by"
  refuse (producedBy ≠ .null ∧ ¬ producedBy.isStr)
    ⟨s!"input {name}: produced_by is a receipt id string", some "inputs"⟩
  let bytes ← present raw "bytes" fun v => integer v "inputs[].bytes"
  let daemon := raw.idx "daemon_hash"
  let resolvedPath ← readResolved daemon (raw.idx "resolved_path")
  let given : Found := { state, contentId, bytes := bytes.map Int.ofNat }
  let found :=
    if daemon.isObj ∧ kind ∈ daemonHashedKinds then daemonFound daemon resolvedPath given else given
  let locator ← text (raw.idx "locator") "locator" 1000
  let rootEnv ← text (raw.idx "root_env") "root_env" 200
  return {
    name, kind, resolvedPath, rootEnv
    state := settled found.state found.contentId
    locator := resolvedPath.getD (locator.getD "")
    contentId := found.contentId
    bytes := found.bytes
    producedBy := producedBy.asStr
    verification := found.verification
    posterContentId := found.posterContentId
    note := found.note
    key := resolvedPath.filter (startsWith "/") }

/-! ## The receipt -/

section

variable [Library] [Tables] [Casing]

/-- `closure_digest`. -/
def closureDigest (paths : List String) : String :=
  "sha256:" ++ Library.sha256 ("\n".intercalate (sorted (fromKeys paths)))

def readRunner (value : Value) : Except GateError Runner := do
  refuse (¬ value.isObj) ⟨"runner is \x7bref, sha\x7d", some "runner"⟩
  let ref ← requiredRef (value.idx "ref") "runner.ref" true
  let sha ← requiredSha (value.idx "sha") "runner.sha"
  return ⟨ref, sha⟩

def readReceiptBase (base : Value) : Except GateError Base := do
  refuse (¬ base.isObj) ⟨"base is an object", some "base"⟩
  let ref ← validRef (base.idx "ref") "base.ref" false
  let shaBefore ← sha (base.idx "sha_before") "base.sha_before"
  let shaAfter ← sha (base.idx "sha_after") "base.sha_after"
  let mergeTreeBefore ← tree (base.idx "merge_tree_before") "base.merge_tree_before"
  let mergeTreeAfter ← tree (base.idx "merge_tree_after") "base.merge_tree_after"
  return { ref, shaBefore, shaAfter, mergeTreeBefore, mergeTreeAfter }

def readWorktree (wt : Value) : Except GateError Worktree := do
  refuse (¬ wt.isObj) ⟨"worktree is an object", some "worktree"⟩
  let headBefore ← sha (wt.idx "head_before") "worktree.head_before"
  let headAfter ← sha (wt.idx "head_after") "worktree.head_after"
  let path ← text (wt.idx "path") "worktree.path" 1000
  return {
    headBefore, headAfter, path
    dirtyBefore := (wt.idx "dirty_before").asBool
    dirtyAfter := (wt.idx "dirty_after").asBool }

def readClosure (value : Value) : Except GateError Closure := do
  refuse (¬ value.isObj) ⟨"closure is \x7bpaths, cmd\x7d", some "closure"⟩
  let paths ← texts (value.idx "paths") "closure.paths" maxClosurePaths 1000
  let cmd ← texts (value.idx "cmd") "closure.cmd" 100 2000
  return { paths := sorted (fromKeys paths), digest := closureDigest paths, cmd }

/-- The steps of a receipt, with names that all differ. -/
def readReports (value : Value) :
    Except GateError {steps : List StepReport // (steps.map StepReport.name).Nodup} := do
  let items ← okOr (value.asArr.filter fun l => l.length ≤ maxSteps)
    ⟨s!"steps must be a list of at most {maxSteps}", some "steps"⟩
  let steps ← items.mapM normalizeStep
  if distinct : (steps.map StepReport.name).Nodup then return ⟨steps, distinct⟩
  else throw ⟨"step names must be unique", some "steps"⟩

def readReceiptInputs (value : Value) : Except GateError (List Input) := do
  let items ← okOr ((orValue value (.arr [])).asArr.filter fun l => l.length ≤ maxInputs)
    ⟨s!"inputs must be a list of at most {maxInputs}", some "inputs"⟩
  let inputs ← items.mapM normalizeInput
  refuse (¬ (inputs.map Input.name).Nodup) ⟨"input names must be unique", some "inputs"⟩
  return inputs

end

/-! ## The stored document -/

/-- A list, `null` where there is none. -/
def ofList {α : Type} (encode : α → Value) : Option (List α) → Value
  | some l => .arr (l.map encode)
  | none => .null

/-- A number, `null` where there is none. -/
def ofInt : Option Int → Value
  | some n => .num n
  | none => .null

/-- A truth value, `null` where there is none. -/
def ofBool : Option Bool → Value
  | some b => .bool b
  | none => .null

/-- Members that are stored only where they were given. -/
def given (key : String) : Value → List (String × Value)
  | .null => []
  | v => [(key, v)]

def Node.stored (n : Node) : Value :=
  object ([("id", .str n.id), ("outcome", .str n.outcome.name)]
    ++ given "exc_type" (ofText n.excType) ++ given "phase" (ofText n.phase))

def Reasoned.stored (r : Reasoned) : Value := object [("node", r.node), ("reason", r.reason)]

def EffectiveCmd.stored (c : EffectiveCmd) : Value :=
  object ([("argv", strings c.argv), ("env", .obj (c.env.toList.map fun e => (e.1, .str e.2))),
    ("cwd", ofText c.cwd)] ++ given "injected" (ofList .str c.injected))

def StepReport.stored (s : StepReport) : Value :=
  object ([("name", .str s.name), ("state", .str s.state.name), ("at_sha", ofText s.atSha),
    ("rc", ofInt s.rc), ("started_at", ofText s.startedAt), ("ended_at", ofText s.endedAt),
    ("summary", .str s.summary), ("nodes", ofList Node.stored s.nodes),
    ("skips", ofList Reasoned.stored s.skips), ("deselected", ofList Reasoned.stored s.deselected),
    ("inputs_used", strings s.inputsUsed), ("reason", ofText s.reason)]
    ++ given "effective_cmd" ((s.effectiveCmd.map EffectiveCmd.stored).getD .null)
    ++ given "granted_nodes" (ofList .str s.grantedNodes))

def Input.stored (i : Input) : Value :=
  object ([("name", .str i.name), ("kind", .str i.kind.name), ("state", .str i.state.name),
    ("locator", .str i.locator), ("resolved_path", ofText i.resolvedPath),
    ("root_env", ofText i.rootEnv), ("content_id", ofText i.contentId), ("bytes", ofInt i.bytes),
    ("produced_by", ofText i.producedBy), ("verification", .str i.verification.name),
    ("key", ofText i.key)]
    ++ given "poster_content_id" (ofText i.posterContentId) ++ given "note" (ofText i.note))

def Base.stored (b : Base) : Value :=
  object [("ref", ofText b.ref), ("sha_before", ofText b.shaBefore), ("sha_after", ofText b.shaAfter),
    ("merge_tree_before", ofText b.mergeTreeBefore), ("merge_tree_after", ofText b.mergeTreeAfter)]

def Worktree.stored (w : Worktree) : Value :=
  object [("head_before", ofText w.headBefore), ("head_after", ofText w.headAfter),
    ("dirty_before", ofBool w.dirtyBefore), ("dirty_after", ofBool w.dirtyAfter),
    ("path", ofText w.path)]

def Closure.stored (c : Closure) : Value :=
  object [("paths", strings c.paths), ("count", .num c.paths.length), ("digest", c.digest),
    ("cmd", strings c.cmd)]

def Runner.stored (r : Runner) : Value := object [("ref", r.ref), ("sha", r.sha)]

def Receipt.stored (r : Receipt) : Value :=
  object [("gate", r.gate), ("class", ofText r.klass), ("repo", ofText r.repo),
    ("branch", ofText r.branch), ("head_sha", r.headSha), ("mf_sha", ofText r.mfSha),
    ("runner", (r.runner.map Runner.stored).getD .null), ("ruling_id", ofText r.rulingId),
    ("base", r.base.stored), ("closure", (r.closure.map Closure.stored).getD .null),
    ("worktree", r.worktree.stored), ("inputs", .arr (r.inputs.map Input.stored)),
    ("steps", .arr (r.steps.map StepReport.stored)), ("waivers", strings r.waivers),
    ("log_path", ofText r.logPath), ("attestation", "self")]

/-- `normalize_receipt`. -/
def normalizeReceipt [Library] [Tables] [Casing] (raw : Value) : Except GateError Receipt := do
  refuse (¬ raw.isObj) ⟨"receipt must be an object", none⟩
  let gate ← okOr ((orValue (raw.idx "gate") "gate").asStr.filter (isGateName ·))
    ⟨"gate must be lowercase [a-z0-9_.-], at most 40 characters", some "gate"⟩
  let steps ← readReports (raw.idx "steps")
  let inputs ← readReceiptInputs (raw.idx "inputs")
  let runner ← present raw "runner" readRunner
  let base ← readReceiptBase (orValue (raw.idx "base") (.obj []))
  let worktree ← readWorktree (orValue (raw.idx "worktree") (.obj []))
  let closure ← present raw "closure" readClosure
  let waivers ← texts (raw.idx "waivers") "waivers" maxWaivers 120
  let klass ← text (orValue (raw.idx "class") (raw.idx "klass")) "class" 40
  let repo ← text (raw.idx "repo") "repo" 500
  let branch ← text (raw.idx "branch") "branch" 250
  let headSha ← requiredSha (orValue (raw.idx "head_sha") (raw.idx "head")) "head"
  let mfSha ← sha (orValue (raw.idx "mf_sha") (raw.idx "mf")) "mf"
  let rulingId ← text (orValue (raw.idx "ruling_id") (raw.idx "ruling")) "ruling" 80
  let logPath ← text (raw.idx "log_path") "log_path" 1000
  let receipt : Receipt := {
    gate, klass, repo, branch, headSha, mfSha, runner, rulingId, base, closure, worktree, inputs
    steps := steps.val, waivers, logPath, distinct := steps.property }
  let limit := maxReceiptBytes / 1024
  refuse (maxReceiptBytes < Library.dumpedLength receipt.stored)
    ⟨s!"receipt is larger than {limit} KiB; put logs at log_path", none⟩
  return receipt

end Gate
