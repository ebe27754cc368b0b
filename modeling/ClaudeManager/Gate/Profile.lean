import ClaudeManager.Gate.Fields

/-!
# Gate profiles

What a board asks of a gate run: its steps with their limits, the inputs, the base, and which steps
may be waived. `validateProfile` reads one.
-/

namespace Gate

open Json Python Program Containers

/-! ## Data -/

inductive StepKind where
  | pytest | mypy | ruff | rc
  deriving DecidableEq

def StepKind.name : StepKind → String
  | .pytest => "pytest"
  | .mypy => "mypy"
  | .ruff => "ruff"
  | .rc => "rc"

/-- `STEP_KINDS`. -/
def stepKinds : List StepKind := [.pytest, .mypy, .ruff, .rc]

/-- Where a step runs: at the head, or at the commit at which its tests must fail. -/
inductive At where
  | head | mf
  deriving DecidableEq

/-- `levels`: what a reason says of the run. -/
inductive Level where
  | fail | void | incomplete | waived | note
  deriving DecidableEq

/-- `LEVELS`: of a run with such a reason the verdict is not a pass. -/
def Level.blocks : Level → Bool
  | .fail | .void | .incomplete => true
  | .waived | .note => false

/-- Which exceptions the nodes of a must-fail step may fail with. Under the key of the default stands
no node. -/
structure ExpectFail where
  default : String
  nodes : Map (List String)
  plain : nodes["default"]? = none

/-- Every node may fail with an exception. -/
def ExpectFail.of (default : String) : ExpectFail := ⟨default, ∅, Std.ExtTreeMap.getElem?_empty⟩

/-- Which skips are allowed, and what another one is. -/
structure SkipPolicy where
  allowReasons : List String
  otherwise : Level
  blocks : otherwise.blocks = true

/-- Another skip leaves the run incomplete. -/
def SkipPolicy.incomplete (allowReasons : List String) : SkipPolicy :=
  ⟨allowReasons, .incomplete, rfl⟩

/-- A step as its profile asks for it. -/
structure Step where
  name : String
  kind : StepKind
  required : Bool
  argv : Option (List String)
  «at» : At
  nodes : Option (List String)
  expectFail : Option ExpectFail
  minPassed : Option Nat
  maxFailed : Option Nat
  maxErrors : Option Nat
  maxViolations : Option Nat
  timeoutS : Option Nat
  xfailCountsAsPass : Option Bool
  voidOnFail : Option Bool
  mustRun : Option (List String)
  skipPolicy : Option SkipPolicy
  cwd : Option String

inductive InputKind where
  | file | dir | gcs | artifact | db
  deriving DecidableEq

def InputKind.name : InputKind → String
  | .file => "file"
  | .dir => "dir"
  | .gcs => "gcs"
  | .artifact => "artifact"
  | .db => "db"

/-- `INPUT_KINDS`. -/
def inputKinds : List InputKind := [.file, .dir, .gcs, .artifact, .db]

def InputKind.ofName (s : String) : Option InputKind := inputKinds.find? fun k => k.name = s

/-- An input as its profile declares it. -/
structure InputDecl where
  name : String
  kind : InputKind
  required : Bool
  rootEnv : Option String
  path : Option String
  locator : Option String

structure Require where
  mfSha : Bool
  runner : Bool
  rulingId : Bool
  attestation : Option String

inductive BaseScope where
  | paths | tree
  deriving DecidableEq

structure BaseRule where
  ref : String
  scope : BaseScope

structure Profile where
  steps : List Step
  waivable : List String
  require : Require
  base : Option BaseRule
  inputs : List InputDecl
  allowedEnv : List String
  acceptUnverified : List String
  closureCmd : Option (List String)
  runnerRef : Option String

/-! ## Limits -/

def maxSteps : Nat := 40
def maxInputs : Nat := 100
def maxNodes : Nat := 20000

/-- `DEFAULT_MF_EXC`. -/
def defaultMfExc : String := "AssertionError"

/-- `_PROFILE_KEYS`. -/
def profileKeys : List String :=
  ["steps", "waivable", "require", "base", "inputs", "allowed_env", "closure_cmd", "runner_ref",
    "version", "class", "accept_unverified"]

/-- `_STEP_KEYS`. -/
def stepKeys : List String :=
  ["name", "kind", "required", "argv", "at", "nodes", "expect_fail", "min_passed", "max_failed",
    "xfail_counts_as_pass", "must_run", "skip_policy", "max_errors", "max_violations",
    "void_on_fail", "timeout_s", "cwd"]

/-! ## Reading -/

section

variable [Library] [Tables]

/-- The entries of `expect_fail`, of the default and of single nodes. -/
def expectEntries : ExpectFail → List (String × Value) → Except GateError ExpectFail
  | ef, [] => pure ef
  | ef, (key, val) :: rest => do
    if hkey : key = "default" then
      let default ← requiredText val "expect_fail.default" 200
      expectEntries { ef with default } rest
    else
      let vals := if val.isStr then .arr [val] else val
      let names ← texts vals s!"expect_fail[{key}]" 20 200
      have plain : (ef.nodes.insert key names)["default"]? = none := by
        rw [getElem?_insert_map, if_neg (Ne.symm hkey)]
        exact ef.plain
      expectEntries { ef with nodes := ef.nodes.insert key names, plain } rest

def readExpectFail (kind : StepKind) (name : String) (value : Value) : Except GateError ExpectFail := do
  let members ← okOr ((asObj value).filter fun _ => kind = .pytest)
    ⟨s!"step {name}: expect_fail is a pytest object", some "steps"⟩
  expectEntries (.of defaultMfExc) members

/-- The patterns of allowed reasons compile. -/
def checkPatterns (name : String) : List String → Except GateError PUnit
  | [] => pure ⟨⟩
  | pat :: rest => do
    match Library.compileError pat with
    | some exc =>
      let shown := Tables.repr pat
      throw ⟨s!"step {name}: bad allow_reasons regex {shown}: {exc}", some "steps"⟩
    | none => checkPatterns name rest

/-- `skip_policy.otherwise`. -/
def readOtherwise (allowReasons : List String) (value : Value) : Except GateError SkipPolicy :=
  if value = "incomplete" then pure (.incomplete allowReasons)
  else if value = "fail" then pure ⟨allowReasons, .fail, rfl⟩
  else throw ⟨"skip_policy.otherwise must be incomplete or fail", some "steps"⟩

def readSkipPolicy (name : String) (value : Value) : Except GateError SkipPolicy := do
  let members ← okOr (asObj value)
    ⟨s!"step {name}: skip_policy takes allow_reasons and otherwise", some "steps"⟩
  refuse (unknownKeys ["allow_reasons", "otherwise"] members ≠ [])
    ⟨s!"step {name}: skip_policy takes allow_reasons and otherwise", some "steps"⟩
  let allow ← texts (value.idx "allow_reasons") "allow_reasons" 50 500
  checkPatterns name allow
  readOtherwise allow ((value.get? "otherwise").getD "incomplete")

/-- One step, behind the steps of the names given. -/
def readStep (names : List String) (s : Value) : Except GateError Step := do
  let members ← okOr (asObj s) ⟨"each step must be an object", some "steps"⟩
  let extra := unknownKeys stepKeys members
  let shownExtra := shownList (sorted extra)
  refuse (extra ≠ []) ⟨s!"unknown step keys: {shownExtra}", some "steps"⟩
  let name ← requiredText (s.idx "name") "steps[].name" 40
  let shown := Tables.repr name
  refuse (¬ isGateName name ∨ name ∈ names)
    ⟨s!"step name {shown} must be unique, lowercase, [a-z0-9_.-]", some "steps"⟩
  let kinds := commas (stepKinds.map StepKind.name)
  let kind ← okOr (stepKinds.find? fun k => (s.get? "kind").getD "rc" = .str k.name)
    ⟨s!"step {name}: kind must be one of {kinds}", some "steps"⟩
  let required ← boolean ((s.get? "required").getD (.bool true)) "required"
  let argv ← optional s "argv" fun v => texts v s!"{name}.argv" 200 2000
  let at' := (s.get? "at").getD "head"
  refuse (at' ≠ "head" ∧ at' ≠ "mf") ⟨s!"step {name}: at must be head or mf", some "steps"⟩
  let place := if at' = "mf" then At.mf else At.head
  let nodes ← optional s "nodes" fun v => texts v s!"{name}.nodes" maxNodes 1000
  let expected ← optional s "expect_fail" (readExpectFail kind name)
  let expectFail := expected.or (if place = .mf then some (.of defaultMfExc) else none)
  let minPassed ← optional s "min_passed" fun v => integer v s!"{name}.min_passed"
  let maxFailed ← optional s "max_failed" fun v => integer v s!"{name}.max_failed"
  let maxErrors ← optional s "max_errors" fun v => integer v s!"{name}.max_errors"
  let maxViolations ← optional s "max_violations" fun v => integer v s!"{name}.max_violations"
  let timeoutS ← optional s "timeout_s" fun v => integer v s!"{name}.timeout_s"
  let xfailCountsAsPass ← optional s "xfail_counts_as_pass" fun v =>
    boolean v s!"{name}.xfail_counts_as_pass"
  let voidOnFail ← optional s "void_on_fail" fun v => boolean v s!"{name}.void_on_fail"
  let mustRun ← optional s "must_run" fun v => texts v s!"{name}.must_run" 500 1000
  let skipPolicy ← optional s "skip_policy" (readSkipPolicy name)
  let cwd ← text (s.idx "cwd") s!"{name}.cwd" 500
  return {
    name, kind, required, argv, «at» := place, nodes, expectFail, minPassed, maxFailed, maxErrors,
    maxViolations, timeoutS, xfailCountsAsPass, voidOnFail, mustRun, skipPolicy, cwd }

/-- The steps, none of a name that an earlier one has. -/
def readSteps (names : List String) : List Value → Except GateError (List Step)
  | [] => pure []
  | s :: rest => do
    let step ← readStep names s
    return step :: (← readSteps (step.name :: names) rest)

/-- `require`, where steps that run at the MF commit ask for it. -/
def readRequire (steps : List Step) (value : Value) : Except GateError Require := do
  let req := orValue value (.obj [])
  let members ← okOr (asObj req)
    ⟨"require takes mf_sha, runner, ruling_id, attestation", some "require"⟩
  refuse (unknownKeys ["mf_sha", "runner", "ruling_id", "attestation"] members ≠ [])
    ⟨"require takes mf_sha, runner, ruling_id, attestation", some "require"⟩
  let flag := fun key => boolean ((req.get? key).getD (.bool false)) s!"require.{key}"
  let mfSha ← flag "mf_sha"
  let runner ← flag "runner"
  let rulingId ← flag "ruling_id"
  let att := req.idx "attestation"
  refuse (att ≠ .null ∧ att ≠ "cm-gate") ⟨"require.attestation is null or cm-gate", some "require"⟩
  return {
    mfSha := mfSha || steps.any fun s => s.at = .mf, runner, rulingId, attestation := att.asStr }

def readBase (value : Value) : Except GateError (Option BaseRule) := do
  match value with
  | .null => return none
  | value =>
    let members ← okOr (asObj value) ⟨"base takes ref and scope", some "base"⟩
    refuse (unknownKeys ["ref", "scope"] members ≠ []) ⟨"base takes ref and scope", some "base"⟩
    let scope := (value.get? "scope").getD "paths"
    refuse (scope ≠ "paths" ∧ scope ≠ "tree") ⟨"base.scope is paths or tree", some "base"⟩
    let ref ← requiredRef (value.idx "ref") "base.ref" false
    return some ⟨ref, if scope = "tree" then .tree else .paths⟩

/-- One declared input, behind the inputs of the names given. -/
def readInput (names : List String) (inp : Value) : Except GateError InputDecl := do
  let known := ["name", "kind", "root_env", "path", "locator", "required"]
  let members ← okOr (asObj inp)
    ⟨"inputs[] take name, kind, root_env, path, locator, required", some "inputs"⟩
  refuse (unknownKeys known members ≠ [])
    ⟨"inputs[] take name, kind, root_env, path, locator, required", some "inputs"⟩
  let name ← requiredText (inp.idx "name") "inputs[].name" 80
  refuse (name ∈ names) ⟨s!"duplicate input {name}", some "inputs"⟩
  let kinds := commas (inputKinds.map InputKind.name)
  let kind ← okOr ((inp.idx "kind").asStr.bind InputKind.ofName)
    ⟨s!"input {name}: kind must be one of {kinds}", some "inputs"⟩
  let required ← boolean ((inp.get? "required").getD (.bool true)) "required"
  let rootEnv ← text (inp.idx "root_env") "inputs[].root_env" 1000
  let path ← text (inp.idx "path") "inputs[].path" 1000
  let locator ← text (inp.idx "locator") "inputs[].locator" 1000
  return { name, kind, required, rootEnv, path, locator }

def readInputs (names : List String) : List Value → Except GateError (List InputDecl)
  | [] => pure []
  | inp :: rest => do
    let decl ← readInput names inp
    return decl :: (← readInputs (decl.name :: names) rest)

/-- `validate_profile`. -/
def validateProfile (raw : Value) : Except GateError Profile := do
  let members ← okOr (asObj raw) ⟨"profile must be an object", some "profile"⟩
  let unknown := unknownKeys profileKeys members
  let shownUnknown := shownList (sorted unknown)
  refuse (unknown ≠ []) ⟨s!"unknown profile keys: {shownUnknown}", some "profile"⟩
  let stepsRaw ← okOr ((raw.idx "steps").asArr.filter fun l => l ≠ [] ∧ l.length ≤ maxSteps)
    ⟨s!"profile.steps must be a list of 1-{maxSteps} steps", some "steps"⟩
  let steps ← readSteps [] stepsRaw
  let waivable ← texts (raw.idx "waivable") "waivable" maxSteps 40
  let strange := sorted (fromKeys (waivable.filter (· ∉ steps.map Step.name)))
  let shownStrange := shownList strange
  refuse (strange ≠ []) ⟨s!"waivable names unknown steps: {shownStrange}", some "waivable"⟩
  let require ← readRequire steps (raw.idx "require")
  let base ← readBase (raw.idx "base")
  -- What is not iterable ends the call with the interpreter's own error.
  let inputsRaw ← okOr (iterated (orValue (raw.idx "inputs") (.arr []))) ⟨"not iterable", none⟩
  let inputs ← readInputs [] inputsRaw
  refuse (maxInputs < inputs.length) ⟨s!"at most {maxInputs} inputs", some "inputs"⟩
  let allowedEnv ← texts (raw.idx "allowed_env") "allowed_env" 100 200
  let acceptUnverified ← texts (raw.idx "accept_unverified") "accept_unverified" 5 20
  let kinds := commas (inputKinds.map InputKind.name)
  refuse (acceptUnverified.any fun k => (InputKind.ofName k).isNone)
    ⟨s!"accept_unverified takes input kinds ({kinds})", some "accept_unverified"⟩
  let closureCmd ← present raw "closure_cmd" fun v => texts v "closure_cmd" 100 2000
  let runnerRef ← validRef (raw.idx "runner_ref") "runner_ref" true
  return {
    steps, waivable, require, base, inputs, allowedEnv, acceptUnverified, closureCmd, runnerRef }

end

/-- `profile_step`: the first step of a name. -/
def Profile.step (p : Profile) (name : String) : Option Step := p.steps.find? fun s => s.name = name

end Gate
