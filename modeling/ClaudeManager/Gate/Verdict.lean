import ClaudeManager.Gate.Summaries
import ClaudeManager.Program.Stable

/-!
# The verdict

`evaluate` computes the verdict on a receipt: what each required step reports, held against its
profile, and what verified grants change of it. A reason that blocks keeps the verdict from a pass.

What a step's summary was parsed to is not stored with it here.
-/

namespace Gate

open Json Python Program Containers

structure Reason where
  level : Level
  text : String
  step : Option String := none

/-- `short`. -/
def short (sha : Option String) : String := firstChars 7 (orElse sha "?")

/-! ## Grants -/

inductive GrantKind where
  | waiver | variance | selection
  deriving DecidableEq

def GrantKind.name : GrantKind → String
  | .waiver => "waiver"
  | .variance => "variance"
  | .selection => "selection"

/-- A grant as it is stored. -/
structure GrantRow where
  label : String
  kind : GrantKind
  gate : String
  grantorPid : String
  headSha : String
  baseSha : Option String
  step : String
  nodes : Option (List String)
  cmdDigest : Option String
  reason : Option String
  risk : Option String
  messageCheck : Value
  revokedAt : Option String

/-- A grant, with why it is not verified. -/
structure CheckedGrant extends GrantRow where
  problems : List String

/-- The nodes a grant names. -/
def GrantRow.named (g : GrantRow) : List String := g.nodes.getD []

/-- A base that a grant is bound to. -/
def GrantRow.boundBase (g : GrantRow) : Option String := g.baseSha.filter (· ≠ "")

/-- What is wrong with the message behind a grant. -/
def messageProblems (g : GrantRow) : List String :=
  let check := g.messageCheck
  if ¬ truthy (check.idx "found") then ["message not found"]
  else
    (if check.idx "sender" = .str g.grantorPid then [] else ["message was not sent by the grantor"])
      ++ (if truthy (check.idx "contains_head") then []
        else ["message does not name the full head SHA"])
      ++ (if g.boundBase.isSome ∧ ¬ truthy (check.idx "contains_base") then
        ["message does not name the full base SHA"] else [])
      ++ (if truthy (check.idx "contains_step") then []
        else [s!"message does not name the step {g.step}"])
      ++ if truthy (check.idx "contains_kind") then []
        else ["message does not say it is a " ++ g.kind.name]

/-- What is wrong with a grant for its step. -/
def scopeProblems (g : GrantRow) (profile : Option Profile) : List String :=
  let step := profile.bind fun p => p.step g.step
  let waivable := (profile.map Profile.waivable).getD []
  let outside := match step with
    | some sp => g.named.filter (· ∉ sp.nodes.getD g.named)
    | none => []
  (if step.isNone then [s!"step {g.step} is not in the profile"]
    else if g.kind = .waiver ∧ g.step ∉ waivable then [s!"step {g.step} is not waivable"] else [])
  ++ (if g.kind = .variance ∧ orElse g.cmdDigest "" = "" then
    ["a variance grant binds a command digest"] else [])
  ++ (if g.kind = .selection ∧ g.named = [] then ["a selection grant names the granted nodes"] else [])
  ++ if (step.any fun sp => sp.nodes.getD [] ≠ []) ∧ outside ≠ [] then
    ["nodes outside the step's grant: " ++ commas (outside.take 3)] else []

/-- `grant_problems`. -/
def grantProblems (g : GrantRow) (profile : Option Profile) (grantors : List String) : List String :=
  (if orElse g.revokedAt "" = "" then [] else ["revoked"])
    ++ (if g.grantorPid ∈ grantors then []
      else [s!"{g.grantorPid} is not a waiver grantor on this board"])
    ++ messageProblems g
    ++ (if strip (orElse g.reason "") = "" ∨ strip (orElse g.risk "") = "" then
      ["reason and risk are required"] else [])
    ++ scopeProblems g profile

/-- A grant with its problems. -/
def GrantRow.checked (profile : Option Profile) (grantors : List String) (g : GrantRow) :
    CheckedGrant :=
  { g with problems := grantProblems g profile grantors }

/-- Is a grant about a step of this receipt? A waiver has to be cited. -/
def relevant (r : Receipt) (step : String) (kind : GrantKind) (g : CheckedGrant) : Bool :=
  g.step = step && g.kind = kind && g.gate = r.gate && (kind ≠ .waiver || r.waivers.contains g.label)

/-- Why a grant does not hold for this run. -/
def unverified (r : Receipt) (g : CheckedGrant) : List String :=
  let head := short (some r.headSha)
  let granted := short (some g.headSha)
  g.problems ++ (if g.headSha = r.headSha then [] else [s!"head {head} ≠ grant {granted}"])
    ++ if g.boundBase.isNone ∨ g.boundBase = r.base.shaBefore then []
      else ["base differs from the grant's"]

/-- `_covering`: the verified grants that cover a step. -/
def covering (grants : List CheckedGrant) (r : Receipt) (step : String) (kind : GrantKind) :
    List CheckedGrant :=
  grants.filter fun g => relevant r step kind g && unverified r g = []

/-- `_covering`: notes on cited grants that do not cover it. -/
def coveringNotes (grants : List CheckedGrant) (r : Receipt) (step : String) (kind : GrantKind) :
    List String :=
  (grants.filter fun g => relevant r step kind g && unverified r g ≠ []
      && (r.waivers.contains g.label || kind = .variance)).map fun g =>
    let why := "; ".intercalate (unverified r g)
    let shown := kind.name
    s!"{shown} {g.label}: unverified ({why})"

/-! ## Nodes -/

/-- The nodes that are granted to a step: those of the profile, or else those selected. -/
def grantedNodes (sp : Step) (selected : List String) : List String :=
  if sp.nodes.getD [] = [] then selected else sp.nodes.getD []

/-- `node_diff`: granted nodes that were not run. -/
def missingNodes (sp : Step) (nodes : List Node) (covered selected : List String) : List String :=
  (grantedNodes sp selected).filter fun g =>
    g ∉ (nodes.filter fun n => n.outcome ≠ .deselected).map Node.id ∧ g ∉ covered

/-- `node_diff`: the shrinkage, and why it is not known. -/
def nodeDiff (sp : Step) (st : StepReport) (covered selected : List String) :
    List String × List String :=
  match st.nodes with
  | none => ([], [])
  | some nodes =>
    if grantedNodes sp selected = [] then
      ([], ["no granted node set: list nodes in the profile, or a grantor attaches a "
        ++ "selection grant naming them for this head"])
    else
      let missing := missingNodes sp nodes covered selected
      if missing = [] then ([], [])
      else
        let more := missing.length - 3
        let sample := commas (missing.take 3) ++ if 3 < missing.length then s!" (+{more})" else ""
        let count := missing.length
        ([s!"{count} granted node(s) not run: {sample}"], [])

/-- The last report of a node. -/
def lastReport (nodes : List Node) (id : String) : Option Node :=
  nodes.reverse.find? fun n => n.id = id

/-- `by_id`: each node with its last report. -/
def byId (nodes : List Node) : List Node := (fromKeys (nodes.map Node.id)).filterMap (lastReport nodes)

/-! ## A must-fail step -/

/-- What a failure may be of: one of some exceptions, or, under the key of the default itself, the
text of its name. -/
inductive Allowed where
  | names (l : List String)
  | text (s : String)

/-- `expect.get(node_id) or [expect.get("default", DEFAULT_MF_EXC)]`. -/
def allowedFor (expect : ExpectFail) (id : String) : Allowed :=
  if id = "default" then .text expect.default
  else
    match (expect.nodes[id]?).filter (· ≠ []) with
    | some names => .names names
    | none => .names [expect.default]

/-- `exc_type in allowed`; nothing is not looked for in a text. -/
def Allowed.admits : Allowed → Option String → Option Bool
  | .names l, exc => some (exc.any (· ∈ l))
  | .text s, some exc => some (isWithin exc s)
  | .text _, none => none

/-- `' or '.join(allowed)`. -/
def Allowed.shown : Allowed → String
  | .names l => " or ".intercalate l
  | .text s => " or ".intercalate (s.toList.map Char.toString)

def expectFail (sp : Step) : ExpectFail := sp.expectFail.getD (.of defaultMfExc)

/-- What is wrong with a wanted node, none where the interpreter stops. -/
def mfReason (name id : String) (allowed : Allowed) : Option Node → Option (List Reason)
  | none => some [⟨.incomplete, s!"{name}: MF node {id} did not run (absent)", name⟩]
  | some n =>
    match n.outcome with
    | .error =>
      let exc := orElse n.excType "collection/setup error"
      some [⟨.fail, s!"{name}: MF node {id} errored ({exc}); "
        ++ "collection and import errors never count", name⟩]
    | .passed | .xpassed => some [⟨.fail, s!"{name}: MF node {id} passed at the MF commit", name⟩]
    | .skipped | .deselected =>
      let outcome := n.outcome.name
      some [⟨.incomplete, s!"{name}: MF node {id} {outcome}", name⟩]
    | .xfailed => some [⟨.fail, s!"{name}: MF node {id} xfailed (not a real failure)", name⟩]
    | .failed =>
      (allowed.admits n.excType).map fun ok =>
        if ok then []
        else
          let exc := orElse n.excType "an unknown type"
          let shown := allowed.shown
          [⟨.fail, s!"{name}: MF node {id} failed with {exc}, expected {shown}", name⟩]

/-- The nodes that must fail. -/
def wantedNodes (sp : Step) (nodes : List Node) : List String :=
  if sp.nodes.getD [] = [] then (nodes.filter fun n => n.outcome ≠ .deselected).map Node.id
  else sp.nodes.getD []

/-- `_eval_mf`. -/
def evalMf (sp : Step) (nodes : List Node) (covered : List String) : Option (List Reason) := do
  let wanted := wantedNodes sp nodes
  let found ← (wanted.filter (· ∉ covered)).mapM fun id =>
    mfReason sp.name id (allowedFor (expectFail sp) id) (lastReport nodes id)
  return (if wanted = [] then [⟨.incomplete, s!"{sp.name}: no must-fail node ran", sp.name⟩] else [])
    ++ found.flatten

/-! ## A test step -/

/-- The first count of a summary that the nodes do not have. -/
def mismatch (parsed counts : Counts) : Option (String × Nat × Nat) :=
  [("passed", parsed.passed, counts.passed), ("failed", parsed.failed, counts.failed),
    ("errors", parsed.errors, counts.errors), ("skipped", parsed.skipped, counts.skipped),
    ("xfailed", parsed.xfailed, counts.xfailed), ("xpassed", parsed.xpassed, counts.xpassed)].find?
      fun e => e.2.1 ≠ e.2.2

/-- The summary agrees with the nodes. -/
def summaryReasons (name : String) (parsed : Option Counts) (counts : Counts) : List Reason :=
  match parsed with
  | none => [⟨.incomplete, s!"{name}: summary has no pytest result line (unparsed)", name⟩]
  | some parsed =>
    match mismatch parsed counts with
    | some (key, said, counted) =>
      [⟨.fail, s!"{name}: inconsistent: summary says {said} {key}, nodes say {counted}", name⟩]
    | none => []

/-- The exit code agrees with the nodes, of which so many failed. -/
def rcReasons (name : String) (rc : Option Int) (bad : Nat) : List Reason :=
  match rc with
  | none => [⟨.incomplete, s!"{name}: no exit code", name⟩]
  | some rc =>
    if bad ≠ 0 ∧ rc = 0 then
      [⟨.fail, s!"{name}: inconsistent: rc 0 with {bad} failing node(s)", name⟩]
    else if bad = 0 ∧ rc ≠ 0 ∧ rc ≠ 5 then
      [⟨.fail, s!"{name}: inconsistent: rc {rc} with no failing node", name⟩]
    else []

/-- The nodes of an outcome. -/
def idsOf (nodes : List Node) (o : Outcome) : List String :=
  (nodes.filter fun n => n.outcome = o).map Node.id

/-- A list of reasons agrees with the nodes of its outcome. -/
def listReasons (name list word : String) (reasons : List Reasoned) (ids : List String) :
    List Reason :=
  if sorted (reasons.map Reasoned.node) = sorted ids then []
  else [⟨.fail, s!"{name}: inconsistent: {list} list does not match the {word}", name⟩]

/-- The step ran where it should. -/
def placeReasons (sp : Step) (st : StepReport) (r : Receipt) : List Reason :=
  let ran := short st.atSha
  let mf := short r.mfSha
  match sp.at with
  | .mf =>
    if st.atSha = none then
      [⟨.incomplete, s!"{sp.name}: no at_sha, so it is not shown to have run at the MF", sp.name⟩]
    else if st.atSha ≠ r.mfSha then
      [⟨.fail, s!"{sp.name}: ran at {ran}, not the MF {mf}", sp.name⟩]
    else []
  | .head =>
    if st.atSha ≠ none ∧ st.atSha ≠ some r.headSha then
      [⟨.fail, s!"{sp.name}: ran at {ran}, not the head", sp.name⟩]
    else []

/-- The counts are within the limits. -/
def limitReasons (sp : Step) (nodes : List Node) (counts : Counts) : List Reason :=
  let bad := counts.failed + counts.errors
  let passed := counts.passed + if sp.xfailCountsAsPass.getD false then counts.xfailed else 0
  let failing := (nodes.filter fun n => n.outcome = .failed ∨ n.outcome = .error).map Node.id
  let sample := commas (failing.take 3)
  let needs := sp.minPassed.getD 1
  (if sp.maxFailed.getD 0 < bad then
    [⟨.fail, s!"{sp.name}: {counts.failed} failed, {counts.errors} errors ({sample})", sp.name⟩]
    else [])
  ++ if passed < needs then
    [⟨.incomplete, s!"{sp.name}: vacuous: {passed} passed (needs {needs})", sp.name⟩] else []

/-- Why a node did not run, as the last entry about it says. -/
def whyNot (reasons : List Reasoned) (n : Node) : String :=
  orElse ((reasons.reverse.find? fun s => s.node = n.id).map Reasoned.reason) n.outcome.name

/-- What has to run did. -/
def mustRunReasons (name : String) (nodes : List Node) (reasons : List Reasoned)
    (covered : List String) (entry : String) : List Reason :=
  let hits := (byId nodes).filter fun n => within n.id entry && n.id ∉ covered
  if hits = [] then
    if covered.any fun i => startsWith entry i then []
    else [⟨.incomplete, s!"{name}: must_run {entry} did not run (absent)", name⟩]
  else
    match hits.filter fun n => !n.outcome.ran with
    | [] => []
    | n :: rest =>
      let count := rest.length + 1
      let outcome := n.outcome.name
      let why := whyNot reasons n
      [⟨.incomplete, s!"{name}: must_run {entry}: {count} node(s) {outcome} \"{why}\"", name⟩]

/-- A skip is allowed. -/
def skipReasons [Library] (name : String) (policy : SkipPolicy) (covered : List String)
    (s : Reasoned) : List Reason :=
  if s.node ∈ covered then []
  else if s.reason = "" then
    [⟨.incomplete, s!"{name}: skip without a reason ({s.node})", name⟩]
  else if policy.allowReasons.any fun p => Library.search p s.reason then []
  else [⟨policy.otherwise, s!"{name}: skip not allowed: \"{s.reason}\" ({s.node})", name⟩]

def skipPolicy (sp : Step) : SkipPolicy := sp.skipPolicy.getD (.incomplete [])

section

variable [Library] [Tables]

/-- What a test step at the head is asked for. -/
def headReasons (sp : Step) (nodes : List Node) (skips deselected : List Reasoned)
    (covered : List String) : List Reason :=
  limitReasons sp nodes (nodeCounts nodes)
    ++ (sp.mustRun.getD []).flatMap (mustRunReasons sp.name nodes (skips ++ deselected) covered)
    ++ skips.flatMap (skipReasons sp.name (skipPolicy sp) covered)

/-- What both kinds of test steps are asked for. -/
def agreeReasons (sp : Step) (st : StepReport) (r : Receipt) (nodes : List Node)
    (skips deselected : List Reasoned) : List Reason :=
  let counts := nodeCounts nodes
  summaryReasons sp.name (parsePytest st.summary) counts
    ++ rcReasons sp.name st.rc (counts.failed + counts.errors)
    ++ listReasons sp.name "skips" "skipped nodes" skips (idsOf nodes .skipped)
    ++ listReasons sp.name "deselected" "nodes" deselected (idsOf nodes .deselected)
    ++ placeReasons sp st r

/-- The lists a test step has to report. -/
def missingLists (st : StepReport) : List String :=
  (if st.nodes.isNone then ["nodes"] else []) ++ (if st.skips.isNone then ["skips"] else [])
    ++ if st.deselected.isNone then ["deselected"] else []

/-- `_eval_pytest`. -/
def evalPytest (sp : Step) (st : StepReport) (r : Receipt) (covered : List String) :
    Option (List Reason) :=
  match st.nodes, st.skips, st.deselected with
  | some nodes, some skips, some deselected =>
    match sp.at with
    | .mf => (evalMf sp nodes covered).map (agreeReasons sp st r nodes skips deselected ++ ·)
    | .head => some (agreeReasons sp st r nodes skips deselected
        ++ headReasons sp nodes skips deselected covered)
  | _, _, _ =>
    let missing := "/".intercalate (missingLists st)
    some [⟨.incomplete,
      s!"{sp.name}: no {missing} list (an empty list is explicit; absent is not)", sp.name⟩]

/-! ## Other steps -/

/-- `_eval_simple`. -/
def evalSimple (sp : Step) (st : StepReport) : List Reason :=
  match st.rc with
  | none => [⟨.incomplete, s!"{sp.name}: no exit code", sp.name⟩]
  | some rc =>
    match sp.kind with
    | .rc => if rc = 0 then [] else [⟨.fail, s!"{sp.name}: rc {rc}", sp.name⟩]
    | .mypy =>
      match parseMypy st.summary with
      | none => [⟨.incomplete, s!"{sp.name}: summary has no mypy result line (unparsed)", sp.name⟩]
      | some parsed =>
        let said := if parsed.ok then "Success" else s!"Found {parsed.errors}"
        if parsed.ok ≠ decide (rc = 0) then
          [⟨.fail, s!"{sp.name}: inconsistent: rc {rc} with {said}", sp.name⟩]
        else if sp.maxErrors.getD 0 < parsed.errors then
          [⟨.fail, s!"{sp.name}: Found {parsed.errors} errors", sp.name⟩]
        else []
    | _ =>
      match parseRuff st.summary with
      | none => [⟨.incomplete, s!"{sp.name}: summary has no ruff result line (unparsed)", sp.name⟩]
      | some violations =>
        if decide (violations = 0) ≠ decide (rc = 0) then
          [⟨.fail, s!"{sp.name}: inconsistent: rc {rc} with {violations} violations", sp.name⟩]
        else if sp.maxViolations.getD 0 < violations then
          [⟨.fail, s!"{sp.name}: {violations} violations", sp.name⟩]
        else []

/-! ## Steps -/

/-- `cmd_digest`. -/
def cmdDigest (cmd : Option EffectiveCmd) : String :=
  let argv := (cmd.map fun c => c.argv).getD []
  let env := (cmd.map fun c => c.env.toList.map fun e => (e.1, Value.str e.2)).getD []
  "sha256:" ++ Library.sha256 (Library.dumps (object [("argv", strings argv), ("env", .obj env)]))

/-- What the command of a step is held against. -/
def commandGrant (p : Profile) (r : Receipt) (sp : Step) : Grant where
  granted := sp.argv.getD []
  allowedEnv := p.allowedEnv
  worktree := r.worktree.path
  runnerRef := p.runnerRef

/-- Why the command of a step needs a review. -/
def weakened (p : Profile) (r : Receipt) (sp : Step) (st : StepReport) : List String :=
  commandDiff (commandGrant p r sp) sp.kind.name (st.effectiveCmd.map EffectiveCmd.toCommand)

/-- The variance grant that accepts the command of a step. -/
def variance (grants : List CheckedGrant) (r : Receipt) (sp : Step) (st : StepReport) :
    Option CheckedGrant :=
  (covering grants r sp.name .variance).find? fun g =>
    g.cmdDigest = some (cmdDigest st.effectiveCmd)

/-- The nodes that selection grants name for a step. -/
def selectedNodes (grants : List CheckedGrant) (r : Receipt) (step : String) : List String :=
  sorted (fromKeys ((covering grants r step .selection).flatMap fun g => g.named))

/-- The nodes that waivers cover. -/
def coveredNodes (grants : List CheckedGrant) (r : Receipt) (step : String) : List String :=
  (covering grants r step .waiver).flatMap fun g => g.named

/-- What the verdict says of a command, as its own reasons and as those of its step. -/
def commandReasons (p : Profile) (grants : List CheckedGrant) (r : Receipt) (sp : Step)
    (st : StepReport) : List Reason × List Reason :=
  let weak := weakened p r sp st
  if weak = [] then ([], [])
  else
    match variance grants r sp st with
    | some g => ([⟨.waived, s!"{sp.name}: command variance accepted by {g.label}", sp.name⟩], [])
    | none =>
      let shown := "; ".intercalate weak
      ([], ⟨.fail, s!"{sp.name}: weakened: {shown} (needs a variance grant)", sp.name⟩
        :: (coveringNotes grants r sp.name .variance).map fun n => ⟨.note, n, sp.name⟩)

/-- The grants that select the nodes of a step. -/
def selectionReasons (grants : List CheckedGrant) (r : Receipt) (step : String) : List Reason :=
  let labels := commas ((covering grants r step .selection).map fun g => g.label)
  if selectedNodes grants r step = [] then []
  else [⟨.waived, s!"{step}: node set granted by {labels}", step⟩]

/-- What the verdict says of the granted nodes: that they are not known, and that some are missing. -/
def nodeReasons (grants : List CheckedGrant) (r : Receipt) (sp : Step) (st : StepReport) :
    List Reason × List Reason :=
  let (shrink, unknown) :=
    nodeDiff sp st (coveredNodes grants r sp.name) (selectedNodes grants r sp.name)
  let shown := "; ".intercalate shrink
  (unknown.map fun u => ⟨.incomplete, s!"{sp.name}: {u}", sp.name⟩,
    if shrink = [] then []
    else [⟨.fail, s!"{sp.name}: weakened: {shown} (needs a waiver naming those nodes)", sp.name⟩])

/-- The reasons of a step that ran: its own, and those that count where it is required. -/
def ranReasons (p : Profile) (grants : List CheckedGrant) (r : Receipt) (sp : Step)
    (st : StepReport) : Option (List Reason × List Reason) := do
  let (granted, weak) := commandReasons p grants r sp st
  if sp.kind = .pytest then
    let (unknown, shrink) := nodeReasons grants r sp st
    let found ← evalPytest sp st r (coveredNodes grants r sp.name)
    return (selectionReasons grants r sp.name ++ granted, unknown ++ weak ++ shrink ++ found)
  return (granted, weak ++ evalSimple sp st)

/-- `f" ({st['reason']})"`, where there is one. -/
def because (st : StepReport) : String :=
  match st.reason with
  | some why => s!" ({why})"
  | none => ""

/-- The reasons of a step as it was reported. -/
def reportReasons (p : Profile) (grants : List CheckedGrant) (r : Receipt) (sp : Step) :
    Option (List Reason × List Reason) :=
  match r.steps.find? fun st => st.name = sp.name with
  | none => some ([], [⟨.incomplete, s!"{sp.name}: missing", sp.name⟩])
  | some st =>
    let why := because st
    match st.state with
    | .void => some ([], [⟨.void, s!"{sp.name}: void{why}", sp.name⟩])
    | .skipped => some ([], [⟨.incomplete, s!"{sp.name}: skipped{why}", sp.name⟩])
    | .notRun => some ([], [⟨.incomplete, s!"{sp.name}: not run{why}", sp.name⟩])
    | .ran => ranReasons p grants r sp st

/-- The waiver of a whole step. -/
def wholeWaiver (grants : List CheckedGrant) (r : Receipt) (step : String) : Option CheckedGrant :=
  (covering grants r step .waiver).find? fun g => g.named = []

/-- The reasons of a step. -/
def stepReasons (p : Profile) (grants : List CheckedGrant) (r : Receipt) (sp : Step) :
    Option (List Reason) :=
  match wholeWaiver grants r sp.name with
  | some g => some [⟨.waived, s!"{sp.name}: waived by {g.label}", sp.name⟩]
  | none => do
    let (own, found) ← reportReasons p grants r sp
    if ¬ sp.required then return own ++ found.map fun f => ⟨.note, f.text, sp.name⟩
    let notes := if found = [] then [] else coveringNotes grants r sp.name .waiver
    return own ++ found ++ notes.map fun n => ⟨.note, n, sp.name⟩

/-! ## Inputs -/

/-- `CONTENT_PREFIXES`. -/
def contentPrefixes : InputKind → List String
  | .file => ["sha256:"]
  | .dir => ["tree:"]
  | .gcs => ["gcs:"]
  | .artifact => ["sha256:", "tree:", "gcs:"]
  | .db => ["snapshot:", "rows:"]

/-- What is wrong with an input that was reported. -/
def boundReasons (p : Profile) (decl : InputDecl) (inp : Input) : List Reason :=
  let name := decl.name
  let reported := inp.kind.name
  let declared := decl.kind.name
  if inp.kind ≠ decl.kind then
    [⟨.incomplete, s!"input {name} is {reported}, declared {declared}", none⟩]
  else if inp.state = .missing then
    let locator := if inp.locator = "" then "" else s!" ({inp.locator})"
    [⟨.void, s!"input {name} missing{locator}", none⟩]
  else
    match inp.contentId.filter fun id => inp.state ≠ .unbound ∧ id ≠ "" with
    | none =>
      let what := if inp.kind = .db then
        "a query/window is not an immutable identity; bind snapshot: or rows:"
        else orElse inp.note "no content id"
      [⟨.incomplete, s!"input {name} unbound ({what})", none⟩]
    | some id =>
      let prefixes := " or ".intercalate (contentPrefixes inp.kind)
      if ¬ (contentPrefixes inp.kind).any fun start => startsWith start id then
        [⟨.incomplete, s!"input {name}: content id must start with {prefixes}", none⟩]
      else if inp.verification ≠ .hashedAtRun ∧ inp.kind.name ∉ p.acceptUnverified then
        let how := if inp.kind ∈ daemonHashedKinds then
          "the daemon could not rehash it from a local path"
          else s!"the profile does not accept unverified {reported} inputs"
        [⟨.incomplete, s!"input {name} is self-supplied and unverified ({how})", none⟩]
      else []

/-- `_eval_inputs`. -/
def evalInputs (r : Receipt) (p : Profile) : List Reason :=
  (p.inputs.filter InputDecl.required).flatMap fun decl =>
    match r.inputs.find? fun inp => inp.name = decl.name with
    | none => [⟨.incomplete, s!"input {decl.name} not reported", none⟩]
    | some inp => boundReasons p decl inp

/-! ## The verdict -/

inductive Verdict where
  | pass | fail | void | incomplete
  deriving DecidableEq

structure Result where
  verdict : Verdict
  reasons : List Reason

/-- The order in which a result lists its reasons. -/
def Level.order : Level → Nat
  | .fail => 0
  | .void => 1
  | .incomplete => 2
  | .waived => 3
  | .note => 4

/-- `_combine`. -/
def combine (reasons : List Reason) : Result where
  verdict :=
    if reasons.any fun f => f.level = .fail then .fail
    else if reasons.any fun f => f.level = .void then .void
    else if reasons.any fun f => f.level = .incomplete then .incomplete
    else .pass
  reasons := sortByKey (fun f => f.level.order) reasons

/-- What the profile requires of the receipt as a whole. -/
def requiredReasons (req : Require) (r : Receipt) : List Reason :=
  (if req.attestation = some "cm-gate" then
    [⟨.incomplete, "profile requires a CM-verified run, which v1 cannot "
      ++ "attest (daemon-verified run evidence is deferred); this receipt is "
      ++ "self-attested", none⟩] else [])
  ++ (if req.mfSha ∧ r.mfSha = none then [⟨.incomplete, "no MF SHA", none⟩] else [])
  ++ (if req.runner ∧ r.runner.isNone then [⟨.incomplete, "no runner identity", none⟩] else [])
  ++ if req.rulingId ∧ r.rulingId = none then [⟨.incomplete, "no ruling id", none⟩] else []

/-- The worktree stayed at the head, and was clean. -/
def worktreeReasons (r : Receipt) : List Reason :=
  let wt := r.worktree
  let before := short wt.headBefore
  let behind := short wt.headAfter
  let head := short (some r.headSha)
  (if wt.headBefore = none ∨ wt.headAfter = none then
    [⟨.incomplete, "worktree identity before/after missing", none⟩]
  else
    (if wt.headBefore = wt.headAfter then []
      else [⟨.incomplete, s!"code moved during the run: {before} → {behind}", none⟩])
    ++ if wt.headBefore = some r.headSha then []
      else [⟨.incomplete, s!"checkout was at {before}, not the head {head}", none⟩])
  ++ if wt.dirtyBefore = some true ∨ wt.dirtyAfter = some true then
      [⟨.incomplete, "worktree was dirty", none⟩]
    else if wt.dirtyBefore = none ∨ wt.dirtyAfter = none then
      [⟨.incomplete, "worktree cleanliness not recorded", none⟩]
    else []

/-- The base is the one that was granted, and the head merges with it. -/
def baseReasons (cfg : BaseRule) (r : Receipt) : List Reason :=
  let base := r.base
  let ran := base.ref.getD ""
  let paths := (r.closure.map Closure.paths).getD []
  (if base.ref.any (· ≠ cfg.ref) then
    [⟨.fail, s!"weakened: base {ran} instead of the granted {cfg.ref}", none⟩] else [])
  ++ (if base.shaAfter = none ∨ base.mergeTreeAfter = none ∨ base.mergeTreeBefore = none then
      [⟨.incomplete, "base / merge-tree identity missing", none⟩]
    else if base.mergeTreeBefore ≠ base.mergeTreeAfter then
      [⟨.incomplete, "merge tree changed during the run", none⟩]
    else if base.mergeTreeAfter = some "conflict" then
      [⟨.incomplete, "head conflicts with the base", none⟩]
    else [])
  ++ if cfg.scope = .paths ∧ paths = [] then
      [⟨.incomplete, "no closure file set (base scope paths needs one)", none⟩] else []

/-- `evaluate`, none where the interpreter stops. -/
def evaluate (r : Receipt) (profile : Option Profile) (grants : List CheckedGrant)
    (klass : Option String) : Option Result :=
  match profile with
  | none =>
    let shown := orElse klass "(default)"
    some (combine [⟨.incomplete, s!"no gate profile for class {shown}", none⟩])
  | some p => do
    let found ← p.steps.mapM (stepReasons p grants r)
    return combine (requiredReasons p.require r ++ worktreeReasons r
      ++ (p.base.map fun cfg => baseReasons cfg r).getD [] ++ found.flatten ++ evalInputs r p)

end

end Gate
