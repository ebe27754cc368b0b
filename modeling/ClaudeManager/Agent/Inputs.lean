import Mathlib
import ClaudeManager.Program.Runs

/-!
# What the daemon knows about an agent

The observations of one session: what its terminal, its status file, its hooks and its relay
said, and what was sent to it.

* `Inputs` — all observations, and the input that was accepted last
* `newer`, `maxTime` — how times that may be missing compare
* `Background.update` — background jobs across reports

Times are exact numbers of seconds.
-/

namespace Agent

abbrev Time := Rat

/-- There is an edge, and it is later than the other one. -/
def newer (edge than : Option Time) : Bool :=
  edge.any fun t => than.all fun other => other < t

def maxTime : Option Time → Option Time → Option Time
  | some a, some b => some (max a b)
  | some a, none => some a
  | none, b => b

/-! ## Published state -/

inductive State where
  | working
  | workingBackground
  | waitingOnHuman
  | errored
  | idle
  | starting
  | exited
  | unknown
  deriving DecidableEq

inductive Source where
  | presence
  | hooks
  | relay
  | transcript
  | pty
  deriving DecidableEq

def Source.engineReported : Source → Bool
  | .presence | .hooks | .relay => true
  | .transcript | .pty => false

structure Detail where
  inputPending : Option Bool
  noTurnAt : Option Time
  /-- Unknown must not become idle from PTY quiet while a real hook turn is open. -/
  confirmedTurnOpen : Option Bool
  waitingFor : Option String
  errorKind : Option String
  resumesAt : Option Time
  retrying : Option Bool
  openTool : Option String
  dialogVisible : Option Bool
  limitMenu : Option String
  limitMenuAt : Option Time
  deriving DecidableEq

def Detail.default : Detail := ⟨none, none, none, none, none, none, none, none, none, none, none⟩

inductive LimitMenuOutcome where
  | escapeSent
  | cleared
  | needsHuman
  deriving DecidableEq

def LimitMenuOutcome.asStr : LimitMenuOutcome → String
  | .escapeSent => "escape_sent"
  | .cleared => "cleared"
  | .needsHuman => "needs_human"

/-- Bound to the turn counter at the boundary: any later turn makes it stale. -/
structure LimitMenuRecord where
  outcome : LimitMenuOutcome
  at_ : Time
  attempts : Nat
  turnSeq : Nat
  deriving DecidableEq

inductive TurnStatus where
  | completed
  | interrupted
  | failed
  deriving DecidableEq

structure LastTurn where
  endedAt : Option Time
  status : Option TurnStatus
  deriving DecidableEq

/-! ## Background jobs -/

inductive JobKind where
  | shell
  | subagent
  | monitor
  | workflow
  | terminal
  | thread
  deriving DecidableEq

structure Job where
  id : String
  kind : JobKind
  label : String
  pid : Option Nat
  cpu : Option Time
  firstSeenAt : Time
  wakesAgent : Bool
  deriving DecidableEq

structure Cron where
  id : String
  schedule : String
  recurring : Bool
  deriving DecidableEq

structure EndedJob where
  id : String
  label : String
  endedAt : Time
  deriving DecidableEq

structure Background where
  complete : Bool
  observedAt : Option Time
  jobs : List Job
  crons : List Cron
  ended : List EndedJob
  deriving DecidableEq

namespace Background

def default : Background := ⟨false, none, [], [], []⟩

/-- A missing job proves an ending only when both enumerations are complete. -/
def vanished (old next : Background) (now : Time) : List EndedJob :=
  if old.complete && next.complete then
    (old.jobs.filter fun j => !(next.jobs.any fun k => k.id = j.id)
      && !(next.ended.any fun e => e.id = j.id && j.firstSeenAt ≤ e.endedAt)).map
        fun j => ⟨j.id, j.label, now⟩
  else []

/-- The last ten endings, each once. -/
def endings (old next : Background) (now : Time) : List EndedJob :=
  let known := old.ended ++ old.vanished next now
  let all := next.ended.foldl (fun l e => if e ∈ l then l else l ++ [e]) known
  let sorted := all.mergeSort fun a b => a.endedAt ≤ b.endedAt
  sorted.drop (sorted.length - 10)

/-- The daemon's first sighting of a job stays. -/
def sighted (old : Background) (j : Job) : Job :=
  match old.jobs.find? fun k => k.id = j.id && k.kind = j.kind with
  | some k => { j with firstSeenAt := min k.firstSeenAt j.firstSeenAt }
  | none => j

def update (old next : Background) (now : Time) : Background where
  complete := next.complete
  observedAt := some now
  jobs := (next.jobs.map old.sighted).mergeSort fun a b => a.id ≤ b.id
  crons := next.crons.mergeSort fun a b => a.id ≤ b.id
  ended := old.endings next now

end Background

/-! ## Observations -/

inductive PresenceStatus where
  | busy
  | idle
  | waiting
  | shell
  | unknown
  deriving DecidableEq

/-- The wait that a proof is about. -/
structure Key where
  hookAt : Option Time
  presenceAt : Option Time
  deriving DecidableEq

/-- A proof that a permission wait ended. -/
structure Resolution where
  key : Key
  at_ : Time
  path : String
  /-- Checked by this process. -/
  verified : Bool
  deriving DecidableEq

/-- The engine's status file. -/
structure PresenceObs where
  valid : Bool
  status : PresenceStatus
  observedAt : Time
  statusUpdatedAt : Option Time
  engineVersion : Option String
  waitingFor : Option String
  mainTurnOpen : Option Bool
  transcriptError : Option String
  transcriptEnd : Option LastTurn
  transcriptEvidencePath : Option String
  waitResolution : Option Resolution
  deriving DecidableEq

structure HookEdges where
  promptAt : Option Time
  stopAt : Option Time
  failureAt : Option Time
  waitingAt : Option Time
  waitingToolId : Option String
  waitingFor : Option String
  errorKind : Option String
  resumesAt : Option Time
  openTool : Option String
  deriving DecidableEq

def HookEdges.default : HookEdges := ⟨none, none, none, none, none, none, none, none, none⟩

def HookEdges.observedAt (h : HookEdges) : Option Time :=
  maxTime (maxTime (maxTime h.promptAt h.stopAt) h.failureAt) h.waitingAt

inductive RelayStatus where
  | idle
  | active
  | systemError
  deriving DecidableEq

inductive RequestKind where
  | approval
  | userInput
  | elicitation
  | toolCall
  | authRefresh
  deriving DecidableEq

/-- As `Debug` prints it. -/
def RequestKind.debug : RequestKind → String
  | .approval => "Approval"
  | .userInput => "UserInput"
  | .elicitation => "Elicitation"
  | .toolCall => "ToolCall"
  | .authRefresh => "AuthRefresh"

structure PendingRequest where
  kind : RequestKind
  since : Time
  deriving DecidableEq

/-- The latest snapshot of a relay, which counts the turns of its epoch. -/
structure RelaySnapshot where
  backendConnected : Bool
  foreground : RelayStatus
  observedAt : Time
  engineVersion : Option String
  transcriptPath : Option String
  turnSeq : Nat
  turnStartedAt : Option Time
  lastTurn : LastTurn
  activeFlags : List String
  pendingRequests : List PendingRequest
  childActive : Bool
  retrying : Bool
  errorKind : Option String
  background : Background
  deriving DecidableEq

/-- The clocks of the session's terminal. -/
structure LegacyObs where
  hasTranscript : Bool
  ptyIdle : Bool
  semanticIdle : Option Bool
  activityAt : Option Time
  inputAt : Option Time
  turnEndedAt : Option Time
  deriving DecidableEq

def LegacyObs.default : LegacyObs := ⟨false, false, none, none, none, none⟩

/-- The input that was accepted last. -/
structure InputDelivery where
  requestedAt : Time
  submittedAt : Option Time
  localCommand : Bool
  engineStarted : Bool
  deriving DecidableEq

structure AgentState where
  state : State
  since : Time
  detail : Detail
  source : Source
  observedAt : Time
  engineVersion : Option String
  turnSeq : Nat
  latestStartAt : Option Time
  engineTurnStartedAt : Option Time
  lastTurn : LastTurn
  background : Background
  stalledSince : Option Time
  deriving DecidableEq

/-- Does the session count as idle for those who know idle and busy only? -/
def AgentState.compatibilityIdle (a : AgentState) (ptyIdle presenceEnabled : Bool) : Bool :=
  if a.detail.confirmedTurnOpen = some true then false
  else if a.state = .unknown || (a.source = .presence && !presenceEnabled) then ptyIdle
  else if a.source.engineReported then !(a.state = .working || a.state = .starting)
  else ptyIdle

structure Inputs where
  spawnedAt : Time
  exited : Bool
  legacy : LegacyObs
  presence : Option PresenceObs
  hooks : HookEdges
  relay : Option RelaySnapshot
  turnSeq : Nat
  latestStart : Option Time
  delivery : Option InputDelivery
  background : Background
  lastProgressAt : Option Time
  previous : Option AgentState
  limitMenu : Option LimitMenuRecord
  deriving DecidableEq

/-! ## Times that may be missing -/

section

variable {a b : Option Time} {t u : Time}

@[simp] theorem newer_some_some : newer (some t) (some u) = decide (u < t) := by
  simp [newer]

@[simp] theorem newer_some_none : newer (some t) none = true := rfl

@[simp] theorem newer_none : newer none a = false := rfl

theorem newer_iff : newer a b = true ↔ ∃ t, a = some t ∧ ∀ u, b = some u → u < t := by
  cases a <;> cases b <;> simp

@[simp] theorem maxTime_none_left : maxTime none a = a := by cases a <;> rfl

@[simp] theorem maxTime_none_right : maxTime a none = a := by cases a <;> rfl

@[simp] theorem maxTime_some_some : maxTime (some t) (some u) = some (max t u) := rfl

theorem newer_trans {c : Option Time} (h : newer a b = true) (h' : newer b c = true) :
    newer a c = true := by
  obtain ⟨t, rfl, ht⟩ := newer_iff.mp h
  obtain ⟨u, rfl, hu⟩ := newer_iff.mp h'
  exact newer_iff.mpr ⟨t, rfl, fun v hv => (hu v hv).trans (ht u rfl)⟩

/-- Later than both is later than the later one. -/
theorem newer_maxTime {c : Option Time} :
    newer c (maxTime a b) = (newer c a && newer c b) := by
  cases a <;> cases b <;> cases c <;> simp

end

end Agent
