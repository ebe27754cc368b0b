import Mathlib
import ClaudeManager.Agent.Inputs

/-!
# What state an agent is in

`derive` merges the observations of a session into one state. It is pure: `previous` gives the
time a state was entered, and holds back idle for a moment after working.

* `Inputs.lastTurn`, `Inputs.start`, … — what the observations say together, one by one
* `Inputs.classify` — the chain of precedence
* `derive` — the state that is published
-/

namespace Agent

namespace Inputs

variable (i : Inputs) (now : Time)

def waitFloor : Time :=
  (maxTime (maxTime (maxTime (maxTime (maxTime (some i.spawnedAt) i.latestStart) i.hooks.promptAt)
    i.hooks.stopAt) i.hooks.failureAt) i.legacy.turnEndedAt).getD i.spawnedAt

/-! ## The observations together -/

/-- Where the state comes from, and when it was observed. -/
def source : Source × Time × Option String :=
  match i.relay with
  | some r => (.relay, r.observedAt, r.engineVersion)
  | none =>
    match i.presence with
    | some p => (.presence, p.observedAt, p.engineVersion)
    | none =>
      match i.hooks.observedAt with
      | some t => (.hooks, t, none)
      | none => (.pty, (maxTime i.legacy.activityAt i.legacy.turnEndedAt).getD i.spawnedAt, none)

/-- When work was last sent or seen to start. -/
def start : Option Time :=
  if i.source.1.engineReported && i.source.1 ≠ .presence then i.latestStart
  else maxTime i.latestStart i.legacy.inputAt

/-- The end the hooks or the terminal tell of. -/
def hookTurn : LastTurn :=
  if newer i.hooks.failureAt i.hooks.stopAt then ⟨i.hooks.failureAt, some .failed⟩
  else if i.hooks.stopAt.isSome then ⟨i.hooks.stopAt, some .completed⟩
  else ⟨i.legacy.turnEndedAt, i.legacy.turnEndedAt.map fun _ => .completed⟩

/-- The end of the transcript, where its status file is valid. -/
def transcriptEnd : Option LastTurn :=
  (i.presence.filter fun p => p.valid).bind PresenceObs.transcriptEnd

def lastTurn : LastTurn :=
  let turn := match i.relay with
    | some r => r.lastTurn
    | none => i.hookTurn
  if i.source.1 = .presence then
    match i.transcriptEnd with
    | some e => if newer e.endedAt turn.endedAt then e else turn
    | none => turn
  else turn

/-- A verified proof that a wait ended, in the transcript that is read. -/
def waitResolution : Option Resolution :=
  ((i.presence.filter fun p => p.valid).bind PresenceObs.waitResolution).filter fun r =>
    r.verified && r.at_ ≤ now && i.waitFloor < r.at_
      && i.presence.bind PresenceObs.transcriptEvidencePath = some r.path

def hookResolved : Bool :=
  (i.waitResolution now).any fun r => r.key.hookAt.isSome && r.key.hookAt = i.hooks.waitingAt
    && newer (some r.at_) i.hooks.waitingAt

def presenceResolved : Bool :=
  (i.waitResolution now).any fun r => r.key.presenceAt.isSome
    && r.key.presenceAt = i.presence.bind PresenceObs.statusUpdatedAt

def resumedAt : Option Time :=
  if i.hookResolved now || i.presenceResolved now then (i.waitResolution now).map Resolution.at_
  else none

/-- A status file that predates the prompt does not answer it yet; it has ten seconds to. -/
def presenceInputPending : Bool :=
  i.presence.any fun p => p.valid && p.status ≠ .unknown
    && newer i.start p.statusUpdatedAt
    && newer (i.latestStart <|> i.start) (maxTime i.hooks.promptAt i.lastTurn.endedAt)
    && i.start.any fun t => now - t < 10

/-- An actual unmatched prompt cannot expire: a status older than it stays older. -/
def presenceBehindHook : Bool :=
  i.relay.isNone && newer i.hooks.promptAt i.lastTurn.endedAt
    && i.presence.any fun p => newer i.hooks.promptAt p.statusUpdatedAt

def confirmedHookOpen : Bool :=
  i.relay.isNone && newer i.hooks.promptAt i.lastTurn.endedAt

def unverifiedError : Bool :=
  i.confirmedHookOpen && i.presence.any fun p =>
    p.status = .idle && p.transcriptError.isSome && p.transcriptEnd.isNone

def relayInputPending : Bool :=
  i.relay.any fun r => newer i.start (maxTime r.turnStartedAt r.lastTurn.endedAt)
    && i.start.any fun t => now - t < 15

def deliveryPending : Bool :=
  i.delivery.any fun d => !d.engineStarted
    && !(i.lastTurn.endedAt.any fun e => d.requestedAt ≤ e)
    && now - d.submittedAt.getD d.requestedAt < 15

/-- The input was submitted, and nothing came of it. -/
def noTurnCandidate : Bool :=
  i.legacy.ptyIdle && i.delivery.any fun d =>
    !d.engineStarted && d.submittedAt.any fun t => 15 ≤ now - t

/-! ## Waiting -/

def pending : Option PendingRequest :=
  i.relay.bind fun r => r.pendingRequests.find? fun p =>
    p.kind = .approval || p.kind = .userInput || p.kind = .elicitation

def flag : Option String :=
  i.relay.bind fun r => r.activeFlags.find? fun f =>
    f = "waitingOnApproval" || f = "waitingOnUserInput"

def isPermission (reason : Option String) : Bool :=
  reason = some "permission" || reason = some "permission_prompt"
    || reason = some "permission prompt"

/-- A status written after the hook that has stayed non-waiting ends the wait without an id. -/
def presenceSettled : Bool :=
  i.hooks.waitingToolId.isNone && isPermission i.hooks.waitingFor
    && i.presence.any fun p => p.valid && (p.status = .busy || p.status = .idle)
      && newer p.statusUpdatedAt i.hooks.waitingAt
      && p.statusUpdatedAt.any fun t => 10 ≤ p.observedAt - t

def hookWait : Bool :=
  !i.hookResolved now && !i.presenceSettled && i.hooks.waitingFor ≠ some "idle_prompt"
    && newer i.hooks.waitingAt (maxTime i.start i.lastTurn.endedAt)

def presenceWait : Bool :=
  i.presence.any fun p => p.status = .waiting && !i.presenceResolved now
    && !newer (maxTime i.hooks.promptAt i.lastTurn.endedAt) p.statusUpdatedAt

def waiting : Bool :=
  i.pending.isSome || i.flag.isSome || i.hookWait now || i.presenceWait now

/-! ## The chain of precedence -/

/-- The status file or the relay cannot be read. -/
def unreadable : Bool :=
  (i.presence.any fun p => !p.valid || p.status = .unknown)
    || i.relay.any fun r => !r.backendConnected || 90 < now - r.observedAt

/-- Something was sent, and no answer to it was seen yet. -/
def inputPending : Bool :=
  i.presenceInputPending now || i.relayInputPending now
    || (i.source.1.engineReported && i.deliveryPending now)

/-- The last turn failed, and nothing started since. -/
def failed : Bool :=
  (i.lastTurn.status = some .failed && !newer i.start i.lastTurn.endedAt)
    || (i.relay.any fun r => r.foreground = .systemError && !newer i.start (some r.observedAt))
    || i.presence.any fun p => p.status = .idle && p.transcriptError.isSome
      && i.start.isNone && i.lastTurn.endedAt.isNone

/-- A turn is open, as far as hooks tell; without hooks, as the transcript or the terminal do. -/
def open_ : Bool :=
  if i.hooks.promptAt.isSome then newer i.start i.lastTurn.endedAt
  else (i.presence.bind PresenceObs.mainTurnOpen).getD (i.legacy.semanticIdle ≠ some true)

def active : Bool :=
  (i.relay.isNone && !i.noTurnCandidate now && newer i.start (some i.source.2.1))
    || (newer (i.resumedAt now) i.lastTurn.endedAt && i.presence.any fun p =>
      (p.status = .waiting || p.status = .idle) && newer (i.resumedAt now) p.statusUpdatedAt)
    || (i.presenceBehindHook && i.presence.any fun p =>
      p.status = .idle || p.status = .waiting || p.status = .shell)
    || (i.relay.any fun r => r.foreground = .active)
    || (i.presence.any fun p => p.status = .busy && i.open_)
    || (i.source.1 = .hooks && !i.noTurnCandidate now && newer i.start i.lastTurn.endedAt)

def inBackground : Bool :=
  (i.presence.any fun p => p.status = .busy || p.status = .shell)
    || (i.relay.any fun r => r.childActive || i.background.jobs ≠ [])
    || (i.source.1 = .hooks && i.background.jobs ≠ [])

/-- What a wait is for. -/
def waitDetail : Detail :=
  { Detail.default with
    waitingFor := (i.pending.map fun p => p.kind.debug) <|> i.flag <|>
      if i.hookWait now then i.hooks.waitingFor else i.presence.bind PresenceObs.waitingFor
    openTool := if i.hookWait now then i.hooks.openTool else none }

def waitEntered : Time :=
  ((i.pending.map PendingRequest.since) <|> (if i.hookWait now then i.hooks.waitingAt else none) <|>
    i.presence.bind PresenceObs.statusUpdatedAt).getD i.source.2.1

def failDetail : Detail :=
  match i.relay with
  | some r => { Detail.default with errorKind := r.errorKind }
  | none =>
    if i.hooks.failureAt.isSome && i.hooks.failureAt = i.lastTurn.endedAt then
      { Detail.default with errorKind := i.hooks.errorKind, resumesAt := i.hooks.resumesAt }
    else { Detail.default with errorKind := i.presence.bind PresenceObs.transcriptError }

/-- The state of an engine that reports, when nothing is pending. -/
def engineState : State × Detail × Time :=
  if i.waiting now then (.waitingOnHuman, i.waitDetail now, i.waitEntered now)
  else if i.failed then (.errored, i.failDetail, i.lastTurn.endedAt.getD i.source.2.1)
  else if i.unverifiedError then
    (.unknown, { Detail.default with errorKind := some "unverified_transcript_error" },
      i.source.2.1)
  else if i.active now then
    (.working,
      { Detail.default with
        retrying := if i.relay.any RelaySnapshot.retrying then some true else none },
      (maxTime i.start (i.resumedAt now)).getD i.source.2.1)
  else if i.inBackground then (.workingBackground, Detail.default, i.source.2.1)
  else (.idle, Detail.default,
    ((i.presence.bind PresenceObs.statusUpdatedAt) <|> i.lastTurn.endedAt).getD i.source.2.1)

def classify : State × Detail × Time :=
  if i.exited then (.exited, Detail.default, now)
  else if !i.source.1.engineReported && !i.legacy.hasTranscript && now - i.spawnedAt < 120 then
    (.starting, Detail.default, i.spawnedAt)
  else if i.unreadable now then
    (.unknown, Detail.default, match i.relay.filter RelaySnapshot.backendConnected with
      | some r => r.observedAt + 90
      | none => i.source.2.1)
  else if i.inputPending now then (.working, Detail.default, i.start.getD i.source.2.1)
  else if i.source.1.engineReported then i.engineState now
  else if i.legacy.semanticIdle.getD i.legacy.ptyIdle then
    (.idle, Detail.default,
      (i.legacy.turnEndedAt <|> i.legacy.activityAt.map (· + 2)).getD i.spawnedAt)
  else (.working, Detail.default, (i.start <|> i.legacy.activityAt).getD i.spawnedAt)

/-! ## Publishing -/

/-- Idle just after working is working for a moment more; a state that stays was entered before. -/
def debounced (v : State × Detail × Time) : State × Time :=
  match i.previous with
  | some old =>
    if v.1 = .idle ∧ old.state = .working ∧ now - v.2.2 < 3 / 2 then (.working, old.since)
    else if old.state = v.1 ∧ old.source = i.source.1 then (v.1, old.since)
    else (v.1, v.2.2)
  | none => (v.1, v.2.2)

def progress : Time := (maxTime i.lastProgressAt i.start).getD i.spawnedAt

def stalledSince (state : State) : Option Time :=
  if (state = .working ∨ state = .workingBackground) ∧ 900 ≤ now - i.progress then
    some (i.progress + 900)
  else none

/-- The input that no engine start has answered. -/
def unanswered : Option InputDelivery :=
  i.delivery.filter fun d => i.source.1.engineReported && !d.engineStarted
    && !(i.lastTurn.endedAt.any fun e => d.requestedAt ≤ e)

/-- The input is pending, or was submitted and started no turn. -/
def noteDelivery (state : State) (detail : Detail) : Detail :=
  match i.unanswered with
  | some d =>
    match (d.submittedAt.filter fun t => 15 ≤ now - t).filter
        fun _ => i.legacy.ptyIdle && state = .idle with
    | some t => { detail with noTurnAt := some (t + 15) }
    | none => { detail with inputPending := some true }
  | none => detail

def noteOpen (state : State) (detail : Detail) : Detail :=
  if state = .unknown ∧ i.confirmedHookOpen = true then
    { detail with confirmedTurnOpen := some true }
  else detail

def noteDialog (state : State) (detail : Detail) : Detail :=
  if state = .waitingOnHuman ∧ i.source.1 = .presence ∧ detail.waitingFor = some "dialog open" then
    { detail with dialogVisible := some true }
  else detail

def noteMenu (state : State) (detail : Detail) : Detail :=
  match i.limitMenu.filter fun m => state ≠ .exited && m.turnSeq = i.turnSeq with
  | some menu => { detail with
    limitMenu := some menu.outcome.asStr
    limitMenuAt := some menu.at_ }
  | none => detail

def engineTurnStartedAt : Option Time :=
  match i.source.1 with
  | .relay => i.relay.bind RelaySnapshot.turnStartedAt
  | .hooks | .presence => i.hooks.promptAt
  | _ => none

end Inputs

/-- `derive`. -/
def derive (i : Inputs) (now : Time) : AgentState :=
  let v := i.classify now
  let state := (i.debounced now v).1
  let entered := (i.debounced now v).2
  { state := state
    since := min entered now
    detail := i.noteMenu state (i.noteDialog state (i.noteOpen state (i.noteDelivery now state v.2.1)))
    source := i.source.1
    observedAt := i.source.2.1
    engineVersion := i.source.2.2
    turnSeq := i.turnSeq
    latestStartAt := maxTime i.latestStart (i.relay.bind RelaySnapshot.turnStartedAt)
    engineTurnStartedAt := i.engineTurnStartedAt
    lastTurn := i.lastTurn
    background := i.background
    stalledSince := i.stalledSince now state }

end Agent
