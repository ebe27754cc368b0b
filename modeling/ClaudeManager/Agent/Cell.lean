import Mathlib
import ClaudeManager.Agent.Derive

/-!
# The state cell of a session

* `StateCell` — the observations, and what tells new reports from old ones
* `StateCell.noteInput`, `StateCell.engineStarts` — how turns are counted: an accepted input is
  counted at once, and the engine's start of it later is not
* `StateCell.apply` — a report of a hook or a relay

The reading of an epoch's id is a parameter.
-/

namespace Agent

def u64Max : Nat := 18446744073709551615

/-- `saturating_add`. -/
def satAdd (a b : Nat) : Nat := min (a + b) u64Max

def maxPromptIds : Nat := 256
def maxRetiredEpochs : Nat := 64
def maxTextBytes : Nat := 4096
def maxIdBytes : Nat := 256
def maxBackgroundEntries : Nat := 256

/-! ## Reports -/

inductive HookEvent where
  | userPromptSubmit
  | stop
  | stopFailure
  | permissionRequest
  | notification
  deriving DecidableEq

structure HookPayload where
  observedAt : Option Time
  promptId : Option String
  sessionId : Option String
  agentId : Option String
  toolUseId : Option String
  source : Option String
  lastAssistantMessage : Option String
  errorDetails : Option String
  continuing : Bool
  transcriptPath : Option String
  waitingFor : Option String
  errorKind : Option String
  resumesAt : Option Time
  toolName : Option String
  notificationType : Option String
  background : Option Background
  deriving DecidableEq

inductive Report where
  | hook (event : HookEvent) (payload : HookPayload)
  | snapshot (epoch : String) (seq : Nat) (snapshot : RelaySnapshot)
  deriving DecidableEq

structure Applied where
  accepted : Bool
  started : Bool
  ended : Bool
  refreshRollout : Bool
  transcriptPath : Option String
  deriving DecidableEq

def Applied.default : Applied := ⟨false, false, false, false, none⟩

/-! ## Checks -/

def refuse (bad : Prop) [Decidable bad] (message : String) : Except String Unit :=
  if bad then .error message else .ok ()

def bounded (text : Option String) (cap : Nat) (field : String) : Except String Unit :=
  refuse ((text.any fun t => cap < t.utf8ByteSize) = true) s!"{field} exceeds {cap} UTF-8 bytes"

def backgroundBounds (bg : Background) : Except String Unit := do
  refuse (maxBackgroundEntries < bg.jobs.length ∨ maxBackgroundEntries < bg.crons.length
    ∨ 10 < bg.ended.length) "background exceeds 256 jobs/crons or 10 ended jobs"
  for job in bg.jobs do
    bounded (some job.id) maxIdBytes "job id"
    bounded (some job.label) maxTextBytes "job label"
  for cron in bg.crons do
    bounded (some cron.id) maxIdBytes "cron id"
    bounded (some cron.schedule) maxTextBytes "cron schedule"
  for job in bg.ended do
    bounded (some job.id) maxIdBytes "ended job id"
    bounded (some job.label) maxTextBytes "ended job label"

/-- `validate_report_bounds`. -/
def Report.validateBounds : Report → Except String Unit
  | .hook _ payload => do
    bounded payload.promptId maxIdBytes "prompt_id"
    bounded payload.source maxIdBytes "source"
    bounded payload.sessionId maxIdBytes "session_id"
    bounded payload.agentId maxIdBytes "agent_id"
    bounded payload.toolUseId maxIdBytes "tool_use_id"
    for (field, text) in [("transcript_path", payload.transcriptPath),
        ("waiting_for", payload.waitingFor), ("error_kind", payload.errorKind),
        ("tool_name", payload.toolName), ("notification_type", payload.notificationType),
        ("last_assistant_message", payload.lastAssistantMessage),
        ("error_details", payload.errorDetails)] do
      bounded text maxTextBytes field
    match payload.background with
    | some bg => backgroundBounds bg
    | none => return ()
  | .snapshot epoch _ s => do
    bounded (some epoch) 36 "epoch"
    bounded s.engineVersion maxIdBytes "engine_version"
    bounded s.errorKind maxTextBytes "error_kind"
    bounded s.transcriptPath maxTextBytes "transcript_path"
    refuse (16 < s.activeFlags.length ∨ 256 < s.pendingRequests.length)
      "snapshot exceeds 16 active flags or 256 pending requests"
    for flag in s.activeFlags do
      bounded (some flag) maxIdBytes "active flag"
    backgroundBounds s.background

/-- No negative time, and none more than five seconds after `now`, where there is a `now`. -/
def validateTime (t now : Option Time) : Except String Unit :=
  refuse ((t.any fun t => t < 0 || now.any fun now => now + 5 < t) = true)
    "timestamps must be finite Unix seconds, no more than 5 seconds in the future"

def validateBackground (bg : Background) (now : Time) : Except String Unit := do
  for job in bg.jobs do
    validateTime (some job.firstSeenAt) (some now)
    refuse ((job.cpu.any fun cpu => cpu < 0) = true) "cpu must be a nonnegative percentage"
  for job in bg.ended do
    validateTime (some job.endedAt) (some now)

/-! ## The cell -/

structure StateCell where
  childStartTime : Option Nat
  inputs : Inputs
  epoch : Option String
  seq : Nat
  retiredEpochs : List String
  promptIds : List String
  pendingStarts : Nat
  deriving DecidableEq

def Inputs.new (now : Time) : Inputs :=
  ⟨now, false, .default, none, .default, none, 0, none, none, .default, none, none, none⟩

namespace StateCell

def new (now : Time) (childStartTime : Option Nat) : StateCell :=
  ⟨childStartTime, .new now, none, 0, [], [], 0⟩

/-- An accepted input counts as a turn; the engine's start of it is awaited. -/
def noteInput (c : StateCell) (now : Time) : StateCell :=
  { c with
    pendingStarts := satAdd c.pendingStarts 1
    inputs := { c.inputs with
      turnSeq := satAdd c.inputs.turnSeq 1
      latestStart := some now
      delivery := some ⟨now, none, false, false⟩ } }

def noteCommand (c : StateCell) (now : Time) : StateCell :=
  { c with inputs := { c.inputs with delivery := some ⟨now, none, true, false⟩ } }

def noteSubmitted (c : StateCell) (token now : Time) : StateCell :=
  { c with inputs := { c.inputs with
    delivery := c.inputs.delivery.map fun d =>
      if d.requestedAt = token then { d with submittedAt := some now } else d } }

/-- The delivery that a start answers. -/
def answer (chosen : InputDelivery → Bool) (delivery : Option InputDelivery) :
    Option InputDelivery :=
  delivery.map fun d => if chosen d then { d with engineStarted := true } else d

/-- Starts that were not counted as inputs before count now. -/
def engineStarts (c : StateCell) (count : Nat) (t : Time) : StateCell :=
  let covered := min c.pendingStarts count
  { c with
    pendingStarts := c.pendingStarts - covered
    inputs := { c.inputs with
      delivery := answer (fun d => d.requestedAt ≤ t) c.inputs.delivery
      turnSeq := satAdd c.inputs.turnSeq (count - covered)
      latestStart := maxTime c.inputs.latestStart (some t) } }

def recompute (c : StateCell) (now : Time) : AgentState × StateCell :=
  let state := derive c.inputs now
  (state, { c with inputs := { c.inputs with previous := some state } })

/-! ## Snapshots -/

def sameEpoch (c : StateCell) (epoch : String) : Bool := c.epoch = some epoch

/-- The turns of the epoch that were seen before. -/
def priorTurns (c : StateCell) (epoch : String) : Nat :=
  if c.sameEpoch epoch then (c.inputs.relay.map RelaySnapshot.turnSeq).getD 0 else 0

/-- A snapshot of a retired epoch, or one that is not newer. -/
def staleSnapshot (c : StateCell) (epoch : String) (seq : Nat) : Bool :=
  epoch ∈ c.retiredEpochs || (c.sameEpoch epoch && seq ≤ c.seq)

def checkSnapshot (c : StateCell) (epoch : String) (s : RelaySnapshot) (now : Time) :
    Except String Unit := do
  refuse (c.sameEpoch epoch = false ∧ c.epoch ≠ none ∧ maxRetiredEpochs ≤ c.retiredEpochs.length)
    "relay epoch history is full; restart the session before another relay epoch"
  refuse (s.turnSeq < c.priorTurns epoch) "turn_seq regressed within relay epoch"
  validateTime s.turnStartedAt (some now)
  validateTime s.lastTurn.endedAt (some now)
  for pending in s.pendingRequests do
    validateTime (some pending.since) (some now)
  validateBackground s.background now

/-- When the turns of a snapshot started. -/
def startOf (s : RelaySnapshot) (now : Time) : Time :=
  match s.turnStartedAt with
  | some t => t
  | none => if s.foreground = .active then now else s.lastTurn.endedAt.getD now

/-- Relay times are often whole seconds: a new start covers an input of its second. -/
def roundStart (c : StateCell) (starts : Nat) (t : Time) : StateCell :=
  { c with inputs := { c.inputs with
    latestStart :=
      if 0 < c.pendingStarts && c.pendingStarts ≤ starts
          && c.inputs.latestStart.any fun input => t < input && input.floor = t.floor then
        some t
      else c.inputs.latestStart
    delivery := answer (fun d => d.requestedAt.floor ≤ t.floor) c.inputs.delivery } }

def snapshotStarts (c : StateCell) (starts : Nat) (t : Time) : StateCell :=
  if 0 < starts then (c.roundStart starts t).engineStarts starts t else c

def enterEpoch (c : StateCell) (epoch : String) : StateCell :=
  if c.sameEpoch epoch then c
  else { c with
    epoch := some epoch
    retiredEpochs := match c.epoch with
      | some old => if old ∈ c.retiredEpochs then c.retiredEpochs else c.retiredEpochs ++ [old]
      | none => c.retiredEpochs }

/-- A job that is a terminal wakes nobody. -/
def quiet (bg : Background) : Background :=
  { bg with jobs := bg.jobs.map fun j =>
    if j.kind = .terminal then { j with wakesAgent := false } else j }

def keepSnapshot (c : StateCell) (seq : Nat) (s : RelaySnapshot) (now : Time) : StateCell :=
  let s := { s with observedAt := now, background := quiet s.background }
  { c with
    seq := seq
    inputs := { c.inputs with
      background := c.inputs.background.update s.background now
      relay := some s } }

def snapshotEnded (c : StateCell) (epoch : String) (s : RelaySnapshot) : Bool :=
  s.lastTurn.endedAt.isSome && !newer s.turnStartedAt s.lastTurn.endedAt
    && (!c.sameEpoch epoch || c.inputs.relay.all fun r => r.lastTurn ≠ s.lastTurn)

def applySnapshot (c : StateCell) (epoch : String) (seq : Nat) (s : RelaySnapshot) (now : Time) :
    StateCell × Except String Applied :=
  if c.staleSnapshot epoch seq then (c, .ok .default)
  else match c.checkSnapshot epoch s now with
    | .error e => (c, .error e)
    | .ok () =>
      let starts := s.turnSeq - c.priorTurns epoch
      let started := decide (0 < starts)
      let ended := c.snapshotEnded epoch s
      let refresh := started || ended
        || c.inputs.relay.all fun r => r.transcriptPath ≠ s.transcriptPath
      let c := c.snapshotStarts starts (startOf s now)
      ((c.enterEpoch epoch).keepSnapshot seq s now, .ok ⟨true, started, ended, refresh, none⟩)

/-! ## Hooks -/

/-- When the last turn ended, as hooks tell. -/
def hookEnd (c : StateCell) : Option Time := maxTime c.inputs.hooks.stopAt c.inputs.hooks.failureAt

def setHooks (c : StateCell) (f : HookEdges → HookEdges) : StateCell :=
  { c with inputs := { c.inputs with hooks := f c.inputs.hooks } }

/-- The ids of the last prompts. -/
def rememberPrompt (c : StateCell) (id : Option String) : StateCell :=
  match id with
  | some id => { c with
    promptIds := (if c.promptIds.length = maxPromptIds then c.promptIds.drop 1 else c.promptIds)
      ++ [id] }
  | none => c

/-- A prompt that is not newer, or whose id was seen. -/
def stalePrompt (c : StateCell) (p : HookPayload) (t : Time) : Bool :=
  !newer (some t) c.inputs.hooks.promptAt || p.promptId.any fun id => id ∈ c.promptIds

def applyPrompt (c : StateCell) (p : HookPayload) (t : Time) : Option (StateCell × Applied) :=
  if c.stalePrompt p t then none
  else
    let c := ((c.rememberPrompt p.promptId).setHooks fun h => { h with promptAt := some t })
    let c := c.engineStarts 1 t
    some (c, { Applied.default with started := !newer c.hookEnd (some t) })

/-- A turn that goes on at once is a new one. -/
def continueTurn (c : StateCell) (t : Time) : StateCell :=
  let next := t + 1 / 1000000
  let c := (c.engineStarts 1 next).setHooks fun h => { h with promptAt := some next }
  { c with inputs := { c.inputs with latestStart := some next } }

/-- A stop, or a failure with what is known of it. -/
def stopEdges (failure : Bool) (p : HookPayload) (t : Time) (h : HookEdges) : HookEdges :=
  if failure then
    { h with failureAt := some t, errorKind := p.errorKind, resumesAt := p.resumesAt }
  else { h with stopAt := some t }

def applyStop (c : StateCell) (failure : Bool) (p : HookPayload) (t : Time) :
    Option (StateCell × Applied) :=
  if !newer (some t) c.hookEnd then none
  else
    let c := c.setHooks (stopEdges failure p t)
    let ended := !newer c.inputs.latestStart (some t)
    if p.continuing && ended then
      some (c.continueTurn t, { Applied.default with started := true })
    else some (c, { Applied.default with ended := ended })

def applyWait (c : StateCell) (notification : Bool) (p : HookPayload) (t : Time) :
    Option (StateCell × Applied) :=
  if notification && !(p.notificationType = some "permission_prompt"
      || p.notificationType = some "elicitation_dialog") then none
  else if !newer (some t) c.inputs.hooks.waitingAt then none
  else
    some (c.setHooks fun h => { h with
      waitingAt := some t
      waitingToolId := p.toolUseId
      waitingFor := p.waitingFor <|> p.notificationType <|> some "permission"
      openTool := p.toolName }, .default)

def applyEvent (c : StateCell) (event : HookEvent) (p : HookPayload) (t : Time) :
    Option (StateCell × Applied) :=
  match event with
  | .userPromptSubmit => c.applyPrompt p t
  | .stop => c.applyStop false p t
  | .stopFailure => c.applyStop true p t
  | .permissionRequest => c.applyWait false p t
  | .notification => c.applyWait true p t

def keepBackground (c : StateCell) (bg : Option Background) (t : Time) : StateCell :=
  match bg with
  | some bg =>
    if newer c.inputs.background.observedAt (some t) then c
    else { c with inputs := { c.inputs with background := c.inputs.background.update bg t } }
  | none => c

def checkHook (p : HookPayload) (now : Time) : Except String Unit := do
  validateTime p.resumesAt none
  match p.background with
  | some bg => validateBackground bg now
  | none => return ()

/-- Hook children of another incarnation, or of a nested agent, tell nothing. -/
def foreignHook (c : StateCell) (p : HookPayload) (t : Time) : Bool :=
  t < c.inputs.spawnedAt || p.agentId.isSome

def applyHook (c : StateCell) (event : HookEvent) (p : HookPayload) (now : Time) :
    StateCell × Except String Applied :=
  let t := p.observedAt.getD now
  match validateTime (some t) (some now) with
  | .error e => (c, .error e)
  | .ok () =>
    if c.foreignHook p t then (c, .ok .default)
    else match checkHook p now with
      | .error e => (c, .error e)
      | .ok () =>
        match c.applyEvent event p t with
        | none => (c, .ok .default)
        | some (c, applied) =>
          let c := c.keepBackground p.background t
          let told := event ≠ .permissionRequest ∧ event ≠ .notification
            ∧ newer c.inputs.latestStart (some t) = false
          (c, .ok { applied with
            accepted := true
            transcriptPath := if told then p.transcriptPath else none })

/-- `apply`. -/
def apply (uuid : String → Option String) (c : StateCell) (report : Report) (now : Time) :
    StateCell × Except String Applied :=
  match report.validateBounds with
  | .error e => (c, .error e)
  | .ok () =>
    match report with
    | .snapshot epoch seq s =>
      match uuid epoch with
      | none => (c, .error "epoch must be a UUID")
      | some epoch => c.applySnapshot epoch seq s now
    | .hook event p => c.applyHook event p now

end StateCell

/-! ## What happens to a cell -/

inductive Op where
  | input (now : Time)
  | command (now : Time)
  | submitted (token now : Time)
  | report (report : Report) (now : Time)
  /-- The status file was read. -/
  | observe (presence : PresenceObs)
  /-- The status file is found to be of another transcript. -/
  | unbind (now : Time)
  /-- The transcript grew. -/
  | progress (at_ : Option Time)
  | limitMenu (record : Option LimitMenuRecord)
  /-- `current`: the state is asked for. -/
  | read (legacy : LegacyObs) (exited : Bool) (now : Time)

def PresenceObs.unbound (p : PresenceObs) (now : Time) : PresenceObs :=
  if p.valid then { p with valid := false, observedAt := now } else p

def StateCell.step (uuid : String → Option String) (c : StateCell) : Op → StateCell
  | .input now => c.noteInput now
  | .command now => c.noteCommand now
  | .submitted token now => c.noteSubmitted token now
  | .report report now => (c.apply uuid report now).1
  | .observe presence => { c with inputs := { c.inputs with presence := some presence } }
  | .unbind now => { c with inputs := { c.inputs with
    presence := c.inputs.presence.map fun p => p.unbound now } }
  | .progress at_ => { c with inputs := { c.inputs with
    lastProgressAt := maxTime c.inputs.lastProgressAt at_ } }
  | .limitMenu record => { c with inputs := { c.inputs with limitMenu := record } }
  | .read legacy exited now =>
    (StateCell.recompute { c with inputs := { c.inputs with legacy := legacy, exited := exited } }
      now).2

end Agent
