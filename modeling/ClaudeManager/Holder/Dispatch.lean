import ClaudeManager.Holder.Records
import ClaudeManager.Program.Stateful

/-!
# The verbs

One serve call owns the outbound queue of its channel besides the holder. Each verb of the
brain is a handler on that state; a failure is the outcome that ends the serve.

`history` records what happened, in order. No handler reads it.
-/

namespace Holder

open Json Containers Program

/-- Why `serve` returned. -/
inductive ServeOutcome where
  | brainEof
  | protocol (reason : String)
  | wedged (reason : String)
  | helloTimeout
  | helloRefused
  | shutdownRequested
  | holderUpgrade (pin : Fd)
  deriving DecidableEq

/-- Who made the holder wait for a child. -/
inductive Reaper where
  /-- The exit pipeline. -/
  | exit
  | abortSpawn
  /-- The teardown of a spawn that failed after the fork. -/
  | failedSpawn
  | shutdown
  deriving DecidableEq

/-- What happened, for statements about whole runs. -/
inductive Happening where
  /-- A record was made for a child, armed if it was adopted from a manifest. -/
  | held (child : Nat) (uid : String) (incarnation : Nat) (armed : Bool)
  /-- A child exited. -/
  | exited (child : Nat) (status : ExitStatus)
  /-- `arm_reap` was accepted from a generation. -/
  | armed (epoch : Nat) (uid : String) (incarnation : Nat)
  /-- The wait status of a child was consumed. -/
  | consumed (child : Nat) (reaper : Reaper)
  /-- The consumed exit of a record became its pending event. -/
  | pending (child : Nat) (event : ExitEventBody)
  /-- An exit event was queued for a generation. -/
  | sent (epoch : Nat) (event : ExitEventBody)
  | acked (uid : String) (incarnation : Nat)
  | aborted (uid : String) (incarnation : Nat)
  | forgotten (uid : String) (incarnation : Nat)
  /-- A generation armed a deploy, at an instant. -/
  | deployArmed (epoch : Nat) (armedAt : Nat)
  | deployDropped
  /-- The deploy was carried out on a brain exit that was polled at an instant. -/
  | deployFired (epoch : Nat) (polledAt : Nat)
  deriving DecidableEq

/-- A holder with the outbound queue and the timers of its serve call. -/
structure Serving where
  holder : State
  kernel : Kernel
  outbound : List OutFrame
  helloDone : Bool
  handshakeDeadline : Nat
  nextPing : Option Nat
  history : List Happening

abbrev Serve := EStateM ServeOutcome Serving

namespace Serving

/-- `push_frame`. -/
def push (s : Serving) (frame : OutFrame) : Serving := { s with outbound := s.outbound ++ [frame] }

def note (s : Serving) (e : Happening) : Serving := { s with history := s.history ++ [e] }

def setHolder (s : Serving) (h : State) : Serving := { s with holder := h }

/-- Queue an exit event for the brain. -/
def sendExit (s : Serving) (event : ExitEventBody) : Serving :=
  (s.push ⟨none, .exitEvent event, 0⟩).note (.sent s.holder.epoch event)

/-- The child is waited for, if it was not before. -/
def reap (s : Serving) (child : Nat) (reaper : Reaper) : Serving :=
  if s.kernel.procs child = .reaped then s
  else
    { s with kernel := { s.kernel with procs := Function.update s.kernel.procs child .reaped } }.note
      (.consumed child reaper)

end Serving

/-- `consume_exit_status` on a child that exited. -/
def Kernel.waitStatus (k : Kernel) (child : Nat) : ExitStatus :=
  match k.procs child with
  | .zombie status => status
  | _ => ⟨none, none⟩

/-! ## Replies -/

def okFrame (reqId : Nat) (detail : Option Value) : OutFrame := ⟨some reqId, .ok detail, 0⟩

def errFrame (reqId : Nat) (code message : String) : OutFrame :=
  ⟨some reqId, .err code message none, 0⟩

def errFrameWith (reqId : Nat) (code message : String) (detail : Value) : OutFrame :=
  ⟨some reqId, .err code message (some detail), 0⟩

/-- Queue a frame. -/
def pushFrame (frame : OutFrame) : Serve PUnit := modify (·.push frame)

def replyOk (reqId : Nat) : Serve PUnit := pushFrame (okFrame reqId none)

def replyErr (reqId : Nat) (code message : String) : Serve PUnit :=
  pushFrame (errFrame reqId code message)

/-- Parse the body, or answer that it is invalid. -/
def withBody {α : Type} (reqId : Nat) (context : String) (body : Except String α)
    (handle : α → Serve PUnit) : Serve PUnit :=
  match body with
  | .ok b => handle b
  | .error e => replyErr reqId errInvalid (context ++ e)

/-! ## Exits -/

/-- The event of a consumed exit. -/
def exitEvent (os : Os) (uid : String) (e : SessionEntry) (st : ExitStatus) : ExitEventBody where
  uid := uid
  incarnation := e.incarnation
  code := st.code
  signal := st.signal
  exitedAt := os.unixNow
  lastSignalRequest := e.lastSignalRequest
  memoryEventsSnapshot := e.cgroupPath.bind os.memoryEvents

/-- The record with its exit consumed. -/
def SessionEntry.exited (e : SessionEntry) (event : ExitEventBody) : SessionEntry :=
  { e with exit := some ⟨event.exitedAt, some event⟩, exitLatched := false }

/-- The exit of `e` consumed, and its event queued where the brain is ready for it. -/
def Serving.consumedExit (s : Serving) (os : Os) (uid : String) (e : SessionEntry) : Serving :=
  let event := exitEvent os uid e (s.kernel.waitStatus e.pidfd.child)
  let s := (s.reap e.pidfd.child .exit).note (.pending e.pidfd.child event)
  let s := if e.deliveryReady then s.sendExit event else s
  s.setHolder (s.holder.setSession uid (e.exited event))

/-- Consume a ready exit under arm authorization. -/
def consumeExit (os : Os) (uid : String) (e : SessionEntry) : Serve PUnit :=
  modify fun s => s.consumedExit os uid e

/-- Consume one latched exit, where the record is armed. -/
def sweepLatched (os : Os) (uid : String) : Serve PUnit := do
  let s ← get
  match s.holder.sessions[uid]? with
  | none => pure ⟨⟩
  | some e => onlyIf (e.exitLatched ∧ e.reapArmed ∧ e.exit.isNone) (consumeExit os uid e)

/-- Consume exits that were latched while a reverse migration was armed. -/
def sweepLatchedExits (os : Os) : Serve PUnit := do
  let s ← get
  (s.holder.sessions.keys).forM (sweepLatched os)

/-! ## Sessions -/

/-- A child is forked. -/
def Serving.fork (s : Serving) : Serving :=
  { s with kernel := { s.kernel with forked := s.kernel.forked + 1 } }

/-- `do_spawn`. A failure after the fork has torn the child down. -/
def doSpawn (os : Os) (spec : SpawnBody) : Serve (Except SpawnError (Spawned × Nat)) := do
  if spec.argv.isEmpty then pure (.error .emptyArgv)
  else
    match os.spawn with
    | .ok child => do
      let s ← get
      let born := s.kernel.forked
      modify (·.fork)
      pure (.ok (child, born))
    | .error (.postSpawn e) => do
      let s ← get
      let born := s.kernel.forked
      modify (·.fork)
      modify (·.reap born .failedSpawn)
      pure (.error (.postSpawn e))
    | .error e => pure (.error e)

def SpawnError.code : SpawnError → String
  | .openpty _ => errOpenptyFailed
  | .emptyArgv => errInvalid
  | _ => errExecFailed

/-- The record of a spawned child. -/
def spawnedEntry (spec : SpawnBody) (spawned : Spawned) (born incarnation : Nat) : SessionEntry where
  incarnation := incarnation
  generationMeta := spec.generationMeta
  pid := spawned.pid
  childStartTime := spawned.childStartTime
  master := .pty spawned.master
  pidfd := ⟨spawned.pidfd, born⟩
  reapArmed := false
  deliveryReady := false
  exitLatched := false
  cgroupPrefix := spec.cgroupPrefix
  cgroupPath := none
  watcherCheckpoint := none
  lastSignalRequest := none
  exit := none
  rollbackRecord := none

/-- A record is made for a child. -/
def Serving.hold (s : Serving) (uid : String) (e : SessionEntry) : Serving :=
  (s.setHolder (s.holder.setSession uid e)).note
    (.held e.pidfd.child uid e.incarnation e.reapArmed)

/-- The next incarnation is taken. -/
def Serving.mint (s : Serving) : Serving :=
  s.setHolder { s.holder with nextIncarnation := s.holder.nextIncarnation + 1 }

def handleSpawn (os : Os) (reqId : Nat) (body : Except String SpawnBody) : Serve PUnit :=
  withBody reqId "" body fun spec => do
    let s ← get
    match s.holder.sessions[spec.uid]? with
    | some existing =>
      pushFrame (errFrameWith reqId errUidExists s!"uid '{spec.uid}' already has a record"
        (object [("incarnation", .num existing.incarnation)]))
    | none => do
      match ← doSpawn os spec with
      | .error e => replyErr reqId e.code e.text
      | .ok (spawned, born) => do
        let s ← get
        let incarnation := s.holder.nextIncarnation
        modify (·.mint)
        match spawned.master with
        | none => do
          -- no dups can be minted: torn down as an abort is
          modify (·.reap born .failedSpawn)
          replyErr reqId errExecFailed "master exposes no raw fd"
        | some master =>
          if os.dup master ∧ os.dup spawned.pidfd then do
            pushFrame ⟨some reqId, .spawnOk incarnation spawned.pid spawned.childStartTime, 2⟩
            modify (·.hold spec.uid (spawnedEntry spec spawned born incarnation))
          else do
            modify (·.reap born .failedSpawn)
            replyErr reqId errExecFailed "fd dup failed"

/-- The record that a request names, or the answer that there is none. -/
def SessionEntry.armedBy (e : SessionEntry) (body : ArmReapBody) : SessionEntry :=
  { e with
    reapArmed := true
    deliveryReady := true
    cgroupPath := if body.cgroupPath.isSome then body.cgroupPath else e.cgroupPath }

/-- `arm_reap` is accepted for a record. -/
def Serving.arm (s : Serving) (uid : String) (e : SessionEntry) : Serving :=
  (s.setHolder (s.holder.setSession uid e)).note (.armed s.holder.epoch uid e.incarnation)

def handleArmReap (os : Os) (reqId : Nat) (body : Except String ArmReapBody) : Serve PUnit :=
  withBody reqId "" body fun body => do
    let s ← get
    match s.holder.sessions[body.uid]? with
    | none => replyErr reqId errNotFound s!"no record for '{body.uid}'"
    | some e =>
      if e.incarnation ≠ body.incarnation then
        replyErr reqId errNotFound s!"incarnation mismatch for '{body.uid}'"
      else do
        let e := e.armedBy body
        modify (·.arm body.uid e)
        replyOk reqId
        -- a latched child is consumable now, an unacknowledged event redelivers now
        if e.exitLatched ∧ e.exit.isNone then consumeExit os body.uid e
        else
          match e.exit.bind (·.pending) with
          | some event => modify (·.sendExit event)
          | none => pure ⟨⟩

/-- One record of the adopt stream, or the report that its descriptors cannot be duplicated. -/
def adoptRecord (os : Os) (reqId : Nat) (uid : String) (e : SessionEntry) : Serve PUnit :=
  if e.masterRawFd.any os.dup ∧ os.dup e.pidfd.fd then
    pushFrame ⟨some reqId, .adoptRecord {
      uid := uid
      incarnation := e.incarnation
      generationMeta := e.generationMeta
      childPid := e.pid
      childStartTime := e.childStartTime
      cgroupPrefix := e.cgroupPrefix
      cgroupPath := e.cgroupPath
      watcherCheckpoint := e.watcherCheckpoint
      lastSignalRequest := e.lastSignalRequest
      reapArmed := e.reapArmed
      reaped := e.exit.isSome
      exitEventPending := e.hasPending }, 2⟩
  else replyErr reqId errInvalid s!"record '{uid}': fd dup failed during adopt"

def handleAdopt (os : Os) (reqId : Nat) : Serve PUnit := do
  let s ← get
  s.holder.sessions.toList.forM fun entry => adoptRecord os reqId entry.1 entry.2
  let (dups, failed) := s.holder.listeners.partition fun l => os.dup l.2
  failed.forM fun l =>
    let kind := l.1.kind
    replyErr reqId errInvalid s!"listener '{kind}' dup failed during adopt"
  pushFrame ⟨some reqId, .adoptListeners (dups.map (·.1)), dups.length⟩
  pushFrame ⟨some reqId, .adoptDone s.holder.pendingExitEvents, 0⟩

/-- A record's own fields are rewritten. -/
def Serving.rewrite (s : Serving) (uid : String) (e : SessionEntry) : Serving :=
  s.setHolder (s.holder.setSession uid e)

def handleSignal (os : Os) (reqId : Nat) (body : Except String SignalBody) : Serve PUnit :=
  withBody reqId "" body fun body => do
    let s ← get
    match s.holder.sessions[body.uid]? with
    | none => replyErr reqId errNotFound s!"no record for '{body.uid}'"
    | some e =>
      if e.incarnation ≠ body.incarnation then replyErr reqId errNotFound "incarnation mismatch"
      else if e.exit.isSome ∨ e.exitLatched ∨ s.kernel.procs e.pidfd.child ≠ .running then
        pushFrame (errFrameWith reqId errAlreadyExited s!"'{body.uid}' already exited"
          (object [("exited_at", (e.exit.map fun x => Value.num x.exitedAt).getD .null)]))
      else
        match os.sendSignal with
        | .ok true => do
          let request : LastSignalRequest := ⟨body.sig, body.attribution, os.unixNow⟩
          modify (·.rewrite body.uid { e with lastSignalRequest := some request })
          replyOk reqId
        | .ok false => replyErr reqId errAlreadyExited "ESRCH"
        | .error err => replyErr reqId errInvalid s!"pidfd_send_signal: {err}"

/-- The record is dropped, its child killed and waited for. -/
def Serving.abort (s : Serving) (uid : String) (e : SessionEntry) : Serving :=
  ((s.setHolder (s.holder.dropSession uid)).note (.aborted uid e.incarnation)).reap
    e.pidfd.child .abortSpawn

def handleAbortSpawn (reqId : Nat) (body : Except String RecordBody) : Serve PUnit :=
  withBody reqId "" body fun body => do
    let s ← get
    match s.holder.record? body.uid body.incarnation with
    | none => replyErr reqId errNotFound s!"no record for '{body.uid}'"
    | some e => do
      modify (·.abort body.uid e)
      replyOk reqId

def handleUpdateCheckpoint (reqId : Nat) (body : Except String UpdateCheckpointBody) :
    Serve PUnit :=
  withBody reqId "" body fun body => do
    let s ← get
    match s.holder.record? body.uid body.incarnation with
    | none => replyErr reqId errNotFound s!"no record for '{body.uid}'"
    | some e => do
      modify (·.rewrite body.uid { e with watcherCheckpoint := some body.watcherCheckpoint })
      replyOk reqId

def handleStoreListener (reqId : Nat) (body : Except String StoreListenerBody) (fds : List Fd) :
    Serve PUnit :=
  withBody reqId "" body fun body =>
    match fds with
    | [fd] => do
      modify fun s => s.setHolder (s.holder.storeListenerCustody body.listener fd)
      replyOk reqId
    | _ => throw (.protocol s!"store_listener carried {fds.length} fds, want 1")

/-- A reaped, acknowledged record is dropped. -/
def Serving.forget (s : Serving) (uid : String) (e : SessionEntry) : Serving :=
  (s.setHolder (s.holder.dropSession uid)).note (.forgotten uid e.incarnation)

def handleForget (reqId : Nat) (body : Except String RecordBody) : Serve PUnit :=
  withBody reqId "" body fun body => do
    let s ← get
    match s.holder.sessions[body.uid]? with
    | none => replyErr reqId errNotFound s!"no record for '{body.uid}'"
    | some e =>
      if e.incarnation ≠ body.incarnation then replyErr reqId errNotFound "incarnation mismatch"
      else if e.exit.isNone then
        replyErr reqId errNotExited s!"'{body.uid}' is still alive — forget is post-exit GC only"
      else if e.hasPending then
        replyErr reqId errUnacked s!"'{body.uid}' has an unacked exit event — ack_exit first"
      else do
        modify (·.forget body.uid e)
        replyOk reqId

/-- The record with its event acknowledged. -/
def SessionEntry.acked (e : SessionEntry) : SessionEntry :=
  { e with exit := e.exit.map fun x => { x with pending := none } }

/-- The event of a record is acknowledged. -/
def Serving.ack (s : Serving) (uid : String) (e : SessionEntry) : Serving :=
  (s.setHolder (s.holder.setSession uid e.acked)).note (.acked uid e.incarnation)

def handleAckExit (reqId : Nat) (body : Except String RecordBody) : Serve PUnit :=
  withBody reqId "" body fun body => do
    let s ← get
    match s.holder.record? body.uid body.incarnation with
    | some e => do
      modify (·.ack body.uid e)
      pushFrame (okFrame reqId (some (object [("known", .bool e.hasPending)])))
    | none => pushFrame (okFrame reqId (some (object [("known", .bool false)])))

/-! ## Deploys -/

/-- A deploy is armed. -/
def Serving.armDeploy (s : Serving) (deploy : ArmedDeploy) (now : Nat) : Serving :=
  (s.setHolder { s.holder with armedDeploy := some (deploy, now) }).note
    (.deployArmed s.holder.epoch now)

/-- The armed deploy is dropped, where there is one. -/
def Serving.disarm (s : Serving) : Serving :=
  if s.holder.armedDeploy.isSome then
    (s.setHolder { s.holder with armedDeploy := none }).note .deployDropped
  else s

/-- Answer a deploy verb while another operation is under way, or go on. -/
def unlessConflict (reqId : Nat) (rest : Serve PUnit) : Serve PUnit := do
  let s ← get
  match s.holder.deployConflict with
  | some why => replyErr reqId errInvalid why
  | none => rest

def handleRestartBrain (os : Os) (reqId : Nat) (fds : List Fd) : Serve PUnit :=
  unlessConflict reqId <|
    match fds with
    | [pin] => do
      modify (·.armDeploy (.newPin pin) os.now)
      replyOk reqId
    | _ => throw (.protocol
        s!"restart_brain carried {fds.length} fds, want 1 (the pinned brain binary)")

def handleRollbackBrain (os : Os) (reqId : Nat) : Serve PUnit :=
  unlessConflict reqId do
    let s ← get
    if s.holder.previousPinAvailable then do
      modify (·.armDeploy .usePrevious os.now)
      replyOk reqId
    else replyErr reqId errNotFound "no previous brain pin to roll back to"

def handleCancelPending (os : Os) (reqId : Nat) : Serve PUnit := do
  let s ← get
  modify (·.disarm)
  sweepLatchedExits os
  pushFrame (okFrame reqId (some (object [("disarmed", .bool s.holder.armedDeploy.isSome)])))

def handleRollbackRecord (reqId : Nat) (body : Except String RollbackRecordBody) : Serve PUnit :=
  withBody reqId "rollback_record body: " body fun body => do
    let s ← get
    match s.holder.sessions[body.uid]? with
    | none => replyErr reqId errNotFound s!"no session '{body.uid}'"
    | some e =>
      let held := e.incarnation
      if held ≠ body.incarnation then
        replyErr reqId errNotFound
          s!"session '{body.uid}' is incarnation {held}, not {body.incarnation}"
      else do
        modify (·.rewrite body.uid { e with rollbackRecord := some body.record })
        replyOk reqId

/-- What keeps a session from being handed to the monolith. -/
def drainViolation (uid : String) (e : SessionEntry) : Option String :=
  match e.exit with
  | some x =>
    if x.pending.isSome then some s!"'{uid}': exit event pending (unacked)"
    else some (s!"'{uid}': reaped but unforgotten (its consumed exit status is unrepresentable "
      ++ "in a standard manifest)")
  | none =>
    if e.rollbackRecord.isNone then some s!"'{uid}': live with no rollback_record" else none

def State.drainViolations (h : State) : List String :=
  h.sessions.toList.filterMap fun entry => drainViolation entry.1 entry.2

def handleSplitRollback (os : Os) (reqId : Nat) (body : Except String SplitRollbackBody)
    (fds : List Fd) : Serve PUnit :=
  match fds with
  | [pin] =>
    unlessConflict reqId <| withBody reqId "split_rollback body: " body fun body => do
      let s ← get
      let violations := s.holder.drainViolations
      if violations.isEmpty then do
        modify (·.armDeploy
          (.splitRollback pin body.reexecGeneration body.manifestSchemaVersion) os.now)
        replyOk reqId
      else
        pushFrame (errFrameWith reqId errNotDrained
          s!"split_rollback refused — {violations.length} precondition violation(s) (C2)"
          (object [("violations", strings violations)]))
  | _ => throw (.protocol
      s!"split_rollback carried {fds.length} fds, want 1 (the pinned monolith binary)")

/-- A holder upgrade is accepted. -/
def Serving.acceptUpgrade (s : Serving) (pin : Fd) : Serving :=
  s.setHolder { s.holder with pendingUpgrade := some pin }

def handleReexecHolder (os : Os) (reqId : Nat) (fds : List Fd) : Serve PUnit :=
  match fds with
  | [pin] =>
    unlessConflict reqId <|
      if os.executable pin then do
        modify (·.acceptUpgrade pin)
        replyOk reqId
      else replyErr reqId errInvalid "reexec_holder pin is not an executable regular file"
  | _ => throw (.protocol
      s!"reexec_holder carried {fds.length} fds, want 1 (the pinned new holder binary)")

/-! ## The rest -/

/-- The protocol range that both ends speak. -/
def negotiate (hello : HelloBody) : Nat × Nat :=
  (max hello.protoMin protoVersionMin, min hello.protoMax protoVersionMax)

def handleHello (reqId : Nat) (body : Except String HelloBody) : Serve PUnit :=
  match body with
  | .error e => throw (.protocol s!"hello body: {e}")
  | .ok hello =>
    let (lo, hi) := negotiate hello
    if lo > hi then do
      replyErr reqId errProtoMismatch
        s!"brain speaks {hello.protoMin}..={hello.protoMax}, holder {protoVersionMin}..={protoVersionMax}"
      throw .helloRefused
    else do
      let s ← get
      pushFrame ⟨some reqId, .helloReply hi s.holder.cfg.holderBuildId protoVersionMin
        protoVersionMax s.holder.epoch s.holder.sessions.size preservedCapabilities, 0⟩
      modify fun s => { s with
        helloDone := true
        holder := { s.holder with helloedThisGeneration := true } }

/-- The brain's answer to our `rehello`. -/
def handleRehelloReply (body : Except String HelloBody) : Serve PUnit :=
  match body with
  | .error e => throw (.protocol s!"rehello reply body: {e}")
  | .ok hello =>
    let (lo, hi) := negotiate hello
    if lo > hi then
      throw (.protocol (s!"post-upgrade proto mismatch: brain {hello.protoMin}..={hello.protoMax}, "
        ++ s!"holder {protoVersionMin}..={protoVersionMax}"))
    else
      modify fun s => s.setHolder { s.holder with
        rehelloPending := none
        helloedThisGeneration := true }

def handleStatus (reqId : Nat) : Serve PUnit := do
  let s ← get
  pushFrame ⟨some reqId, .status {
    sessions := s.holder.sessions.size
    pendingExitEvents := s.holder.pendingExitEvents
    epoch := s.holder.epoch
    brainRestarts := s.holder.epoch - 1
    breakerState := s.holder.breakerLabel
    holderBuildId := s.holder.cfg.holderBuildId
    pingsUnanswered := s.holder.pingsUnanswered
    previousPin := s.holder.previousPinAvailable }, 0⟩

/-- The verbs that may carry descriptors. -/
def Request.mayCarryFds : Request → Bool
  | .storeListener _ | .restartBrain | .splitRollback _ | .reexecHolder => true
  | _ => false

/-- The verbs of a negotiated channel. -/
def dispatchVerb (os : Os) (frame : Inbound) (reqId : Nat) : Serve PUnit :=
  match frame.request with
  | .spawn body => handleSpawn os reqId body
  | .armReap body => handleArmReap os reqId body
  | .adopt => handleAdopt os reqId
  | .signal body => handleSignal os reqId body
  | .abortSpawn body => handleAbortSpawn reqId body
  | .updateCheckpoint body => handleUpdateCheckpoint reqId body
  | .storeListener body => handleStoreListener reqId body frame.fds
  | .restartBrain => handleRestartBrain os reqId frame.fds
  | .rollbackBrain => handleRollbackBrain os reqId
  | .cancelPending => handleCancelPending os reqId
  | .rollbackRecord body => handleRollbackRecord reqId body
  | .splitRollback body => handleSplitRollback os reqId body frame.fds
  | .reexecHolder => handleReexecHolder os reqId frame.fds
  | .forget body => handleForget reqId body
  | .ackExit body => handleAckExit reqId body
  | .status => handleStatus reqId
  | .hello _ => throw (.protocol "duplicate hello")
  | .pong => pure ⟨⟩
  | .other v => replyErr reqId errUnsupportedVerb s!"verb '{v}' is not supported by this holder"

/-- The frame answers our `rehello`. -/
def Inbound.rehelloReply? (frame : Inbound) (reqId : Nat) (pending : Option Nat) :
    Option (Except String HelloBody) :=
  match frame.request with
  | .hello body => if pending = some reqId then some body else none
  | _ => none

/-- A frame that is no pong, with its request id. -/
def dispatchRequest (os : Os) (frame : Inbound) (reqId : Nat) : Serve PUnit := do
  let s ← get
  if ¬ s.helloDone then
    match frame.request with
    | .hello body => handleHello reqId body
    | r => throw (.protocol s!"first frame must be hello, got '{r.verb}'")
  else
    match frame.rehelloReply? reqId s.holder.rehelloPending with
    | some body => handleRehelloReply body
    | none => dispatchVerb os frame reqId

/-- Handle one inbound frame. -/
def dispatch (os : Os) (frame : Inbound) : Serve PUnit := do
  let verb := frame.request.verb
  refuse (¬ frame.request.mayCarryFds ∧ ¬ frame.fds.isEmpty)
    (.protocol s!"verb '{verb}' carried {frame.fds.length} unexpected fd(s)")
  match frame.request, frame.reqId with
  | .pong, _ => modify fun s => s.setHolder { s.holder with pingsUnanswered := 0 }
  | _, none => throw (.protocol s!"brain frame '{verb}' without req_id")
  | _, some reqId => dispatchRequest os frame reqId

end Holder
