import ClaudeManager.Holder.Dispatch

/-!
# The serve loop and its supervisor

One iteration of the serve loop handles what one `poll` reported: timers, signals, child
exits, the channel, the outbound queue. The supervisor starts a serve call for each brain
generation and acts on the outcome that ends it.
-/

namespace Holder

open Json Containers Program

/-! ## One iteration -/

/-- What is read off the channel between two polls, and children exiting meanwhile. -/
inductive Incoming where
  | frame (os : Os) (frame : Inbound)
  | childExit (child : Nat) (status : ExitStatus)

inductive ChannelRead where
  | notReady
  | eof
  | violated (reason : String)
  /-- The complete frames, and the violation met after them. -/
  | frames (incoming : List Incoming) (violated : Option String)

inductive Flush where
  /-- The first frames of the queue were accepted. -/
  | flushed (frames : Nat)
  | peerGone
  | fatal (reason : String)

inductive PollResult where
  | interrupted
  | failed (err : String)
  | ready
  deriving DecidableEq

/-- What one iteration sees. -/
structure Poll where
  result : PollResult
  os : Os
  /-- The signal callback asks for shutdown. -/
  shutdown : Bool
  /-- The sessions whose pidfd is readable. -/
  exited : List String
  channel : ChannelRead
  flush : Flush
  /-- The frame reader holds no partial frame and no descriptors. -/
  readerIdle : Bool

/-- A child exits. -/
def Serving.childExit (s : Serving) (child : Nat) (status : ExitStatus) : Serving :=
  if child < s.kernel.forked ∧ s.kernel.procs child = .running then
    { s with kernel := { s.kernel with
        procs := Function.update s.kernel.procs child (.zombie status) } }.note
      (.exited child status)
  else s

/-- What is read, in order. -/
def ChannelRead.incoming : ChannelRead → List Incoming
  | .frames incoming _ => incoming
  | _ => []

/-- The clock does not go back. -/
def Incoming.notBefore (now : Nat) : Incoming → Bool
  | .frame os _ => now ≤ os.now
  | .childExit .. => true

/-- The pidfds reported readable are those of children that exited, and the frames are
handled after the poll. -/
def Poll.Sound (p : Poll) (s : Serving) : Prop :=
  (∀ uid ∈ p.exited, s.holder.sessions[uid]?.all
    fun e => s.kernel.procs e.pidfd.child ≠ .running) ∧
  ∀ i ∈ p.channel.incoming, i.notBefore p.os.now

instance (p : Poll) (s : Serving) : Decidable (p.Sound s) :=
  inferInstanceAs (Decidable (_ ∧ _))

def handshakeTimer (now : Nat) : Serve PUnit := do
  let s ← get
  refuse ((¬ s.helloDone ∨ s.holder.rehelloPending.isSome) ∧ s.handshakeDeadline ≤ now)
    .helloTimeout

/-- An armed deploy whose brain did not exit within the horizon is forfeit. -/
def disarmTimer (os : Os) : Serve PUnit := do
  let s ← get
  onlyIf (s.holder.armedDeploy.any fun d => d.2 + armAutoDisarm ≤ os.now) do
    modify (·.disarm)
    sweepLatchedExits os

/-- A ping is due. -/
def Serving.pinged (s : Serving) : Serving :=
  s.setHolder { s.holder with
    pingSeq := s.holder.pingSeq + 1
    pingsUnanswered := s.holder.pingsUnanswered + 1 }

def pingTimer (now : Nat) : Serve PUnit := do
  let s ← get
  onlyIf (s.helloDone ∧ s.nextPing.any (· ≤ now)) do
    modify (·.pinged)
    let s ← get
    refuse (wedgeMissedPongs ≤ s.holder.pingsUnanswered)
      (.wedged s!"{s.holder.pingsUnanswered} consecutive pings unanswered")
    pushFrame ⟨none, .ping s.holder.pingSeq, 0⟩
    modify fun s => { s with nextPing := s.holder.cfg.pingInterval.map (now + ·) }

/-- An exit is ready on an unarmed record, or while a reverse migration is armed: masked out
of the poll set, the status left unconsumed. -/
def Serving.latch (s : Serving) (uid : String) (e : SessionEntry) : Serving :=
  s.rewrite uid { e with exitLatched := true }

/-- One readable pidfd. -/
def childExited (os : Os) (splitRollbackArmed : Bool) (uid : String) : Serve PUnit := do
  let s ← get
  match s.holder.sessions[uid]? with
  | none => pure ⟨⟩
  | some e =>
    if e.reapArmed ∧ ¬ splitRollbackArmed then consumeExit os uid e
    else modify (·.latch uid e)

/-- The readable pidfds among the polled ones. -/
def childExits (os : Os) (polled exited : List String) : Serve PUnit := do
  let s ← get
  (polled.filter (· ∈ exited)).forM (childExited os s.holder.splitRollbackArmed)

def receive : Incoming → Serve PUnit
  | .frame os frame => dispatch os frame
  | .childExit child status => modify (·.childExit child status)

def readChannel : ChannelRead → Serve PUnit
  | .notReady => pure ⟨⟩
  | .eof => throw .brainEof
  | .violated reason => throw (.protocol reason)
  | .frames incoming violated => do
    incoming.forM receive
    match violated with
    | some reason => throw (.protocol reason)
    | none => pure ⟨⟩

def flushOutbound : Flush → Serve PUnit
  | .flushed n => modify fun s => { s with outbound := s.outbound.drop n }
  | .peerGone => throw .brainEof
  | .fatal reason => throw (.protocol reason)

def checkBacklog : Serve PUnit := do
  let s ← get
  refuse (s.holder.cfg.outboundMaxFrames < s.outbound.length)
    (.wedged (s!"outbound queue exceeded {s.holder.cfg.outboundMaxFrames} frames — "
      ++ "the brain stopped draining (S3)"))

/-- An accepted upgrade surfaces once its reply is flushed and the reader is idle. -/
def surfaceUpgrade (readerIdle : Bool) : Serve PUnit := do
  let s ← get
  match s.holder.pendingUpgrade with
  | some pin =>
    onlyIf (s.outbound.isEmpty ∧ readerIdle) do
      modify fun s => s.setHolder { s.holder with pendingUpgrade := none }
      throw (.holderUpgrade pin)
  | none => pure ⟨⟩

/-- What comes before the channel: timers, signals, child exits. -/
def beforeChannel (p : Poll) : Serve PUnit := do
  let s ← get
  handshakeTimer p.os.now
  disarmTimer p.os
  pingTimer p.os.now
  refuse p.shutdown .shutdownRequested
  childExits p.os s.holder.polled p.exited

/-- One pass of the serve loop. -/
def iterate (p : Poll) : Serve PUnit :=
  match p.result with
  | .interrupted => pure ⟨⟩
  | .failed err => throw (.protocol s!"poll: {err}")
  | .ready => do
    beforeChannel p
    readChannel p.channel
    flushOutbound p.flush
    checkBacklog
    surfaceUpgrade p.readerIdle

/-! ## Generations -/

/-- What `serve_inner` resets. -/
def State.serveReset (h : State) : State :=
  { h with pingsUnanswered := 0, rehelloPending := none, pendingUpgrade := none }

/-- What a new brain generation resets besides. -/
def State.newGeneration (h : State) : State :=
  { h.serveReset with
    epoch := h.epoch + 1
    helloedThisGeneration := false
    sessions := h.sessions.map fun _ e => { e with deliveryReady := false } }

/-- `serve` a new brain generation. -/
def serve (h : State) (kernel : Kernel) (history : List Happening) (now : Nat) : Serving where
  holder := h.newGeneration
  kernel := kernel
  outbound := []
  helloDone := false
  handshakeDeadline := now + h.cfg.handshakeTimeout
  nextPing := h.cfg.pingInterval.map (now + ·)
  history := history

/-- `serve_resumed`: the same generation, which is asked to negotiate again. -/
def serveResumed (h : State) (kernel : Kernel) (history : List Happening) (now : Nat) :
    Serving where
  holder := { h.serveReset with helloedThisGeneration := false, rehelloPending := some 1 }
  kernel := kernel
  outbound := [⟨some 1, .rehello h.cfg.holderBuildId protoVersionMin protoVersionMax h.epoch
    h.sessions.size preservedCapabilities, 0⟩]
  helloDone := true
  handshakeDeadline := now + h.cfg.handshakeTimeout
  nextPing := h.cfg.pingInterval.map (now + ·)
  history := history

/-! ## Holder upgrades -/

structure ExitCarry where
  exitedAt : Nat
  pendingEvent : Option ExitEventBody

structure HolderSessionRecord where
  uid : String
  incarnation : Nat
  generationMeta : Nat
  childPid : Int
  childStartTime : Nat
  masterFd : Fd
  pidfd : Pidfd
  reapArmed : Bool
  deliveryReady : Bool
  exitLatched : Bool
  cgroupPrefix : Option String
  cgroupPath : Option String
  watcherCheckpoint : Option Value
  lastSignalRequest : Option LastSignalRequest
  exit : Option ExitCarry
  rollbackRecord : Option Value

/-- The holder's full state as a manifest, without what belongs to the supervisor. -/
structure HolderUpgradeManifest where
  epoch : Nat
  nextIncarnation : Nat
  sessions : List HolderSessionRecord
  listeners : List (ListenerMeta × Fd)

def SessionEntry.snapshot (uid : String) (e : SessionEntry) : HolderSessionRecord where
  uid := uid
  incarnation := e.incarnation
  generationMeta := e.generationMeta
  childPid := e.pid
  childStartTime := e.childStartTime
  masterFd := e.masterRawFd.getD (-1)
  pidfd := e.pidfd
  reapArmed := e.reapArmed
  deliveryReady := e.deliveryReady
  exitLatched := e.exitLatched
  cgroupPrefix := e.cgroupPrefix
  cgroupPath := e.cgroupPath
  watcherCheckpoint := e.watcherCheckpoint
  lastSignalRequest := e.lastSignalRequest
  exit := e.exit.map fun x => ⟨x.exitedAt, x.pending⟩
  rollbackRecord := e.rollbackRecord

def State.upgradeSnapshot (h : State) : HolderUpgradeManifest where
  epoch := h.epoch
  nextIncarnation := h.nextIncarnation
  sessions := h.sessions.toList.map fun entry => entry.2.snapshot entry.1
  listeners := h.listeners

def HolderSessionRecord.restore (rec : HolderSessionRecord) : SessionEntry where
  incarnation := rec.incarnation
  generationMeta := rec.generationMeta
  pid := rec.childPid
  childStartTime := rec.childStartTime
  master := .raw rec.masterFd
  pidfd := rec.pidfd
  reapArmed := rec.reapArmed
  deliveryReady := rec.deliveryReady
  exitLatched := rec.exitLatched
  cgroupPrefix := rec.cgroupPrefix
  cgroupPath := rec.cgroupPath
  watcherCheckpoint := rec.watcherCheckpoint
  lastSignalRequest := rec.lastSignalRequest
  exit := rec.exit.map fun x => ⟨x.exitedAt, x.pendingEvent⟩
  rollbackRecord := rec.rollbackRecord

/-- `restore_from_upgrade`. -/
def restoreFromUpgrade (cfg : HolderConfig) (m : HolderUpgradeManifest) : State :=
  { State.new cfg with
    epoch := m.epoch
    nextIncarnation := m.nextIncarnation
    sessions := .ofList (m.sessions.map fun rec => (rec.uid, rec.restore))
    listeners := m.listeners }

/-! ## Migration boot -/

/-- What a migration manifest says of one session. -/
structure MigratedSession where
  uid : String
  generation : Nat
  childPid : Int
  childStartTime : Nat
  cgroupPrefix : Option String
  watcherCheckpoint : Option Value
  master : Fd
  pidfd : Fd

def MigratedSession.entry (rec : MigratedSession) (born incarnation : Nat) : SessionEntry where
  incarnation := incarnation
  generationMeta := rec.generation
  pid := rec.childPid
  childStartTime := rec.childStartTime
  master := .raw rec.master
  pidfd := ⟨rec.pidfd, born⟩
  reapArmed := true
  deliveryReady := false
  exitLatched := false
  cgroupPrefix := rec.cgroupPrefix
  cgroupPath := none
  watcherCheckpoint := rec.watcherCheckpoint
  lastSignalRequest := none
  exit := none
  rollbackRecord := none

/-- `adopt_migrated_session`: the child was forked before, and the record arrives armed. -/
def Serving.adoptMigrated (s : Serving) (rec : MigratedSession) : Serving :=
  let entry := rec.entry s.kernel.forked s.holder.nextIncarnation
  s.fork.mint.hold rec.uid entry

/-! ## Supervision -/

/-- Trip threshold: consecutive failure exits with no stable run between. -/
def tripAfter : Nat := 3

inductive BreakerDecision where
  | respawn (backoff : Nat)
  | rollback
  | holdDown
  deriving DecidableEq

structure Breaker where
  consecutiveFailures : Nat
  backoff : Nat
  backoffFloor : Nat
  backoffCap : Nat
  stableHorizon : Nat

def Breaker.default : Breaker := ⟨0, 500, 500, 30000, 600000⟩

/-- `reset`, `note_deploy`. -/
def Breaker.reset (b : Breaker) : Breaker :=
  { b with consecutiveFailures := 0, backoff := b.backoffFloor }

def Breaker.noteFailure (b : Breaker) (ranFor : Nat) (helloed hasPreviousPin : Bool) :
    BreakerDecision × Breaker :=
  let b := if helloed ∧ b.stableHorizon ≤ ranFor then b.reset else b
  let b := { b with consecutiveFailures := b.consecutiveFailures + 1 }
  if tripAfter ≤ b.consecutiveFailures then
    (if hasPreviousPin then .rollback else .holdDown, b.reset)
  else (.respawn b.backoff, { b with backoff := min (b.backoff * 2) b.backoffCap })

/-- The current and previous pin. -/
structure PinSet where
  current : Option Fd
  previous : Option Fd

def PinSet.installNew (p : PinSet) (pin : Fd) : PinSet := ⟨some pin, p.current⟩

def PinSet.rollback (p : PinSet) : PinSet := ⟨p.previous, none⟩

def PinSet.replaceCurrent (p : PinSet) (pin : Fd) : PinSet := { p with current := some pin }

/-- The supervisor between two actions: its serve call, and whether a brain is served. -/
structure Supervisor where
  serving : Serving
  /-- A brain is alive and served, since an instant. -/
  live : Option Nat
  /-- The process exited or became the monolith. -/
  gone : Bool
  breaker : Breaker
  pins : PinSet

/-- How an exec of another image goes. -/
inductive ExecResult where
  | done
  | failed
  /-- The new image ran and could not take over. -/
  | stopped

namespace Supervisor

def down (v : Supervisor) (s : Serving) : Supervisor := { v with serving := s, live := none }

/-- `apply_failure`. -/
def applyFailure (v : Supervisor) (ranFor : Nat) (helloed : Bool) : Supervisor :=
  let (decision, breaker) := v.breaker.noteFailure ranFor helloed v.pins.previous.isSome
  match decision with
  | .respawn _ => { v with breaker := breaker }
  | .rollback => { v with breaker := breaker, pins := v.pins.rollback }
  | .holdDown => { v with breaker := breaker, pins := { v.pins with current := none } }

/-- `shutdown_kill_all`. -/
def killAll (s : Serving) : Serving :=
  s.holder.sessions.toList.foldl (fun s entry =>
    if entry.2.exit.isNone then s.reap entry.2.pidfd.child .shutdown else s)
    (s.setHolder { s.holder with sessions := ∅ })

/-- The armed deploy is carried out on the brain's exit. -/
def fire (v : Supervisor) (deploy : ArmedDeploy) (os : Os) (polledAt : Nat) (exec : ExecResult) :
    Supervisor :=
  let s := (v.serving.setHolder { v.serving.holder with armedDeploy := none }).note
    (.deployFired v.serving.holder.epoch polledAt)
  match deploy with
  | .newPin pin =>
    { v.down s with breaker := v.breaker.reset, pins := v.pins.installNew pin }
  | .usePrevious => { v.down s with breaker := v.breaker.reset, pins := v.pins.rollback }
  | .splitRollback .. =>
    match exec with
    | .failed => v.down (after (sweepLatchedExits os) s)
    | _ => { v.down s with gone := true }

/-- What the supervisor does with the outcome of a serve call. -/
def onOutcome (v : Supervisor) (outcome : ServeOutcome) (os : Os) (polledAt : Nat)
    (exec : ExecResult) : Supervisor :=
  let s := v.serving
  let ranFor := os.now - v.live.getD os.now
  let helloed := s.holder.helloedThisGeneration
  match outcome with
  | .shutdownRequested => { v.down (killAll s) with gone := true }
  | .holderUpgrade _ =>
    match exec with
    | .done =>
      let h := restoreFromUpgrade s.holder.cfg s.holder.upgradeSnapshot
      { v with
        serving := serveResumed (h.setSupervisorStatus "running" v.pins.previous.isSome) s.kernel
          s.history os.now
        live := some os.now
        breaker := { Breaker.default with
          consecutiveFailures := v.breaker.consecutiveFailures
          stableHorizon := v.breaker.stableHorizon } }
    | .failed =>
      { v with
        serving := serveResumed (s.holder.setSupervisorStatus "running" v.pins.previous.isSome)
          s.kernel s.history os.now
        live := some os.now }
    | .stopped => { v.down s with gone := true }
  | .brainEof =>
    match s.holder.armedDeploy with
    | some (deploy, _) => v.fire deploy os polledAt exec
    | none => (v.down s).applyFailure ranFor helloed
  | .wedged _ | .protocol _ => (v.down s.disarm).applyFailure ranFor helloed
  | .helloTimeout | .helloRefused => (v.down s).applyFailure ranFor false

/-- What the supervisor can do next. -/
inductive Action where
  /-- A held-down retry re-opens the pin, where that works. -/
  | retryPin (pin : Option Fd)
  | spawnFailed
  | startBrain (now : Nat)
  /-- One pass of the serve loop; `os` and `exec` serve the handling of its outcome. -/
  | iterate (p : Poll) (os : Os) (exec : ExecResult)
  | childExit (child : Nat) (status : ExitStatus)
  | shutdown

/-- One action, where it is possible. -/
def step (v : Supervisor) : Action → Option Supervisor
  | .retryPin pin =>
    if v.gone ∨ v.live.isSome ∨ v.pins.current.isSome then none
    else
      let s := v.serving.setHolder
        (v.serving.holder.setSupervisorStatus "held_down" v.pins.previous.isSome)
      match pin with
      | some pin =>
        some { v with serving := s, pins := v.pins.replaceCurrent pin, breaker := v.breaker.reset }
      | none => some { v with serving := s }
  | .spawnFailed =>
    if v.gone ∨ v.live.isSome ∨ v.pins.current.isNone then none
    else
      let s := v.serving.setHolder
        (v.serving.holder.setSupervisorStatus "running" v.pins.previous.isSome)
      some ({ v with serving := s }.applyFailure 0 false)
  | .startBrain now =>
    if v.gone ∨ v.live.isSome ∨ v.pins.current.isNone then none
    else
      let h := v.serving.holder.setSupervisorStatus "running" v.pins.previous.isSome
      some { v with
        serving := serve h v.serving.kernel v.serving.history now
        live := some now }
  | .iterate p os exec =>
    if v.gone ∨ v.live.isNone ∨ ¬ p.Sound v.serving then none
    else
      match Holder.iterate p v.serving with
      | .ok _ s => some { v with serving := s }
      | .error outcome s => some ({ v with serving := s }.onOutcome outcome os p.os.now exec)
  | .childExit child status =>
    if v.gone then none
    else some { v with serving := v.serving.childExit child status }
  | .shutdown =>
    if v.gone ∨ v.live.isSome then none
    else some { v.down (killAll v.serving) with gone := true }

/-- The supervisor after the actions in order, where each is possible. -/
def run (v : Supervisor) : List Action → Option Supervisor
  | [] => some v
  | a :: rest => (v.step a).bind fun v' => v'.run rest

/-- The serve state of a process that has served nothing yet. -/
def idle (cfg : HolderConfig) : Serving where
  holder := .new cfg
  kernel := ⟨fun _ => .running, 0⟩
  outbound := []
  helloDone := false
  handshakeDeadline := 0
  nextPing := none
  history := []

/-- A fresh boot. -/
def fresh (cfg : HolderConfig) (pins : PinSet) : Supervisor where
  serving := idle cfg
  live := none
  gone := false
  breaker := .default
  pins := pins

/-- A migration boot: the sessions and listeners of the monolith, and its parked brain. -/
def migrated (cfg : HolderConfig) (pins : PinSet) (sessions : List MigratedSession)
    (listeners : List (ListenerMeta × Fd)) (now : Nat) : Supervisor :=
  let s := sessions.foldl Serving.adoptMigrated (idle cfg)
  let h := listeners.foldl (fun h l => h.storeListenerCustody l.1 l.2) s.holder
  { serving := serve (h.setSupervisorStatus "running" pins.previous.isSome) s.kernel s.history now
    live := some now
    gone := false
    breaker := .default
    pins := pins }

end Supervisor

end Holder
