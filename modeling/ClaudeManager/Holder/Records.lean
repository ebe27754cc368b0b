import ClaudeManager.Json.Decode
import ClaudeManager.Holder.Channel

/-!
# What the holder holds

The bodies of the channel's verbs, the record of one session child, the holder's state and
what the kernel knows of the children. A process is named by the order in which it was
forked, so that a pidfd keeps naming it when its pid or the descriptor's number is reused.

Instants are milliseconds of the monotonic clock, unix times are readings of the wall clock.
-/

namespace Holder

open Json Containers

abbrev Fd := Int

/-! ## Bodies -/

structure HelloBody where
  protoMin : Nat
  protoMax : Nat
  brainBuildId : String

structure SpawnBody where
  uid : String
  generationMeta : Nat
  argv : List String
  env : List (String × String)
  cwd : Option String
  cols : Nat
  rows : Nat
  cgroupPrefix : Option String

structure ArmReapBody where
  uid : String
  incarnation : Nat
  cgroupPath : Option String

structure SignalBody where
  uid : String
  incarnation : Nat
  sig : Int
  attribution : String

structure LastSignalRequest where
  sig : Int
  attribution : String
  requestedAt : Nat
  deriving DecidableEq

structure UpdateCheckpointBody where
  uid : String
  incarnation : Nat
  watcherCheckpoint : Value

structure ListenerMeta where
  kind : String
  address : String
  deriving DecidableEq

structure StoreListenerBody where
  listener : ListenerMeta

/-- The body of `abort_spawn`, `forget` and `ack_exit`. -/
structure RecordBody where
  uid : String
  incarnation : Nat

structure RollbackRecordBody where
  uid : String
  incarnation : Nat
  record : Value

structure SplitRollbackBody where
  reexecGeneration : Nat
  manifestSchemaVersion : Nat

/-- An authoritative exit, redelivered to every brain generation until it is acknowledged. -/
structure ExitEventBody where
  uid : String
  incarnation : Nat
  code : Option Int
  signal : Option Int
  exitedAt : Nat
  lastSignalRequest : Option LastSignalRequest
  memoryEventsSnapshot : Option String
  deriving DecidableEq

structure AdoptRecordBody where
  uid : String
  incarnation : Nat
  generationMeta : Nat
  childPid : Int
  childStartTime : Nat
  cgroupPrefix : Option String
  cgroupPath : Option String
  watcherCheckpoint : Option Value
  lastSignalRequest : Option LastSignalRequest
  reapArmed : Bool
  reaped : Bool
  exitEventPending : Bool

structure StatusReplyBody where
  sessions : Nat
  pendingExitEvents : Nat
  epoch : Nat
  brainRestarts : Nat
  breakerState : String
  holderBuildId : String
  pingsUnanswered : Nat
  previousPin : Bool

/-- The body of a frame to the brain. -/
inductive OutBody where
  | helloReply (proto : Nat) (holderBuildId : String) (holderProtoMin holderProtoMax : Nat)
      (epoch sessionCount : Nat) (capabilities : List String)
  | rehello (holderBuildId : String) (holderProtoMin holderProtoMax : Nat)
      (epoch sessionCount : Nat) (capabilities : List String)
  | spawnOk (incarnation : Nat) (pid : Int) (childStartTime : Nat)
  | adoptRecord (body : AdoptRecordBody)
  | adoptListeners (listeners : List ListenerMeta)
  | adoptDone (exitEventsPending : Nat)
  | exitEvent (body : ExitEventBody)
  | status (body : StatusReplyBody)
  | ping (seq : Nat)
  | ok (detail : Option Value)
  | err (code message : String) (detail : Option Value)

/-- One queued outbound frame, with the number of its descriptors. -/
structure OutFrame where
  reqId : Option Nat
  body : OutBody
  nfds : Nat

/-- A frame of the brain, its body parsed or refused by the parser. -/
inductive Request where
  | hello (body : Except String HelloBody)
  | spawn (body : Except String SpawnBody)
  | armReap (body : Except String ArmReapBody)
  | adopt
  | signal (body : Except String SignalBody)
  | abortSpawn (body : Except String RecordBody)
  | updateCheckpoint (body : Except String UpdateCheckpointBody)
  | storeListener (body : Except String StoreListenerBody)
  | restartBrain
  | rollbackBrain
  | cancelPending
  | reexecHolder
  | rollbackRecord (body : Except String RollbackRecordBody)
  | splitRollback (body : Except String SplitRollbackBody)
  | forget (body : Except String RecordBody)
  | ackExit (body : Except String RecordBody)
  | status
  | pong
  | other (v : String)

def Request.verb : Request → String
  | .hello _ => "hello"
  | .spawn _ => "spawn"
  | .armReap _ => "arm_reap"
  | .adopt => "adopt"
  | .signal _ => "signal"
  | .abortSpawn _ => "abort_spawn"
  | .updateCheckpoint _ => "update_checkpoint"
  | .storeListener _ => "store_listener"
  | .restartBrain => "restart_brain"
  | .rollbackBrain => "rollback_brain"
  | .cancelPending => "cancel_pending"
  | .reexecHolder => "reexec_holder"
  | .rollbackRecord _ => "rollback_record"
  | .splitRollback _ => "split_rollback"
  | .forget _ => "forget"
  | .ackExit _ => "ack_exit"
  | .status => "status"
  | .pong => "pong"
  | .other v => v

structure Inbound where
  request : Request
  reqId : Option Nat
  fds : List Fd

/-! ## Error codes -/

def errUnsupportedVerb : String := "unsupported_verb"
def errProtoMismatch : String := "proto_mismatch"
def errUidExists : String := "uid_exists"
def errOpenptyFailed : String := "openpty_failed"
def errExecFailed : String := "exec_failed"
def errNotFound : String := "not_found"
def errNotExited : String := "not_exited"
def errUnacked : String := "unacked"
def errAlreadyExited : String := "already_exited"
def errInvalid : String := "invalid"
def errNotDrained : String := "not_drained"

def protoVersionMin : Nat := 1
def protoVersionMax : Nat := 1

/-- What this build of the record code preserves. -/
def preservedCapabilities : List String := ["org_preserve_v1"]

/-! ## Children -/

/-- A consumed exit status. -/
structure ExitStatus where
  code : Option Int
  signal : Option Int
  deriving DecidableEq

inductive Proc where
  | running
  | zombie (status : ExitStatus)
  | reaped
  deriving DecidableEq

/-- The children of the holder, by the order in which they were forked. -/
structure Kernel where
  procs : Nat → Proc
  forked : Nat

/-- A descriptor that names one process. -/
structure Pidfd where
  fd : Fd
  child : Nat
  deriving DecidableEq

inductive SpawnError where
  | emptyArgv
  | openpty (e : String)
  | exec (e : String)
  | postSpawn (e : String)

def SpawnError.text : SpawnError → String
  | .emptyArgv => "argv is empty"
  | .openpty e => s!"openpty: {e}"
  | .exec e => s!"spawn_command: {e}"
  | .postSpawn e => s!"post-spawn: {e}"

/-- A child of `do_spawn`, its pidfd's number apart. -/
structure Spawned where
  master : Option Fd
  pidfd : Fd
  pid : Int
  childStartTime : Nat

/-- What the system answers while one frame or one poll is handled. -/
structure Os where
  /-- `Instant::now`. -/
  now : Nat
  /-- `unix_now`. -/
  unixNow : Nat
  /-- How `do_spawn` goes for a non-empty argv. -/
  spawn : Except SpawnError Spawned
  /-- Whether a descriptor can be duplicated. -/
  dup : Fd → Bool
  /-- `pidfd_send_signal` on a live child: delivered, gone, or refused. -/
  sendSignal : Except String Bool
  /-- `read_memory_events_snapshot`. -/
  memoryEvents : String → Option String
  /-- Whether a pin is an executable regular file. -/
  executable : Fd → Bool

/-! ## The holder -/

/-- A consumed but unforgotten exit, with the event awaiting its acknowledgement. -/
structure ExitRec where
  exitedAt : Nat
  pending : Option ExitEventBody
  deriving DecidableEq

inductive MasterHold where
  | pty (fd : Option Fd)
  | raw (fd : Fd)

def MasterHold.rawFd : MasterHold → Option Fd
  | .pty fd => fd
  | .raw fd => some fd

/-- One session child, canonically holder-owned. -/
structure SessionEntry where
  incarnation : Nat
  generationMeta : Nat
  pid : Int
  childStartTime : Nat
  master : MasterHold
  pidfd : Pidfd
  reapArmed : Bool
  deliveryReady : Bool
  exitLatched : Bool
  cgroupPrefix : Option String
  cgroupPath : Option String
  watcherCheckpoint : Option Value
  lastSignalRequest : Option LastSignalRequest
  exit : Option ExitRec
  rollbackRecord : Option Value

def SessionEntry.masterRawFd (e : SessionEntry) : Option Fd := e.master.rawFd

/-- An exit event is consumed and not acknowledged. -/
def SessionEntry.hasPending (e : SessionEntry) : Bool := e.exit.any (·.pending.isSome)

/-- An armed deploy, to be carried out when the brain exits. -/
inductive ArmedDeploy where
  | newPin (pin : Fd)
  | usePrevious
  | splitRollback (pin : Fd) (reexecGeneration schemaVersion : Nat)
  deriving DecidableEq

def ArmedDeploy.isSplitRollback : ArmedDeploy → Bool
  | .splitRollback .. => true
  | _ => false

structure HolderConfig where
  handshakeTimeout : Nat
  pingInterval : Option Nat
  outboundMaxFrames : Nat
  holderBuildId : String

/-- The defaults of the binary, which sets the ping cadence to the same 30 seconds. -/
def HolderConfig.default : HolderConfig where
  handshakeTimeout := 30000
  pingInterval := some 30000
  outboundMaxFrames := 4096
  holderBuildId := "cm-holder/0.2.0"

/-- Consecutive unanswered pings that mean the brain is wedged. -/
def wedgeMissedPongs : Nat := 3

/-- The auto-disarm horizon of an armed deploy. -/
def armAutoDisarm : Nat := 30000

/-- The holder: all state that must survive brain restarts. -/
structure State where
  cfg : HolderConfig
  sessions : Map SessionEntry
  listeners : List (ListenerMeta × Fd)
  armedDeploy : Option (ArmedDeploy × Nat)
  breakerLabel : String
  previousPinAvailable : Bool
  nextIncarnation : Nat
  epoch : Nat
  pingSeq : Nat
  pingsUnanswered : Nat
  helloedThisGeneration : Bool
  rehelloPending : Option Nat
  pendingUpgrade : Option Fd

namespace State

def new (cfg : HolderConfig) : State where
  cfg := cfg
  sessions := ∅
  listeners := []
  armedDeploy := none
  breakerLabel := "running"
  previousPinAvailable := false
  nextIncarnation := 1
  epoch := 0
  pingSeq := 0
  pingsUnanswered := 0
  helloedThisGeneration := false
  rehelloPending := none
  pendingUpgrade := none

def setSupervisorStatus (h : State) (breaker : String) (previousPin : Bool) : State :=
  { h with breakerLabel := breaker, previousPinAvailable := previousPin }

def pendingExitEvents (h : State) : Nat :=
  (h.sessions.toList.filter fun entry => entry.2.hasPending).length

/-- At most one deploy is armed or holder upgrade in flight. -/
def deployConflict (h : State) : Option String :=
  if h.armedDeploy.isSome then
    some "a deploy is already armed — cancel_pending first (one armed deploy at a time)"
  else if h.pendingUpgrade.isSome then some "a holder upgrade is in flight"
  else none

/-- An armed deploy is a reverse migration. -/
def splitRollbackArmed (h : State) : Bool := h.armedDeploy.any fun d => d.1.isSplitRollback

/-- The record that a `(uid, incarnation)` pair names. -/
def record? (h : State) (uid : String) (incarnation : Nat) : Option SessionEntry :=
  h.sessions[uid]?.filter fun e => e.incarnation = incarnation

/-- The sessions whose exit the poll set watches. -/
def polled (h : State) : List String :=
  (h.sessions.toList.filter fun entry => entry.2.exit.isNone ∧ ¬ entry.2.exitLatched).map (·.1)

def setSession (h : State) (uid : String) (e : SessionEntry) : State :=
  { h with sessions := h.sessions.insert uid e }

def dropSession (h : State) (uid : String) : State :=
  { h with sessions := h.sessions.erase uid }

/-- Replace the listener of one kind. -/
def storeListenerCustody (h : State) (listener : ListenerMeta) (fd : Fd) : State :=
  { h with listeners := h.listeners.filter (fun l => l.1.kind ≠ listener.kind) ++ [(listener, fd)] }

end State

end Holder
