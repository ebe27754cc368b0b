import Mathlib

/-!
# The record of a continuous task

A continuous task lives in one record on disk. Every writer loads it, changes it and saves it
under one lock; what a writer decides on is often a record it read earlier.

* `Task` — the record, with the fields the scheduler and the fire path read or write
* `activeAccountBlock`, `runActiveBlocksFire`, `shouldSupervise` — the scheduler's predicates
* `recoveryBinding` — what a recovery transaction is bound to

A digest of a value (a state hash, a recovery binding) is represented by the value itself.
-/

namespace Continuous

/-- `u32::saturating_add`. -/
def saturatingAdd32 (a b : Nat) : Nat := min (a + b) (2 ^ 32 - 1)

/-- `u64::saturating_add`. -/
def saturatingAdd64 (a b : Nat) : Nat := min (a + b) (2 ^ 64 - 1)

/-! ## Parts of the record -/

inductive Engine where
  | claude
  | codex
  | bash
  deriving DecidableEq

inductive RunMode where
  | fresh
  | persistent
  deriving DecidableEq

inductive Schedule where
  | onDemand
  | periodic (everySecs : Nat)
  | consumer (queue : String) (batchMax windowSecs depthThreshold : Nat)
  | cron (expr : String)
  deriving DecidableEq

/-- Whether a task takes its work from a queue. -/
def Schedule.isConsumer : Schedule → Bool
  | .consumer .. => true
  | _ => false

inductive RunStatus where
  | pending
  | running
  | idle
  | done
  | failed
  | stuck
  | orphaned
  deriving DecidableEq

/-- A run that ended this way has its outcome. -/
def RunStatus.closed : RunStatus → Bool
  | .done | .failed | .stuck | .orphaned => true
  | .pending | .running | .idle => false

/-- Spawn-window guard, set when a fire is admitted. -/
structure InFlight where
  fireToken : String
  sessionUid : String
  startedAt : Nat
  deriving DecidableEq

/-- The most recent run's durable summary. -/
structure RunRecord where
  seq : Nat
  fireToken : String
  startedAt : Nat
  finishedAt : Option Nat
  sessionUid : Option String
  status : RunStatus
  triggerSource : String
  deriving DecidableEq

inductive AccountBlockKind where
  | authExpired
  | usageLimited
  deriving DecidableEq

/-- Durable account-block episode attached to the currently running run. -/
structure AccountBlockRecord where
  runSeq : Nat
  sessionUid : String
  detectedAt : Nat
  kind : AccountBlockKind
  detail : String
  deriving DecidableEq

/-- A terminal run whose staged work cannot yet be abandoned or replayed. -/
structure RecoveryHold where
  runSeq : Nat
  sessionUid : String
  fireToken : String
  detectedAt : Nat
  detail : String
  capacity : Bool
  deriving DecidableEq

/-- Whether the scheduler may release this hold without reconciliation. -/
def RecoveryHold.autoReleasable (hold : RecoveryHold) : Bool :=
  hold.capacity || decide ("(server_overloaded)".toList <:+: hold.detail.toList)

structure Acknowledgment where
  receivedAt : Nat
  sessionUid : String
  runSeq : Option Nat
  fireToken : Option String
  deriving DecidableEq

structure Checkpoint where
  recordedAt : Nat
  monitorFingerprint : String
  workerFingerprint : String
  notes : String
  deriving DecidableEq

/-- An operator's durable request to finish admitted work and stop. -/
structure DrainRecord where
  requestId : String
  requestedAt : Nat
  fireToken : Option String
  runSeq : Option Nat
  sessionUid : Option String
  diagnostic : Option String
  acknowledgment : Option Acknowledgment
  checkpoint : Option Checkpoint
  deriving DecidableEq

structure Artifact where
  path : String
  sha256 : String
  deriving DecidableEq

inductive ItemStatus where
  | completed
  | unfinished
  | ambiguous
  deriving DecidableEq

structure ItemOutcome where
  status : ItemStatus
  evidence : String
  deriving DecidableEq

structure SelfClear where
  sessionUid : String
  runSeq : Nat
  reason : String
  deriving DecidableEq

/-- What an operator, or the task's own orchestrator, found out about a held run. -/
structure Reconciliation where
  requestId : String
  evidenceHash : String
  recordedAt : Nat
  handover : Artifact
  notes : String
  items : List (String × ItemOutcome)
  batchHash : String
  selfClear : Option SelfClear
  deriving DecidableEq

structure Retirement where
  requestId : String
  sourceEngine : Engine
  runCount : Nat
  sourceSessionUid : Option String
  sessionUids : List String
  proof : String
  recordedAt : Nat
  deriving DecidableEq

structure EngineChange where
  operationId : String
  source : Engine
  target : Engine
  oldSessionUid : Option String
  runCount : Nat
  committedAt : Nat
  deriving DecidableEq

/-- What a recovery transaction is bound to. -/
structure RecoveryBinding where
  engine : Engine
  run : Option RunRecord
  current : Option String
  count : Nat
  account : Option AccountBlockRecord
  hold : Option RecoveryHold
  worktree : String
  schedule : Schedule
  deriving DecidableEq

/-- A crash-resumable recovery transaction. -/
structure RecoveryProgress where
  runSeq : Nat
  fireToken : String
  sessionUid : String
  binding : RecoveryBinding
  reconciliation : Reconciliation
  retiredUids : List String
  replayed : List String
  bound : ∃ run, binding.run = some run ∧ run.seq = runSeq ∧ run.fireToken = fireToken ∧
    run.sessionUid = some sessionUid
  deriving DecidableEq

/-! ## The record -/

/-- The durable record of a continuous task. -/
structure Task where
  taskId : String
  worktreePath : String
  engine : Engine
  runMode : RunMode
  schedule : Schedule
  currentSessionUid : Option String
  adoptionPending : Option String
  runCount : Nat
  enabled : Bool
  paused : Bool
  drain : Option DrainRecord
  reconciliation : Option Reconciliation
  retirement : Option Retirement
  engineChanges : List EngineChange
  admissionRevision : Nat
  inFlight : Option InFlight
  lastRun : Option RunRecord
  nextFireAt : Nat
  lastFiredAt : Nat
  compactEvery : Option Nat
  supervise : Bool
  maxRuntimeSecs : Option Nat
  consecutiveFailures : Nat
  investigationCount : Nat
  consecutiveWedgeCloses : Nat
  capacityHoldReleases : Nat
  accountBlocked : Option AccountBlockRecord
  recoveryHold : Option RecoveryHold
  recovery : Option RecoveryProgress
  investigatorUid : Option String
  investigatorStartedAt : Option Nat
  deriving DecidableEq

/-- A new task: it has never fired. -/
def Task.new (taskId worktreePath : String) (engine : Engine) (runMode : RunMode)
    (schedule : Schedule) : Task where
  taskId
  worktreePath
  engine
  runMode
  schedule
  currentSessionUid := none
  adoptionPending := none
  runCount := 0
  enabled := true
  paused := false
  drain := none
  reconciliation := none
  retirement := none
  engineChanges := []
  admissionRevision := 0
  inFlight := none
  lastRun := none
  nextFireAt := 0
  lastFiredAt := 0
  compactEvery := none
  supervise := false
  maxRuntimeSecs := none
  consecutiveFailures := 0
  investigationCount := 0
  consecutiveWedgeCloses := 0
  capacityHoldReleases := 0
  accountBlocked := none
  recoveryHold := none
  recovery := none
  investigatorUid := none
  investigatorStartedAt := none

namespace Task

variable {t : Task}

/-- The task's last run has this status. -/
def lastStatus (t : Task) : Option RunStatus := t.lastRun.map (·.status)

/-- The task's last run is still running. -/
def running (t : Task) : Bool := decide (t.lastStatus = some .running)

/-- Change the last run, if there is one. -/
def mapLastRun (t : Task) (f : RunRecord → RunRecord) : Task :=
  { t with lastRun := t.lastRun.map f }

/-- Admission is closed against everything decided before. -/
def bumpAdmission (t : Task) : Task :=
  { t with admissionRevision := saturatingAdd64 t.admissionRevision 1 }

/-- What a recovery of this task would be bound to. -/
def recoveryBinding (t : Task) : RecoveryBinding where
  engine := t.engine
  run := t.lastRun
  current := t.currentSessionUid
  count := t.runCount
  account := t.accountBlocked
  hold := t.recoveryHold
  worktree := t.worktreePath
  schedule := t.schedule

/-- A task that has never fired, and that nothing holds. -/
structure Unfired (t : Task) : Prop where
  count : t.runCount = 0
  run : t.lastRun = none
  guard : t.inFlight = none
  block : t.accountBlocked = none
  hold : t.recoveryHold = none
  recovery : t.recovery = none

/-! ## The scheduler's predicates -/

/-- An account block is active only while it still names the running last run. -/
def activeAccountBlock (t : Task) : Option AccountBlockRecord :=
  match t.lastRun, t.accountBlocked with
  | some run, some block =>
    if run.status = .running ∧ block.runSeq = run.seq ∧ run.sessionUid = some block.sessionUid then
      some block
    else none
  | _, _ => none

/-- A task whose dead session supervision restarts. -/
def shouldSupervise (t : Task) : Bool :=
  decide (t.runMode = .persistent) && t.adoptionPending.isNone && t.supervise && t.enabled &&
    !t.paused && t.inFlight.isNone && t.activeAccountBlock.isNone && t.recoveryHold.isNone &&
    t.recovery.isNone && t.retirement.isNone

/-- A fresh task whose last run is still running. -/
def freshRunActive (t : Task) : Bool := decide (t.runMode = .fresh) && t.running

/-- The due loop does not fire such a task. -/
def runActiveBlocksFire (t : Task) : Bool :=
  if t.recoveryHold.isSome || t.recovery.isSome || t.retirement.isSome ||
      t.activeAccountBlock.isSome then
    true
  else if t.schedule.isConsumer then t.running
  else t.freshRunActive

/-- The tasks whose scheduled fires must not overlap a run. -/
def exclusive (t : Task) : Bool := decide (t.runMode = .fresh) || t.schedule.isConsumer

/-- A due fire of such a task finds its last run ended. -/
theorem not_running_of_not_blocked (hex : t.exclusive = true)
    (h : t.runActiveBlocksFire = false) : t.running = false := by
  unfold runActiveBlocksFire at h
  split at h
  · exact absurd h Bool.true_eq_false.mp
  · split at h
    · exact h
    · next hc =>
      have hfresh : t.runMode = .fresh := by
        simp only [exclusive, Bool.or_eq_true, decide_eq_true_eq] at hex
        exact hex.resolve_right hc
      simpa [freshRunActive, hfresh] using h

end Task

end Continuous
