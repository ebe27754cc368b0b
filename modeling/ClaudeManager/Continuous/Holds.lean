import Mathlib
import ClaudeManager.Continuous.Closings

/-!
# Blocks, holds and admission

Writers that block a run's account, hold a run for recovery and let it go again, and those that
open and close the task's admission.

* `poolUnavailable`, `detectAccountBlock` — what the transcript's tail can lead to
* `recoverAccountBlock`, `releaseRecovery` — an account is back
* `releaseCapacityHold`, `restoreCapacityHold` — the scheduler reopens a held run
* `requestDrain`, `pauseTask`, `advanceAfterFire` — admission and the schedule
-/

namespace Continuous

/-! ## The tail of a transcript -/

/-- The last run is still the one that was read. -/
def RunRecord.isStill (read : RunRecord) (uid : String) (run : RunRecord) : Bool :=
  decide (run.seq = read.seq ∧ run.fireToken = read.fireToken) && run.runsOn uid

/-- The pool refused a turn: the run is closed and held. -/
def poolUnavailable (read : RunRecord) (uid : String) (now : Nat) (detail : String)
    (capacity : Bool) (t : Task) : Task :=
  if decide (t.engine ≠ .codex) || t.inFlight.isSome || t.recoveryHold.isSome then t
  else
    closeRun (read.isStill uid) .failed now (fun _ t =>
      { t.bumpAdmission with
        accountBlocked := none
        recoveryHold := some ⟨read.seq, uid, read.fireToken, now, detail, capacity⟩ }) t

/-- The account behind a running run is blocked; the run is left running. -/
def detectAccountBlock (engine : Engine) (read : RunRecord) (uid : String) (now : Nat)
    (kind : AccountBlockKind) (banner : String) (t : Task) : Task :=
  if t.lastRun.any (read.isStill uid) && decide (t.engine = engine) && t.inFlight.isNone then
    { t with accountBlocked := some ⟨read.seq, uid, now, kind, banner⟩ }
  else t

/-! ## Accounts that are back -/

/-- Seconds before the schedule may fire a clean run after an account recovery. -/
def accountRecoverySettleSecs : Nat := 5

/-- What `recover_account_block` checks on the record it reloads. -/
def mayRecoverAccount (tk : Task) (engine : Engine) (block : AccountBlockRecord) (seq : Nat)
    (uid : String) : Bool :=
  !tk.paused && tk.drain.isNone && decide (tk.engine = engine) && tk.inFlight.isNone &&
    tk.enabled && decide (tk.accountBlocked = some block) &&
    tk.lastRun.any fun run => decide (run.seq = seq) && run.runsOn uid

/-- Retire the poisoned run. -/
def recoverAccountBlock (seq : Nat) (uid : String) (now : Nat) (t : Task) : Task :=
  if t.accountBlocked.any fun b => decide (b.runSeq = seq ∧ b.sessionUid = uid) then
    closeRun (fun run => decide (run.seq = seq) && run.runsOn uid) .failed now (fun _ t =>
      { t with
        accountBlocked := none
        consecutiveWedgeCloses := 0
        nextFireAt := max t.nextFireAt (saturatingAdd64 now accountRecoverySettleSecs) }) t
  else t

/-- `continuous.reconcile`, and the orchestrator's own clearing of its hold. -/
def recordReconciliation (record : Reconciliation) (t : Task) : Task :=
  { t with reconciliation := some record }

/-- What `recover_codex` checks on the record it loads. -/
def mayRecoverCodex (tk : Task) : Bool :=
  decide (tk.engine = .codex) && tk.enabled && !tk.paused && tk.drain.isNone &&
    tk.inFlight.isNone &&
    (tk.accountBlocked.isSome || tk.recoveryHold.isSome || tk.recovery.isSome)

/-- The transaction a recovery of this record starts with. -/
def startRecovery (tk : Task) (retiredUids : List String) : Option RecoveryProgress :=
  match hrun : tk.lastRun, tk.reconciliation with
  | some run, some reconciliation =>
    match huid : run.sessionUid with
    | some uid =>
      some ⟨run.seq, run.fireToken, uid, tk.recoveryBinding, reconciliation, retiredUids, [],
        run, hrun, rfl, rfl, huid⟩
    | none => none
  | _, _ => none

/-- The transaction `recover_codex` goes on with: the one on record, or a new one. -/
def currentRecovery (tk : Task) (retiredUids : List String) : Option RecoveryProgress :=
  match tk.recovery with
  | some progress =>
    if progress.binding = tk.recoveryBinding ∧ tk.reconciliation = some progress.reconciliation then
      some progress
    else none
  | none => startRecovery tk retiredUids

/-- Save where the recovery has got to. -/
def saveRecovery (progress : RecoveryProgress) (t : Task) : Task :=
  { t with recovery := some progress }

/-- Release the run a recovery was for, unless the task has changed since it was started. -/
def releaseRecovery (progress : RecoveryProgress) (now : Nat) (t : Task) : Task :=
  if t.paused || t.drain.isSome || t.inFlight.isSome ||
      decide (t.recoveryBinding ≠ progress.binding) then
    t
  else
    { (t.mapLastRun fun run => { run with status := .failed, finishedAt := some now }).bumpAdmission
      with
      currentSessionUid := none
      accountBlocked := none
      recoveryHold := none
      recovery := none
      reconciliation := none
      consecutiveWedgeCloses := 0
      nextFireAt := max t.nextFireAt (saturatingAdd64 now 5) }

/-! ## Capacity holds -/

/-- No operator recovery, drain or pause is in progress, and no fire is admitted. -/
def quiescent (t : Task) : Bool :=
  decide (t.engine = .codex) && t.enabled && !t.paused && t.drain.isNone && t.inFlight.isNone &&
    t.recovery.isNone && t.reconciliation.isNone && t.retirement.isNone && t.accountBlocked.isNone

/-- The last run is the one the hold names. -/
def RecoveryHold.identifies (hold : RecoveryHold) (status : RunStatus) (run : RunRecord) : Bool :=
  decide (run.seq = hold.runSeq ∧ run.fireToken = hold.fireToken ∧
    run.sessionUid = some hold.sessionUid ∧ run.status = status)

/-- Seconds a capacity hold stands before it may be released. -/
def capacityHoldBackoff (releases : Nat) : Nat :=
  min (1800 * 2 ^ min releases 16) (4 * 3600)

/-- What `try_release_capacity_hold` checks on the record it has loaded. -/
def mayReleaseCapacityHold (tk : Task) (hold : RecoveryHold) (now : Nat) : Bool :=
  decide (tk.recoveryHold = some hold) && hold.autoReleasable && quiescent tk &&
    tk.lastRun.any (hold.identifies .failed) &&
    decide (capacityHoldBackoff tk.capacityHoldReleases ≤ now - hold.detectedAt)

/-- A held run that is reopened is this period's cycle. -/
def skipPeriod (now : Nat) (t : Task) : Task :=
  match t.schedule with
  | .periodic everySecs => { t with nextFireAt := max t.nextFireAt (saturatingAdd64 now everySecs) }
  | _ => t

/-- Reopen the run the hold names. -/
def releaseCapacityHold (hold : RecoveryHold) (now : Nat) (t : Task) : Task :=
  if decide (t.recoveryHold = some hold) && quiescent t &&
      t.lastRun.any (hold.identifies .failed) then
    (skipPeriod now
      { t.mapLastRun fun run => { run with status := .running, finishedAt := none } with
        recoveryHold := none
        capacityHoldReleases := saturatingAdd32 t.capacityHoldReleases 1
        lastFiredAt := max t.lastFiredAt now }).bumpAdmission
  else t

/-- The resumed run could not be told: restore the hold. -/
def restoreCapacityHold (hold : RecoveryHold) (now : Nat) (t : Task) : Task :=
  if t.recoveryHold.isSome || t.inFlight.isSome then t
  else
    closeRun (hold.identifies .running) .failed now
      (fun _ t => { t.bumpAdmission with recoveryHold := some hold }) t

/-! ## Admission and the schedule -/

/-- The run a stop request captures: the fire in its spawn window, or else the last run. -/
def captureDrain (t : Task) : Option String × Option Nat × Option String :=
  match t.inFlight with
  | some fire =>
    (some fire.fireToken,
      some (((t.lastRun.filter fun run => run.fireToken = fire.fireToken).map (·.seq)).getD
        (t.runCount + 1)),
      some fire.sessionUid)
  | none =>
    (t.lastRun.map (·.fireToken), t.lastRun.map (·.seq),
      t.currentSessionUid.or (t.lastRun.bind (·.sessionUid)))

/-- `continuous.drain`: close admission and capture the admitted work. -/
def requestDrain (requestId : String) (now : Nat) (t : Task) : Task :=
  let t := { t with paused := true }
  if t.drain.isSome then t
  else
    let t := t.bumpAdmission
    let captured := captureDrain t
    { t with drain := some ⟨requestId, now, captured.1, captured.2.1, captured.2.2, none, none, none⟩ }

/-- An engine change that has not been used yet. -/
def unusedTarget (t : Task) : Bool :=
  t.currentSessionUid.isNone &&
    t.engineChanges.getLast?.any fun c => decide (c.target = t.engine ∧ c.runCount = t.runCount)

/-- `continuous.pause`: set or clear the paused flag; a resume ends a drain. -/
def pauseTask (paused : Bool) (expectedDrain : Option String) (expectedRevision : Option Nat)
    (t : Task) : Task :=
  if !paused && (t.reconciliation.any fun r => r.items.any fun i => i.2.status ≠ .completed) &&
      t.accountBlocked.isNone && t.recoveryHold.isNone && t.recovery.isNone then
    t
  else if !paused && t.retirement.isSome && !unusedTarget t then t
  else if (expectedRevision.any fun r => r ≠ t.admissionRevision) ||
      (expectedDrain.any fun id => t.drain.map (·.requestId) ≠ some id) then
    t
  else
    let changes := decide (t.paused ≠ paused) || (!paused && t.drain.isSome)
    let t := if changes then t.bumpAdmission else t
    let t := { t with paused := paused }
    if paused then t else { t with drain := none, reconciliation := none, retirement := none }

/-- What a fire of the scheduler came to. -/
inductive FireOutcome where
  | fired
  | firedCompact
  | skipped
  | skipActive
  | failed
  deriving DecidableEq

def consumerRefireSpacingSecs : Nat := 60

def compactSettleSpacingSecs : Nat := 600

def consecutiveFailureLimit : Nat := 5

/-- Exponential, capped backoff after failed fires. -/
def backoffSecs (everySecs consecutiveFailures : Nat) : Nat :=
  min (max everySecs 1 * 2 ^ min consecutiveFailures 16) 3600

/-- Seconds between the fires of a task, when its schedule has them. -/
def spacing (t : Task) : Option Nat :=
  match t.schedule with
  | .periodic everySecs => some (max everySecs 1)
  | .consumer .. => some consumerRefireSpacingSecs
  | _ => none

/-- Record what a fire came to in the schedule. -/
def advanceAfterFire (outcome : FireOutcome) (now : Nat) (t : Task) : Task :=
  match spacing t, outcome with
  | none, _ => t
  | some every, .fired =>
    { t with
      lastFiredAt := now, consecutiveFailures := 0, nextFireAt := saturatingAdd64 now every }
  | some every, .firedCompact =>
    { t with
      lastFiredAt := now, consecutiveFailures := 0
      nextFireAt := saturatingAdd64 now (max every compactSettleSpacingSecs) }
  | some _, .skipped => t
  | some every, .skipActive => { t with nextFireAt := saturatingAdd64 now every }
  | some every, .failed =>
    let failures := saturatingAdd32 t.consecutiveFailures 1
    { t with
      consecutiveFailures := failures
      nextFireAt := saturatingAdd64 now (backoffSecs every failures)
      paused := t.paused || decide (consecutiveFailureLimit ≤ failures) }

end Continuous
