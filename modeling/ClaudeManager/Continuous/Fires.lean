import Mathlib
import ClaudeManager.Continuous.Task

/-!
# Fires

A fire is admitted under the task lock, works for as long as it takes, and then records its run
or, where a step failed, gives its guard up.

* `armContinuousFire` — the admission, which sets the spawn-window guard
* `clearInFlight` — the clean-up after a failure
* `recordFire` — the record of the run
* `arm_ok` — all that an admitted fire was checked for
-/

namespace Continuous

/-- Reason a fire was abandoned inside the check-and-set. -/
inductive FireAbort where
  | paused
  | recoveryHeld
  | staleAdmission
  | busy
  | duplicateFireToken
  deriving DecidableEq

/-- Admission is checked against the persisted record, never the pre-prompt snapshot. -/
def armContinuousFire (snapshot : Task) (fireToken sessionUid : String) (startedAt : Nat)
    (t : Task) : Except FireAbort Task :=
  if t.adoptionPending.isSome || t.paused || t.drain.isSome then .error .paused
  else if t.recoveryHold.isSome || t.accountBlocked.isSome || t.retirement.isSome ||
      t.recovery.isSome then
    .error .recoveryHeld
  else if t.admissionRevision ≠ snapshot.admissionRevision ∨ t.engine ≠ snapshot.engine then
    .error .staleAdmission
  else if t.inFlight.isSome then .error .busy
  else if t.lastRun.any (·.fireToken = fireToken) then .error .duplicateFireToken
  else if t.runCount ≠ snapshot.runCount ∨ t.currentSessionUid ≠ snapshot.currentSessionUid then
    .error .staleAdmission
  else .ok { t with inFlight := some ⟨fireToken, sessionUid, startedAt⟩ }

/-- Who asked for a fire. -/
inductive Caller where
  | operator (tokenId : String)
  | session (sessionUid : String)
  deriving DecidableEq

/-- The token of the scheduler's own fires. -/
def schedulerCallerToken : String := "continuous-scheduler"

/-- Whether a fire comes from the schedule. -/
def Caller.isScheduled (caller : Caller) : Bool :=
  decide (caller = .operator schedulerCallerToken)

/-- Provenance label for the run record. -/
def Caller.triggerSource : Caller → String
  | .operator _ => "operator"
  | .session uid => "session:" ++ uid

/-- A fire between its admission and its record or failure clean-up. -/
structure Fire where
  id : Nat
  seq : Nat
  fireToken : String
  sessionUid : String
  startedAt : Nat
  compact : Bool
  triggerSource : String
  /-- The scheduler's own fire of a task whose runs must not overlap. -/
  scheduled : Bool
  deriving DecidableEq

/-- The pinned session of a persistent task, when the liveness probe found it alive. -/
def persistentTarget (task : Task) (alive : Bool) : Option String :=
  if task.runMode = .persistent ∧ alive then task.currentSessionUid else none

/-- Only a scheduled fire at a live pinned session ever turns into a compaction. -/
def isCompact (task : Task) (caller : Caller) (alive : Bool) : Bool :=
  (persistentTarget task alive).isSome && caller.isScheduled &&
    task.compactEvery.any fun n => decide (0 < n ∧ (task.runCount + 1) % n = 0)

/-- The guard a fire sets. -/
def Fire.guard (f : Fire) : InFlight := ⟨f.fireToken, f.sessionUid, f.startedAt⟩

/-- Roll back the spawn-window guard. -/
def clearInFlight (t : Task) : Task := { t with inFlight := none }

/-- The run record of a fire. -/
def Fire.run (f : Fire) : RunRecord where
  seq := f.seq
  fireToken := f.fireToken
  startedAt := f.startedAt
  finishedAt := if f.compact then some f.startedAt else none
  sessionUid := some f.sessionUid
  status := if f.compact then .done else .running
  triggerSource := f.triggerSource

/-- Record the fire and clear the spawn-window guard in one write. -/
def recordFire (f : Fire) (t : Task) : Task :=
  { t with
    lastRun := some f.run
    currentSessionUid := some f.sessionUid
    runCount := saturatingAdd32 t.runCount 1
    lastFiredAt := f.startedAt
    inFlight := none
    accountBlocked := none
    investigationCount := 0
    investigatorUid := none
    investigatorStartedAt := none }

/-! ## What an admitted fire was checked for -/

variable {snapshot t t' : Task} {fireToken sessionUid : String} {startedAt : Nat}

/-- An admitted fire found no guard, no hold and no block, and the counter it had read. -/
theorem arm_ok (h : armContinuousFire snapshot fireToken sessionUid startedAt t = .ok t') :
    t' = { t with inFlight := some ⟨fireToken, sessionUid, startedAt⟩ } ∧ t.inFlight = none ∧
      t.accountBlocked = none ∧ t.recoveryHold = none ∧ t.recovery = none ∧
      t.runCount = snapshot.runCount ∧ t.currentSessionUid = snapshot.currentSessionUid := by
  unfold armContinuousFire at h
  split at h
  · cases h
  split at h
  · cases h
  next hheld =>
  split at h
  · cases h
  split at h
  · cases h
  next hbusy =>
  split at h
  · cases h
  split at h
  · cases h
  next hstale =>
  cases h
  simp only [Bool.or_eq_true, not_or, Bool.not_eq_true, Option.isSome_eq_false_iff,
    Option.isNone_iff_eq_none] at hheld hbusy
  push Not at hstale
  exact ⟨rfl, hbusy, hheld.1.1.2, hheld.1.1.1, hheld.2, hstale⟩

/-- A fire that is refused for a block, and for nothing else that holds it, found one. -/
theorem arm_held (h : armContinuousFire snapshot fireToken sessionUid startedAt t =
    .error .recoveryHeld) (hhold : t.recoveryHold = none) (hret : t.retirement = none)
    (hrec : t.recovery = none) : ∃ block, t.accountBlocked = some block := by
  unfold armContinuousFire at h
  split at h
  · cases h
  split at h
  · next hheld =>
    rw [hhold, hret, hrec] at hheld
    simpa [Option.isSome_iff_exists] using hheld
  repeat' split at h
  all_goals cases h

end Continuous
