import Mathlib
import ClaudeManager.Continuous.Fires

/-!
# Writers that end a run

Each of these is the change one writer makes to the record under the task lock. Most check the
run they decided about once more; the orphan reconciliation and the escalation do not.

* `closeRun` — the guarded close the others share
* `stranded` — the run, or the guard of a fire, that has lost its session
* `orphanRun`, `sweepRun`, `escalateStuck` — the writers without that guard, or with half of it
* `closeRun_cases` — all that a guarded close can do
-/

namespace Continuous

/-- Close the last run if it is the one decided about. -/
def closeRun (decided : RunRecord → Bool) (status : RunStatus) (now : Nat)
    (after : RunRecord → Task → Task) (t : Task) : Task :=
  match t.lastRun with
  | some run =>
    if decided run then
      after run { t with lastRun := some { run with status, finishedAt := some now } }
    else t
  | none => t

/-- The last run of this session is still running. -/
def RunRecord.runsOn (uid : String) (run : RunRecord) : Bool :=
  decide (run.sessionUid = some uid ∧ run.status = .running)

/-- A clean completion ends every streak. -/
def completed (t : Task) : Task :=
  { t with consecutiveWedgeCloses := 0, capacityHoldReleases := 0, accountBlocked := none }

/-! ## Reports, exits and the operator -/

/-- `report_done`: the caller ends its own run. -/
def reportDone (uid : String) (now : Nat) : Task → Task :=
  closeRun (RunRecord.runsOn uid) .done now fun _ t =>
    { completed t with drain := t.drain.map fun d => { d with diagnostic := none } }

/-- `continuous.force_done`: the operator ends the run it names. -/
def forceDone (seq now : Nat) : Task → Task :=
  closeRun (fun run => decide (run.seq = seq ∧ run.status = .running)) .done now fun _ t =>
    completed t

/-- How a session that exits ends its run. -/
inductive ExitStatus where
  | done
  | failed
  deriving DecidableEq

def ExitStatus.status : ExitStatus → RunStatus
  | .done => .done
  | .failed => .failed

/-- A session of the task has exited. -/
def closeContinuousRunForExit (uid : String) (terminal : ExitStatus) (now : Nat) (t : Task) :
    Task :=
  if t.recovery.isSome || (decide (t.engine = .codex) && t.accountBlocked.isSome) then t
  else
    closeRun (RunRecord.runsOn uid) terminal.status now (fun _ t =>
      if terminal = .done then completed t else { t with accountBlocked := none }) t

/-! ## Orphans -/

/-- A run, or the guard of a fire, whose session is to be looked for. -/
structure Stranded where
  guard : Option InFlight
  sessionUid : Option String
  startedAt : Nat
  seq : Nat
  fireToken : String
  deriving DecidableEq

/-- Whichever guard is present: an armed fire, or a last run that is still running. -/
def stranded (tk : Task) : Option Stranded :=
  match tk.inFlight with
  | some guard =>
    some ⟨some guard, some guard.sessionUid, guard.startedAt,
      (tk.lastRun.map (·.seq)).getD tk.runCount, guard.fireToken⟩
  | none =>
    match tk.lastRun with
    | some lr =>
      if lr.status = .running then
        some ⟨none, lr.sessionUid, lr.startedAt, lr.seq, lr.fireToken⟩
      else none
    | none => none

/-- Held work is left to its own recovery. -/
def skipsOrphans (tk : Task) : Bool :=
  tk.recovery.isSome ||
    (decide (tk.engine = .codex) && (tk.accountBlocked.isSome || tk.recoveryHold.isSome))

/-- Seconds a spawn is given before its guard may be withdrawn. -/
def reconcileGraceSecs : Nat := 60

/-- What `reconcile_orphans` decides on the record it has loaded. -/
def reconcileOrphans (tk : Task) (now : Nat) (sessionIsDead : String → Bool) :
    Option Stranded :=
  if tk.adoptionPending.isSome || skipsOrphans tk then none
  else
    match stranded tk with
    | some v =>
      match v.sessionUid with
      | some uid =>
        if now - v.startedAt < reconcileGraceSecs then none
        else if sessionIsDead uid then some v
        else none
      | none => none
    | none => none

/-- What `startup_orphan_sweep` decides on the record it has loaded. -/
def startupOrphanSweep (tk : Task) (alive : String → Bool) : Option Stranded :=
  if skipsOrphans tk then none
  else
    match stranded tk with
    | some v => if v.sessionUid.any alive then none else some v
    | none => none

/-- Mark the last run orphaned, whichever it is, and withdraw the guard, whosever it is. -/
def orphanRun (now : Nat) (t : Task) : Task :=
  { t with
    lastRun := t.lastRun.map fun lr =>
      { lr with status := .orphaned, finishedAt := some (lr.finishedAt.getD now) }
    accountBlocked := none
    inFlight := none }

/-- Mark the run orphaned if it is still running, and withdraw the guard, whosever it is. -/
def sweepRun (seq now : Nat) (t : Task) : Task :=
  { (match t.lastRun with
      | some run =>
        if run.seq = seq ∧ run.status = RunStatus.running then
          { t with
            lastRun := some { run with
              status := .orphaned, finishedAt := some (run.finishedAt.getD now) }
            accountBlocked := none }
        else t
      | none => t) with
    inFlight := none }

/-! ## Stuck runs -/

/-- Why a run is escalated. -/
inductive Escalation where
  /-- The watchdog found the investigations used up. -/
  | watchdog (now maxInvestigations : Nat)
  /-- The investigator's own verdict. -/
  | investigator (callerUid : String)
  deriving DecidableEq

/-- The last run is over its runtime budget. -/
def Task.overBudget (tk : Task) (now : Nat) : Bool :=
  match tk.lastRun, tk.maxRuntimeSecs with
  | some run, some maxRuntime =>
    decide (run.status = .running) && run.sessionUid.isSome &&
      decide (maxRuntime < now - run.startedAt)
  | _, _ => false

/-- What `watchdog_pass` and `resolve_stuck` check before they escalate. -/
def Escalation.decides (tk : Task) : Escalation → Bool
  | .watchdog now maxInvestigations =>
    decide (tk.runMode = .fresh) && tk.enabled && !tk.paused && tk.drain.isNone &&
      tk.overBudget now && decide (maxInvestigations ≤ tk.investigationCount)
  | .investigator callerUid =>
    decide (tk.investigatorUid = some callerUid) && tk.drain.isNone

/-- Mark the last run stuck, whichever it is. -/
def escalateStuck (t : Task) : Task :=
  { t.mapLastRun fun run => { run with status := .stuck } with investigatorUid := none }

/-- `mark_unstuck`: the run is slow but real. -/
def markUnstuck (now : Nat) (t : Task) : Task :=
  { t.mapLastRun fun run => { run with startedAt := now } with investigatorUid := none }

/-- A restart releases the investigation before the task is fired again. -/
def clearInvestigator (t : Task) : Task := { t with investigatorUid := none }

/-- The investigator blew its own runtime budget. -/
def abandonTimedOutInvestigator (t : Task) : Task :=
  { t with investigatorUid := none, investigatorStartedAt := none }

/-- An investigator has been spawned. -/
def spawnInvestigator (uid : String) (now : Nat) (t : Task) : Task :=
  { t with
    investigatorUid := some uid
    investigatorStartedAt := some now
    investigationCount := saturatingAdd32 t.investigationCount 1 }

/-! ## Wedges -/

/-- Close a run whose turn ended without a report; a Codex batch stays held. -/
def closeWedgedRun (engine : Engine) (seq : Nat) (uid : String) (now : Nat) (t : Task) : Task :=
  if t.paused || t.drain.isSome || t.inFlight.isSome || decide (t.engine ≠ engine) then t
  else
    closeRun (fun run => decide (run.seq = seq) && run.runsOn uid) .failed now (fun run t =>
      let t := { t with
        consecutiveWedgeCloses := saturatingAdd32 t.consecutiveWedgeCloses 1
        accountBlocked := none }
      if t.engine = .codex ∧ t.schedule.isConsumer then
        { t.bumpAdmission with
          recoveryHold := some ⟨seq, uid, run.fireToken, now,
            "Codex turn ended without report_done. The staged batch remains held until " ++
              "completed and unfinished items are reconciled.", false⟩ }
      else t) t

/-! ## What a guarded close can do -/

/-- A guarded close does nothing, or it closes the run it decided about. -/
theorem closeRun_cases (decided : RunRecord → Bool) (status : RunStatus) (now : Nat)
    (after : RunRecord → Task → Task) (t : Task) :
    closeRun decided status now after t = t ∨
      ∃ run, t.lastRun = some run ∧ decided run = true ∧
        closeRun decided status now after t =
          after run { t with lastRun := some { run with status, finishedAt := some now } } := by
  unfold closeRun
  split
  · next run hrun =>
    split
    · next hdec => exact .inr ⟨run, hrun, hdec, rfl⟩
    · exact .inl rfl
  · exact .inl rfl

end Continuous
