import Mathlib
import ClaudeManager.Continuous.System

/-!
# Account blocks

An account block is attached to the running last run. All writers that end that run clear the
block with it, except for the escalation of a stuck run.

* `Task.BlockNamesRun` — a block names the running last run
* `BlockMove`, `apply_block` — all that a write can do to the block
* `block_runs` — what holds of the block along every run, as long as no blocked run is escalated
* `escalation_keeps_block` — a run that is
-/

namespace Continuous

open Program

/-- An account block names the last run, and that run is still running. -/
def Task.BlockNamesRun (t : Task) : Prop :=
  ∀ block, t.accountBlocked = some block → ∃ run, t.lastRun = some run ∧
    run.seq = block.runSeq ∧ run.sessionUid = some block.sessionUid ∧ run.status = .running

/-- Outside of a recovery transaction, a block names the running last run. -/
def Task.BlockSound (t : Task) : Prop := t.recovery = none → t.BlockNamesRun

theorem Task.BlockSound.of_none {t : Task} (h : t.accountBlocked = none) : t.BlockSound := by
  intro _ block hblock
  rw [h] at hblock
  cases hblock

namespace Write

/-- What a write can do to the block of a task. -/
inductive BlockMove (w : Write) (t t' : Task) : Prop
  | clear (account : t'.accountBlocked = none)
  | keep (account : t'.accountBlocked = t.accountBlocked) (run : t'.lastRun = t.lastRun)
      (recovery : t'.recovery = none → t.recovery = none)
  | rest (startedAt : Nat) (account : t'.accountBlocked = t.accountBlocked)
      (run : t'.lastRun = t.lastRun.map fun run => { run with startedAt })
      (recovery : t'.recovery = t.recovery)
  | escalate (cause : Escalation) (read : Option RunRecord) (is : w = .escalate cause read)
      (account : t'.accountBlocked = t.accountBlocked) (recovery : t'.recovery = t.recovery)
  | restore (hold : RecoveryHold) (now : Nat) (is : w = .restoreHold hold now)
      (account : t'.accountBlocked = t.accountBlocked)
  | detect (scheduler : w.byScheduler = true) (names : t'.BlockNamesRun)

variable {w : Write} {t : Task}

theorem BlockMove.same (w : Write) (t : Task) : w.BlockMove t t := .keep rfl rfl id

/-- A guarded close that clears the block. -/
theorem closeRun_block {decided : RunRecord → Bool} {status : RunStatus} {now : Nat}
    {after : RunRecord → Task → Task} (hafter : ∀ run t, (after run t).accountBlocked = none)
    (t : Task) : w.BlockMove t (closeRun decided status now after t) := by
  rcases closeRun_cases decided status now after t with h | ⟨run, -, -, h⟩
  · rw [h]
    exact .same w t
  · rw [h]
    exact .clear (hafter run _)

/-- All that a write can do to the block. -/
theorem apply_block (w : Write) (t : Task) : w.BlockMove t (w.apply t) := by
  cases w with
  | reportDone uid now =>
    show BlockMove _ t (Continuous.reportDone uid now t)
    unfold Continuous.reportDone
    exact closeRun_block (by exact fun _ _ => rfl) t
  | forceDone seq now =>
    show BlockMove _ t (Continuous.forceDone seq now t)
    unfold Continuous.forceDone
    exact closeRun_block (by exact fun _ _ => rfl) t
  | exit uid terminal now =>
    show BlockMove _ t (closeContinuousRunForExit uid terminal now t)
    unfold closeContinuousRunForExit
    split
    · exact .same _ t
    · refine closeRun_block (fun _ t => ?_) t
      split <;> rfl
  | orphan found now => exact .clear rfl
  | sweep found now =>
    show BlockMove _ t (sweepRun found.seq now t)
    unfold sweepRun
    split
    · split
      · exact .clear rfl
      · exact .keep rfl rfl id
    · exact .keep rfl rfl id
  | escalate cause read => exact .escalate cause read rfl rfl rfl
  | markUnstuck uid now => exact .rest now rfl rfl rfl
  | restart uid => exact .keep rfl rfl id
  | abandonInvestigator uid => exact .keep rfl rfl id
  | spawnInvestigator uid now => exact .keep rfl rfl id
  | closeWedged engine seq uid now =>
    show BlockMove _ t (closeWedgedRun engine seq uid now t)
    unfold closeWedgedRun
    split
    · exact .same _ t
    · refine closeRun_block (fun _ t => ?_) t
      dsimp only
      split <;> rfl
  | poolUnavailable read uid now detail capacity =>
    show BlockMove _ t (Continuous.poolUnavailable read uid now detail capacity t)
    unfold Continuous.poolUnavailable
    split
    · exact .same _ t
    · exact closeRun_block (by exact fun _ _ => rfl) t
  | detectBlock engine read uid now kind banner =>
    show BlockMove _ t (detectAccountBlock engine read uid now kind banner t)
    unfold detectAccountBlock
    split
    · next hcond =>
      simp only [Bool.and_eq_true, Option.any_eq_true] at hcond
      obtain ⟨⟨⟨run, hrun, hstill⟩, -⟩, -⟩ := hcond
      rw [RunRecord.isStill, Bool.and_eq_true, decide_eq_true_eq, runsOn_iff] at hstill
      refine .detect rfl fun block hblock => ⟨run, hrun, ?_⟩
      cases hblock
      exact ⟨hstill.1.1, hstill.2.1, hstill.2.2⟩
    · exact .same _ t
  | recoverAccount engine block seq uid now =>
    show BlockMove _ t (recoverAccountBlock seq uid now t)
    unfold recoverAccountBlock
    split
    · exact closeRun_block (by exact fun _ _ => rfl) t
    · exact .same _ t
  | reconcile record => exact .keep rfl rfl id
  | saveRecovery progress => exact .keep rfl rfl fun h => by cases h
  | releaseRecovery progress now =>
    show BlockMove _ t (Continuous.releaseRecovery progress now t)
    unfold Continuous.releaseRecovery
    split
    · exact .same _ t
    · exact .clear rfl
  | releaseHold hold now =>
    show BlockMove _ t (releaseCapacityHold hold now t)
    unfold releaseCapacityHold
    split
    · next hcond =>
      simp only [quiescent, Bool.and_eq_true, Option.isNone_iff_eq_none] at hcond
      have hnone : t.accountBlocked = none := hcond.1.2.2
      refine .clear ?_
      unfold skipPeriod
      split <;> exact hnone
    · exact .same _ t
  | restoreHold hold now =>
    show BlockMove _ t (restoreCapacityHold hold now t)
    unfold restoreCapacityHold
    split
    · exact .same _ t
    · exact .restore hold now rfl
        (closeRun_field (·.accountBlocked) (fun _ _ => rfl) (by exact fun _ _ => rfl) t)
  | drain requestId now =>
    show BlockMove _ t (requestDrain requestId now t)
    unfold requestDrain
    dsimp only
    split <;> exact .keep rfl rfl id
  | pause paused expectedDrain expectedRevision =>
    show BlockMove _ t (pauseTask paused expectedDrain expectedRevision t)
    unfold pauseTask
    split_ifs <;> first | exact .same _ t | (dsimp only; split_ifs <;> exact .keep rfl rfl id)
  | advance outcome now =>
    show BlockMove _ t (advanceAfterFire outcome now t)
    unfold advanceAfterFire
    split <;> exact .keep rfl rfl id
  | restore => exact .keep rfl rfl id

/-- Only the scheduler's own detection sets a block. -/
theorem BlockMove.account_none {t' : Task} (h : w.BlockMove t t') (hw : w.byScheduler = false)
    (hnone : t.accountBlocked = none) : t'.accountBlocked = none := by
  cases h with
  | clear account => exact account
  | keep account => rw [account, hnone]
  | rest _ account => rw [account, hnone]
  | escalate _ _ _ account => rw [account, hnone]
  | restore _ _ _ account => rw [account, hnone]
  | detect scheduler => exact absurd (scheduler.symm.trans hw) Bool.true_eq_false.mp

/-- Every write keeps the block sound, except an escalation and a failed release that find one. -/
theorem BlockMove.sound {t' : Task} (h : w.BlockMove t t') (hs : t.BlockSound)
    (hesc : ∀ cause read, w = .escalate cause read → t.recovery = none → t.accountBlocked = none)
    (hrestore : ∀ hold now, w = .restoreHold hold now → t.accountBlocked = none) :
    t'.BlockSound := by
  cases h with
  | clear account => exact .of_none account
  | keep account run recovery =>
    intro hrec block hblock
    rw [account] at hblock
    rw [run]
    exact hs (recovery hrec) block hblock
  | rest startedAt account hrun recovery =>
    intro hrec block hblock
    rw [account] at hblock
    obtain ⟨run, hlast, hseq, huid, hstatus⟩ := hs (recovery.symm.trans hrec) block hblock
    exact ⟨{ run with startedAt }, by rw [hrun, hlast, Option.map_some], hseq, huid, hstatus⟩
  | escalate cause read is account recovery =>
    intro hrec block hblock
    rw [account, hesc cause read is (recovery.symm.trans hrec)] at hblock
    cases hblock
  | restore hold now is account => exact .of_none (account.trans (hrestore hold now is))
  | detect _ names => exact fun _ => names

end Write

/-! ## Along a run -/

namespace System

variable {s s' : System} {e : Event}

/-- The block is sound, and there is none while a reopened run has not been told. -/
structure BlockInvariant (s : System) : Prop where
  sound : s.task.BlockSound
  told : s.reopened.isSome = true → s.task.accountBlocked = none

/-- An escalation that writes finds no account block, or a recovery transaction that holds it. -/
def EscalatesUnblocked (s : System) : Event → Prop
  | .write _ (.escalate _ _) => s.task.recovery = none → s.task.accountBlocked = none
  | _ => True

/-- A hold is only released where there is no block. -/
theorem reopened_afterWrite (snapshot : Task) (w : Write) (may : s.mayWrite snapshot w = true)
    (hs : s.reopened.isSome = true → s.task.accountBlocked = none)
    (h : (s.afterWrite w).reopened.isSome = true) : (w.apply s.task).accountBlocked = none := by
  simp only [mayWrite, Bool.and_eq_true, Bool.or_eq_true, Bool.not_eq_true',
    Option.isNone_iff_eq_none] at may
  by_cases hrel : ∃ hold now, w = .releaseHold hold now
  · obtain ⟨hold, now, rfl⟩ := hrel
    have hnone : s.reopened = none := may.1.2.resolve_left Bool.true_eq_false.mp
    dsimp only [afterWrite] at h
    split at h
    · next hcond =>
      -- the closure has gone through, so it found the task quiescent
      show (releaseCapacityHold hold now s.task).accountBlocked = none
      have hblock := (Write.releaseHold hold now).apply_block s.task
      unfold releaseCapacityHold at hcond ⊢
      split at hcond
      · next hquiet =>
        rw [if_pos hquiet]
        simp only [quiescent, Bool.and_eq_true, Option.isNone_iff_eq_none] at hquiet
        have hclear : s.task.accountBlocked = none := hquiet.1.2.2
        unfold skipPeriod
        split <;> exact hclear
      · rw [hcond.1] at hcond
        cases hcond.2
    · rw [show (((s.save ((Write.releaseHold hold now).apply s.task)).acted).reopened) =
        s.reopened from rfl, hnone] at h
      cases h
  · by_cases hdeliver : ∃ hold now, w = .restoreHold hold now
    · obtain ⟨hold, now, rfl⟩ := hdeliver
      cases h
    · have hsame : (s.afterWrite w).reopened = s.reopened := by
        cases w with
        | releaseHold hold now => exact absurd ⟨hold, now, rfl⟩ hrel
        | restoreHold hold now => exact absurd ⟨hold, now, rfl⟩ hdeliver
        | _ => rfl
      rw [hsame] at h
      have hscheduler : w.byScheduler = false := by
        refine may.1.2.resolve_right fun hnone => ?_
        rw [hnone] at h
        cases h
      exact (w.apply_block s.task).account_none hscheduler (hs h)

/-- A step keeps the block sound, unless it escalates a blocked run. -/
theorem Stepped.block (hstep : Stepped s e s') (h : s.BlockInvariant)
    (hok : s.EscalatesUnblocked e) : s'.BlockInvariant := by
  cases hstep with
  | quiet _ live => exact ⟨h.sound, h.told⟩
  | tick => exact ⟨h.sound, h.told⟩
  | judge snapshot now read => exact ⟨h.sound, h.told⟩
  | judgeStartup snapshot read => exact ⟨h.sound, h.told⟩
  | lose f mem => exact ⟨h.sound, h.told⟩
  | delivered => exact ⟨h.sound, fun hnone => by cases hnone⟩
  | crash => exact ⟨h.sound, fun hnone => by cases hnone⟩
  | cleanUp f mem => exact ⟨h.sound, h.told⟩
  | record f mem => exact ⟨.of_none rfl, fun _ => rfl⟩
  | arm origin snapshot fireToken minted alive now t _ may armed eq =>
    obtain ⟨ht, -, hnone, -⟩ := arm_ok armed
    have hclear : t.accountBlocked = none := by rw [ht, hnone]
    rw [eq]
    split <;> exact ⟨.of_none hclear, fun _ => hclear⟩
  | write snapshot w may =>
    refine ⟨?_, fun hre => ?_⟩
    · rw [afterWrite_task]
      refine (w.apply_block s.task).sound h.sound ?_ ?_
      · rintro cause read rfl
        exact hok
      · rintro hold now rfl
        -- the scheduler restores a hold only while the run it reopened has not been told
        simp only [mayWrite, Bool.and_eq_true, decide_eq_true_eq] at may
        exact h.told (by rw [may.2, Option.isSome_some])
    · rw [afterWrite_task]
      exact reopened_afterWrite snapshot w may h.told hre

theorem start_block {t : Task} (ht : t.Unfired) : (start t).BlockInvariant :=
  ⟨.of_none ht.block, fun h => by cases h⟩

/-- The block is sound along every run in which no blocked run is escalated. -/
theorem run_block {t : Task} {es : List Event} (ht : t.Unfired)
    (hok : Meets step EscalatesUnblocked (start t) es) :
    (es.foldl step (start t)).BlockInvariant :=
  Meets.invariant (I := BlockInvariant) (fun s e hs he => (s.stepped e).block hs he)
    (start_block ht) hok

/-- Along every run in which an escalation that writes finds no account block, a block outside of
a recovery names the running last run, and a fire is only refused for a run that has not ended. -/
theorem block_runs {t : Task} {es : List Event} (ht : t.Unfired)
    (hok : Meets step EscalatesUnblocked (start t) es) :
    ((es.foldl step (start t)).task.recovery = none →
      (es.foldl step (start t)).task.BlockNamesRun) ∧
    ∀ (snapshot : Task) (fireToken sessionUid : String) (now : Nat),
      armContinuousFire snapshot fireToken sessionUid now (es.foldl step (start t)).task =
        .error .recoveryHeld →
      (es.foldl step (start t)).task.recoveryHold = none →
      (es.foldl step (start t)).task.retirement = none →
      (es.foldl step (start t)).task.recovery = none →
      (es.foldl step (start t)).task.running = true := by
  have hsound := (run_block ht hok).sound
  refine ⟨hsound, fun snapshot fireToken sessionUid now hheld hhold hret hrec => ?_⟩
  obtain ⟨block, hblock⟩ := arm_held hheld hhold hret hrec
  obtain ⟨run, hrun, -, -, hstatus⟩ := hsound hrec block hblock
  rw [Task.running, Task.lastStatus, hrun, Option.map_some, hstatus]
  rfl

end System

/-! ## A run that is escalated while its account is blocked -/

/-- The account of the first run is blocked. -/
def blockedTask : Task :=
  detectAccountBlock .claude firstFire.run "s1" 1100 .usageLimited "limit reached" ranTask

/-- The first run is over its budget: an investigator is at work. -/
def investigatedTask : Task := spawnInvestigator "inv" 2000 blockedTask

/-- A run is blocked, overruns its budget, and is escalated by its investigator. -/
def escalatedRun : List Event :=
  [.arm (.caller (.operator "op")) budgetTask "f1" "s1" false 1000, .spawned "s1",
    .record firstFire,
    .write ranTask (.detectBlock .claude firstFire.run "s1" 1100 .usageLimited "limit reached"),
    .write blockedTask (.spawnInvestigator "inv" 2000),
    .write investigatedTask (.escalate (.investigator "inv") (some firstFire.run))]

/-- The block outlives its run, and no fire is admitted any more. -/
theorem escalation_keeps_block : budgetTask.Unfired ∧
    ¬ ((escalatedRun.foldl System.step (.start budgetTask)).task.recovery = none →
      (escalatedRun.foldl System.step (.start budgetTask)).task.BlockNamesRun) ∧
    armContinuousFire (escalatedRun.foldl System.step (.start budgetTask)).task "f2" "s2" 9000
      (escalatedRun.foldl System.step (.start budgetTask)).task = .error .recoveryHeld := by
  have htask : (escalatedRun.foldl System.step (.start budgetTask)).task =
      escalateStuck investigatedTask := by decide +kernel
  refine ⟨⟨rfl, rfl, rfl, rfl, rfl, rfl⟩, ?_, ?_⟩
  · rw [htask]
    intro h
    obtain ⟨run, hrun, -, -, hstatus⟩ := h (by decide +kernel)
      ⟨1, "s1", 1100, .usageLimited, "limit reached"⟩ (by decide +kernel)
    have hstuck : run.status = .stuck := by
      have hlast : (escalateStuck investigatedTask).lastRun.map (·.status) = some .stuck := by
        decide +kernel
      rw [hrun] at hlast
      exact Option.some.inj hlast
    rw [hstuck] at hstatus
    cases hstatus
  · rw [htask]
    decide +kernel

/-- A run whose block is recovered. -/
def recoveredRun : List Event :=
  [.arm (.caller (.operator "op")) budgetTask "f1" "s1" false 1000, .spawned "s1",
    .record firstFire,
    .write ranTask (.detectBlock .claude firstFire.run "s1" 1100 .usageLimited "limit reached"),
    .write blockedTask (.recoverAccount .claude ⟨1, "s1", 1100, .usageLimited, "limit reached"⟩ 1
      "s1" 5000)]

theorem block_runs_recovered :
    (recoveredRun.foldl System.step (.start budgetTask)).task.BlockNamesRun :=
  (@System.block_runs budgetTask recoveredRun ⟨rfl, rfl, rfl, rfl, rfl, rfl⟩
    ⟨trivial, trivial, trivial, trivial, trivial, trivial⟩).1 (by decide +kernel)

end Continuous
