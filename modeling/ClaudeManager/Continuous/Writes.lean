import Mathlib
import ClaudeManager.Continuous.Holds

/-!
# Writes of the record

The writers of `Closings` and `Holds` as one type, with what each had to find on the record it
read, and all that they can do to the run, the guard and the counter of the record they change.

* `Write.decidedOn` — what the writer checked on the record it read
* `Write.About` — the run the writer decided about
* `Write.Changes`, `apply_moves` — what a write does to the last run
* `apply_inFlight`, `apply_runCount` — what it does to the guard and the counter
-/

namespace Continuous

/-- A write of the record, with what it was decided on. -/
inductive Write where
  | reportDone (callerUid : String) (now : Nat)
  | forceDone (seq now : Nat)
  | exit (uid : String) (terminal : ExitStatus) (now : Nat)
  | orphan (found : Stranded) (now : Nat)
  | sweep (found : Stranded) (now : Nat)
  | escalate (cause : Escalation) (read : Option RunRecord)
  | markUnstuck (callerUid : String) (now : Nat)
  | restart (callerUid : String)
  | abandonInvestigator (uid : String)
  | spawnInvestigator (uid : String) (now : Nat)
  | closeWedged (engine : Engine) (seq : Nat) (uid : String) (now : Nat)
  | poolUnavailable (read : RunRecord) (uid : String) (now : Nat) (detail : String)
      (capacity : Bool)
  | detectBlock (engine : Engine) (read : RunRecord) (uid : String) (now : Nat)
      (kind : AccountBlockKind) (banner : String)
  | recoverAccount (engine : Engine) (block : AccountBlockRecord) (seq : Nat) (uid : String)
      (now : Nat)
  | reconcile (record : Reconciliation)
  | saveRecovery (progress : RecoveryProgress)
  | releaseRecovery (progress : RecoveryProgress) (now : Nat)
  | releaseHold (hold : RecoveryHold) (now : Nat)
  | restoreHold (hold : RecoveryHold) (now : Nat)
  | drain (requestId : String) (now : Nat)
  | pause (paused : Bool) (expectedDrain : Option String) (expectedRevision : Option Nat)
  | advance (outcome : FireOutcome) (now : Nat)
  | restore

namespace Write

/-- The change a writer makes to the record under the task lock. -/
def apply : Write → Task → Task
  | .reportDone callerUid now => Continuous.reportDone callerUid now
  | .forceDone seq now => Continuous.forceDone seq now
  | .exit uid terminal now => closeContinuousRunForExit uid terminal now
  | .orphan _ now => orphanRun now
  | .sweep found now => sweepRun found.seq now
  | .escalate _ _ => escalateStuck
  | .markUnstuck _ now => Continuous.markUnstuck now
  | .restart _ => clearInvestigator
  | .abandonInvestigator _ => abandonTimedOutInvestigator
  | .spawnInvestigator uid now => Continuous.spawnInvestigator uid now
  | .closeWedged engine seq uid now => closeWedgedRun engine seq uid now
  | .poolUnavailable read uid now detail capacity =>
    Continuous.poolUnavailable read uid now detail capacity
  | .detectBlock engine read uid now kind banner =>
    detectAccountBlock engine read uid now kind banner
  | .recoverAccount _ _ seq uid now => recoverAccountBlock seq uid now
  | .reconcile record => recordReconciliation record
  | .saveRecovery progress => Continuous.saveRecovery progress
  | .releaseRecovery progress now => Continuous.releaseRecovery progress now
  | .releaseHold hold now => releaseCapacityHold hold now
  | .restoreHold hold now => restoreCapacityHold hold now
  | .drain requestId now => requestDrain requestId now
  | .pause paused expectedDrain expectedRevision => pauseTask paused expectedDrain expectedRevision
  | .advance outcome now => advanceAfterFire outcome now
  | .restore => clearInFlight

/-- What the writer checked on the record it read. -/
def decidedOn (tk : Task) : Write → Bool
  | .escalate cause read => cause.decides tk && decide (read = tk.lastRun)
  | .markUnstuck callerUid _ | .restart callerUid => decide (tk.investigatorUid = some callerUid)
  | .abandonInvestigator uid => decide (tk.investigatorUid = some uid)
  | .closeWedged engine seq uid _ =>
    decide (tk.engine = engine) && tk.lastRun.any fun run => decide (run.seq = seq) && run.runsOn uid
  | .poolUnavailable read uid _ _ _ => decide (tk.lastRun = some read) && read.runsOn uid
  | .detectBlock engine read uid _ _ _ =>
    decide (tk.engine = engine) && decide (tk.lastRun = some read) && read.runsOn uid
  | .recoverAccount engine block seq uid _ => mayRecoverAccount tk engine block seq uid
  | .saveRecovery progress | .releaseRecovery progress _ =>
    mayRecoverCodex tk && (currentRecovery tk progress.retiredUids).any fun started =>
      decide (progress = { started with replayed := progress.replayed })
  | .releaseHold hold now => mayReleaseCapacityHold tk hold now
  | _ => true

/-- The run the writer decided to close. -/
def About : Write → RunRecord → Prop
  | .reportDone uid _, run | .exit uid _ _, run => run.sessionUid = some uid
  | .forceDone seq _, run => run.seq = seq
  | .orphan found _, run | .sweep found _, run =>
    found.guard = none ∧ run.seq = found.seq ∧ run.sessionUid = found.sessionUid
  | .escalate _ read, run => ∃ r, read = some r ∧ run.seq = r.seq ∧ run.sessionUid = r.sessionUid
  | .closeWedged _ seq uid _, run | .recoverAccount _ _ seq uid _, run =>
    run.seq = seq ∧ run.sessionUid = some uid
  | .poolUnavailable read uid _ _ _, run => run.seq = read.seq ∧ run.sessionUid = some uid
  | .releaseRecovery progress _, run =>
    run.seq = progress.runSeq ∧ run.sessionUid = some progress.sessionUid
  | .restoreHold hold _, run => run.seq = hold.runSeq ∧ run.sessionUid = some hold.sessionUid
  | _, _ => False

/-- What a write does to the last run it finds. -/
inductive Changes (w : Write) (t : Task) (run : RunRecord) : RunRecord → Prop
  | rest (startedAt : Nat) : Changes w t run { run with startedAt }
  | close (status : RunStatus) (now : Nat) (running : run.status = .running)
      (closed : status.closed = true) (about : w.About run) :
      Changes w t run { run with status, finishedAt := some now }
  | orphan (found : Stranded) (now : Nat) (is : w = .orphan found now) :
      Changes w t run
        { run with status := .orphaned, finishedAt := some (run.finishedAt.getD now) }
  | sweep (found : Stranded) (now : Nat) (is : w = .sweep found now)
      (running : run.status = .running) (seq : run.seq = found.seq) :
      Changes w t run
        { run with status := .orphaned, finishedAt := some (run.finishedAt.getD now) }
  | stuck (cause : Escalation) (read : Option RunRecord) (is : w = .escalate cause read) :
      Changes w t run { run with status := .stuck }
  | reopen (hold : RecoveryHold) (now : Nat) (is : w = .releaseHold hold now)
      (held : t.recoveryHold = some hold) (identified : hold.identifies .failed run = true)
      (free : t.inFlight = none) :
      Changes w t run { run with status := .running, finishedAt := none }
  | recover (progress : RecoveryProgress) (now : Nat) (is : w = .releaseRecovery progress now)
      (about : w.About run) : Changes w t run { run with status := .failed, finishedAt := some now }

/-- The last run is as it was, or the write has changed it. -/
def Moves (w : Write) (t t' : Task) : Prop :=
  t'.lastRun = t.lastRun ∨
    ∃ run run', t.lastRun = some run ∧ t'.lastRun = some run' ∧ w.Changes t run run'

/-! ## The last run -/

variable {w : Write} {t : Task}

/-- A guarded close whose sequel leaves the last run alone. -/
theorem closeRun_lastRun {decided : RunRecord → Bool} {status : RunStatus} {now : Nat}
    {after : RunRecord → Task → Task} (hafter : ∀ run t, (after run t).lastRun = t.lastRun)
    (t : Task) :
    (closeRun decided status now after t).lastRun = t.lastRun ∨
      ∃ run, t.lastRun = some run ∧ decided run = true ∧
        (closeRun decided status now after t).lastRun =
          some { run with status, finishedAt := some now } := by
  rcases closeRun_cases decided status now after t with h | ⟨run, hrun, hdec, h⟩
  · exact .inl (by rw [h])
  · exact .inr ⟨run, hrun, hdec, by rw [h, hafter]⟩

/-- What a guarded close leaves alone, when its sequel does. -/
theorem closeRun_field {α : Type} (π : Task → α) (hset : ∀ t r, π { t with lastRun := r } = π t)
    {decided : RunRecord → Bool} {status : RunStatus} {now : Nat}
    {after : RunRecord → Task → Task} (hafter : ∀ run t, π (after run t) = π t) (t : Task) :
    π (closeRun decided status now after t) = π t := by
  rcases closeRun_cases decided status now after t with h | ⟨run, -, -, h⟩
  · rw [h]
  · rw [h, hafter, hset]

/-- A guarded close changes the last run only as its writer says. -/
theorem closeRun_changes {decided : RunRecord → Bool} {status : RunStatus} {now : Nat}
    {after : RunRecord → Task → Task} (hafter : ∀ run t, (after run t).lastRun = t.lastRun)
    (hclosed : status.closed = true)
    (hdec : ∀ run, decided run = true → run.status = .running ∧ w.About run) (t : Task) :
    w.Moves t (closeRun decided status now after t) := by
  rcases @closeRun_lastRun decided status now _ hafter t with
    h | ⟨run, hrun, hd, h⟩
  · exact .inl h
  · exact .inr ⟨run, _, hrun, h, .close status now (hdec run hd).1 hclosed (hdec run hd).2⟩

/-- What a change of the last run in place is to the record. -/
theorem mapLastRun_changes {f : RunRecord → RunRecord} {t' : Task}
    (h : t'.lastRun = t.lastRun.map f) (hf : ∀ run, t.lastRun = some run → w.Changes t run (f run)) :
    w.Moves t t' := by
  cases hrun : t.lastRun with
  | none => exact .inl (by rw [h, hrun, Option.map_none])
  | some run =>
    rw [hrun, Option.map_some] at h
    exact .inr ⟨run, f run, hrun, h, hf run hrun⟩

theorem runsOn_iff {uid : String} {run : RunRecord} :
    run.runsOn uid = true ↔ run.sessionUid = some uid ∧ run.status = .running :=
  decide_eq_true_iff

theorem identifies_iff {hold : RecoveryHold} {status : RunStatus} {run : RunRecord} :
    hold.identifies status run = true ↔ run.seq = hold.runSeq ∧ run.fireToken = hold.fireToken ∧
      run.sessionUid = some hold.sessionUid ∧ run.status = status :=
  decide_eq_true_iff

/-- A run the writer finds by its session. -/
theorem runsOn_about {uid : String} (h : ∀ run, run.sessionUid = some uid → w.About run)
    (run : RunRecord) (hdec : run.runsOn uid = true) : run.status = .running ∧ w.About run :=
  ⟨(runsOn_iff.mp hdec).2, h run (runsOn_iff.mp hdec).1⟩

theorem ExitStatus.closed (terminal : ExitStatus) : terminal.status.closed = true := by
  cases terminal <;> rfl

theorem sweepRun_changes (found : Stranded) (now : Nat) (t : Task) :
    (Write.sweep found now).Moves t (sweepRun found.seq now t) := by
  unfold sweepRun
  split
  · next run hrun =>
    split
    · next hcond => exact .inr ⟨run, _, hrun, rfl, .sweep found now rfl hcond.2 hcond.1⟩
    · exact .inl rfl
  · exact .inl rfl

theorem releaseRecovery_changes (progress : RecoveryProgress) (now : Nat) (t : Task) :
    (Write.releaseRecovery progress now).Moves t (Continuous.releaseRecovery progress now t) := by
  unfold Continuous.releaseRecovery
  split
  · exact .inl rfl
  next hcond =>
  simp only [Bool.or_eq_true, not_or, decide_eq_true_eq, not_not] at hcond
  refine mapLastRun_changes (f := fun run => { run with status := .failed, finishedAt := some now })
    rfl fun run hrun => .recover progress now rfl ?_
  -- the binding says that the last run is the one the recovery was started for
  obtain ⟨bound, hbound, hseq, -, huid⟩ := progress.bound
  have hbinding : t.recoveryBinding.run = some bound := by rw [hcond.2, hbound]
  have hsame : run = bound := Option.some.inj (hrun.symm.trans hbinding)
  subst hsame
  exact ⟨hseq, huid⟩

theorem releaseHold_changes (hold : RecoveryHold) (now : Nat) (t : Task) :
    (Write.releaseHold hold now).Moves t (releaseCapacityHold hold now t) := by
  unfold releaseCapacityHold
  split
  · next hcond =>
    simp only [Bool.and_eq_true, decide_eq_true_eq] at hcond
    obtain ⟨⟨hheld, hquiet⟩, hany⟩ := hcond
    have hfree : t.inFlight = none := by
      simp only [quiescent, Bool.and_eq_true, Option.isNone_iff_eq_none] at hquiet
      exact hquiet.1.1.1.1.2
    refine mapLastRun_changes (f := fun run => { run with status := .running, finishedAt := none })
      ?_ fun run hrun => ?_
    · unfold skipPeriod
      split <;> rfl
    · rw [hrun, Option.any_some] at hany
      exact .reopen hold now rfl hheld hany hfree
  · exact .inl rfl

/-- All that a write can do to the last run. -/
theorem apply_moves (w : Write) (t : Task) : w.Moves t (w.apply t) := by
  cases w with
  | reportDone uid now =>
    apply closeRun_changes
    · exact fun _ _ => rfl
    · rfl
    · exact runsOn_about fun _ h => h
  | forceDone seq now =>
    apply closeRun_changes
    · exact fun _ _ => rfl
    · rfl
    · intro run hdec
      obtain ⟨hseq, hrunning⟩ := of_decide_eq_true hdec
      exact ⟨hrunning, hseq⟩
  | exit uid terminal now =>
    show Moves _ t (closeContinuousRunForExit uid terminal now t)
    unfold closeContinuousRunForExit
    split
    · exact .inl rfl
    · apply closeRun_changes
      · intro _ t
        split <;> rfl
      · exact ExitStatus.closed terminal
      · exact runsOn_about fun _ h => h
  | orphan found now =>
    exact mapLastRun_changes rfl fun run _ => .orphan found now rfl
  | sweep found now => exact sweepRun_changes found now t
  | escalate cause read => exact mapLastRun_changes rfl fun run _ => .stuck cause read rfl
  | markUnstuck uid now => exact mapLastRun_changes rfl fun run _ => .rest now
  | restart uid => exact .inl rfl
  | abandonInvestigator uid => exact .inl rfl
  | spawnInvestigator uid now => exact .inl rfl
  | closeWedged engine seq uid now =>
    show Moves _ t (closeWedgedRun engine seq uid now t)
    unfold closeWedgedRun
    split
    · exact .inl rfl
    · apply closeRun_changes
      · intro _ t
        dsimp only
        split <;> rfl
      · rfl
      · intro run hdec
        rw [Bool.and_eq_true, decide_eq_true_eq, runsOn_iff] at hdec
        exact ⟨hdec.2.2, hdec.1, hdec.2.1⟩
  | poolUnavailable read uid now detail capacity =>
    show Moves _ t (Continuous.poolUnavailable read uid now detail capacity t)
    unfold Continuous.poolUnavailable
    split
    · exact .inl rfl
    · apply closeRun_changes
      · exact fun _ _ => rfl
      · rfl
      · intro run hdec
        rw [RunRecord.isStill, Bool.and_eq_true, decide_eq_true_eq, runsOn_iff] at hdec
        exact ⟨hdec.2.2, hdec.1.1, hdec.2.1⟩
  | detectBlock engine read uid now kind banner =>
    show Moves _ t (detectAccountBlock engine read uid now kind banner t)
    unfold detectAccountBlock
    split <;> exact .inl rfl
  | recoverAccount engine block seq uid now =>
    show Moves _ t (recoverAccountBlock seq uid now t)
    unfold recoverAccountBlock
    split
    · apply closeRun_changes
      · exact fun _ _ => rfl
      · rfl
      · intro run hdec
        rw [Bool.and_eq_true, decide_eq_true_eq, runsOn_iff] at hdec
        exact ⟨hdec.2.2, hdec.1, hdec.2.1⟩
    · exact .inl rfl
  | reconcile record => exact .inl rfl
  | saveRecovery progress => exact .inl rfl
  | releaseRecovery progress now => exact releaseRecovery_changes progress now t
  | releaseHold hold now => exact releaseHold_changes hold now t
  | restoreHold hold now =>
    show Moves _ t (restoreCapacityHold hold now t)
    unfold restoreCapacityHold
    split
    · exact .inl rfl
    · apply closeRun_changes
      · exact fun _ _ => rfl
      · rfl
      · intro run hdec
        obtain ⟨hseq, -, huid, hrunning⟩ := identifies_iff.mp hdec
        exact ⟨hrunning, hseq, huid⟩
  | drain requestId now =>
    refine .inl ?_
    show (requestDrain requestId now t).lastRun = t.lastRun
    unfold requestDrain
    dsimp only
    split <;> rfl
  | pause paused expectedDrain expectedRevision =>
    refine .inl ?_
    show (pauseTask paused expectedDrain expectedRevision t).lastRun = t.lastRun
    unfold pauseTask
    split_ifs <;> first | rfl | (dsimp only; split_ifs <;> rfl)
  | advance outcome now =>
    refine .inl ?_
    show (advanceAfterFire outcome now t).lastRun = t.lastRun
    unfold advanceAfterFire
    split <;> rfl
  | restore => exact .inl rfl

/-! ## The guard and the counter -/

/-- The writers that withdraw a guard. -/
def withdraws : Write → Bool
  | .orphan .. | .sweep .. | .restore => true
  | _ => false

/-- What a fire in progress relies on. -/
def admitted (t : Task) : Nat × Option InFlight := (t.runCount, t.inFlight)

theorem closeRun_admitted {decided : RunRecord → Bool} {status : RunStatus} {now : Nat}
    {after : RunRecord → Task → Task} (hafter : ∀ run t, admitted (after run t) = admitted t)
    (t : Task) : admitted (closeRun decided status now after t) = admitted t :=
  closeRun_field admitted (fun _ _ => rfl) hafter t

theorem skipPeriod_admitted (now : Nat) (t : Task) : admitted (skipPeriod now t) = admitted t := by
  unfold skipPeriod
  split <;> rfl

/-- Every other writer leaves the guard and the counter alone. -/
theorem apply_admitted (w : Write) (t : Task) (hw : w.withdraws = false) :
    admitted (w.apply t) = admitted t := by
  cases w with
  | reportDone uid now => exact closeRun_admitted (by exact fun _ _ => rfl) t
  | forceDone seq now => exact closeRun_admitted (by exact fun _ _ => rfl) t
  | exit uid terminal now =>
    show admitted (closeContinuousRunForExit uid terminal now t) = _
    unfold closeContinuousRunForExit
    split
    · rfl
    · refine closeRun_admitted (fun _ t => ?_) t
      split <;> rfl
  | closeWedged engine seq uid now =>
    show admitted (closeWedgedRun engine seq uid now t) = _
    unfold closeWedgedRun
    split
    · rfl
    · refine closeRun_admitted (fun _ t => ?_) t
      dsimp only
      split <;> rfl
  | poolUnavailable read uid now detail capacity =>
    show admitted (Continuous.poolUnavailable read uid now detail capacity t) = _
    unfold Continuous.poolUnavailable
    split
    · rfl
    · exact closeRun_admitted (by exact fun _ _ => rfl) t
  | detectBlock engine read uid now kind banner =>
    show admitted (detectAccountBlock engine read uid now kind banner t) = _
    unfold detectAccountBlock
    split <;> rfl
  | recoverAccount engine block seq uid now =>
    show admitted (recoverAccountBlock seq uid now t) = _
    unfold recoverAccountBlock
    split
    · exact closeRun_admitted (by exact fun _ _ => rfl) t
    · rfl
  | releaseRecovery progress now =>
    show admitted (Continuous.releaseRecovery progress now t) = _
    unfold Continuous.releaseRecovery
    split <;> rfl
  | releaseHold hold now =>
    show admitted (releaseCapacityHold hold now t) = _
    unfold releaseCapacityHold
    split
    · exact skipPeriod_admitted now _
    · rfl
  | restoreHold hold now =>
    show admitted (restoreCapacityHold hold now t) = _
    unfold restoreCapacityHold
    split
    · rfl
    · exact closeRun_admitted (by exact fun _ _ => rfl) t
  | drain requestId now =>
    show admitted (requestDrain requestId now t) = _
    unfold requestDrain
    dsimp only
    split <;> rfl
  | pause paused expectedDrain expectedRevision =>
    show admitted (pauseTask paused expectedDrain expectedRevision t) = _
    unfold pauseTask
    split_ifs <;> first | rfl | (dsimp only; split_ifs <;> rfl)
  | advance outcome now =>
    show admitted (advanceAfterFire outcome now t) = _
    unfold advanceAfterFire
    split <;> rfl
  | orphan found now => cases hw
  | sweep found now => cases hw
  | restore => cases hw
  | escalate cause read => rfl
  | markUnstuck uid now => rfl
  | restart uid => rfl
  | abandonInvestigator uid => rfl
  | spawnInvestigator uid now => rfl
  | reconcile record => rfl
  | saveRecovery progress => rfl

/-- No write advances the counter. -/
theorem apply_runCount (w : Write) (t : Task) : (w.apply t).runCount = t.runCount := by
  by_cases hw : w.withdraws = true
  · cases w with
    | orphan found now => rfl
    | restore => rfl
    | sweep found now =>
      show (sweepRun found.seq now t).runCount = t.runCount
      unfold sweepRun
      split
      · split <;> rfl
      · rfl
    | _ => cases hw
  · exact congrArg Prod.fst (apply_admitted w t (Bool.eq_false_iff.mpr hw))

/-- A write leaves the guard alone, or withdraws it. -/
theorem apply_inFlight (w : Write) (t : Task) : (w.apply t).inFlight = t.inFlight ∨
    w.withdraws = true ∧ (w.apply t).inFlight = none := by
  by_cases hw : w.withdraws = true
  · refine .inr ⟨hw, ?_⟩
    cases w with
    | orphan found now => rfl
    | sweep found now => rfl
    | restore => rfl
    | _ => cases hw
  · exact .inl (congrArg Prod.snd (apply_admitted w t (Bool.eq_false_iff.mpr hw)))

end Write

end Continuous
