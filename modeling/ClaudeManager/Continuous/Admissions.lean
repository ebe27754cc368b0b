import Mathlib
import ClaudeManager.Continuous.Outcomes
import ClaudeManager.Continuous.Overlap

/-!
# What an admission stands for

While a fire has its guard, no writer holds the task or blocks its account, and the record that
the fire was decided on still tells whether the last run is running.

* `apply_unheld` — no hold and no block under a guard
* `apply_revision` — the admission revision never goes back, and goes up with a released hold
* `Task.Earlier`, `LevelInvariant`, `Stepped.level` — the records that were read, ordered by revision and counter
* `System.Admitted`, `Stepped.admitted` — what a fire in progress may rely on
-/

namespace Continuous

open Program

namespace Write

/-! ## Holds and blocks under a guard -/

/-- Neither held for recovery nor blocked. -/
def Unheld (t : Task) : Prop := t.recoveryHold = none ∧ t.accountBlocked = none

variable {t : Task}

/-- A guarded close whose sequel holds and blocks nothing. -/
theorem closeRun_unheld {decided : RunRecord → Bool} {status : RunStatus} {now : Nat}
    {after : RunRecord → Task → Task} (hafter : ∀ run t, Unheld t → Unheld (after run t))
    (h : Unheld t) : Unheld (closeRun decided status now after t) := by
  rcases closeRun_cases decided status now after t with heq | ⟨run, -, -, heq⟩
  · rw [heq]
    exact h
  · rw [heq]
    exact hafter run _ h

/-- Under a guard, no writer holds the task or blocks its account. -/
theorem apply_unheld (w : Write) (hguard : t.inFlight.isSome = true) (h : Unheld t) :
    Unheld (w.apply t) := by
  cases w with
  | reportDone uid now => exact closeRun_unheld (by exact fun _ _ h => ⟨h.1, rfl⟩) h
  | forceDone seq now => exact closeRun_unheld (by exact fun _ _ h => ⟨h.1, rfl⟩) h
  | exit uid terminal now =>
    show Unheld (closeContinuousRunForExit uid terminal now t)
    unfold closeContinuousRunForExit
    split
    · exact h
    · refine closeRun_unheld (fun _ t h => ?_) h
      split <;> exact ⟨h.1, rfl⟩
  | orphan found now => exact ⟨h.1, rfl⟩
  | sweep found now =>
    show Unheld (sweepRun found.seq now t)
    unfold sweepRun
    split
    · split
      · exact ⟨h.1, rfl⟩
      · exact h
    · exact h
  | escalate cause read => exact h
  | markUnstuck uid now => exact h
  | restart uid => exact h
  | abandonInvestigator uid => exact h
  | spawnInvestigator uid now => exact h
  | closeWedged engine seq uid now =>
    show Unheld (closeWedgedRun engine seq uid now t)
    unfold closeWedgedRun
    rw [if_pos (by rw [hguard, Bool.or_true, Bool.true_or])]
    exact h
  | poolUnavailable read uid now detail capacity =>
    show Unheld (Continuous.poolUnavailable read uid now detail capacity t)
    unfold Continuous.poolUnavailable
    rw [if_pos (by rw [hguard, Bool.or_true, Bool.true_or])]
    exact h
  | detectBlock engine read uid now kind banner =>
    show Unheld (detectAccountBlock engine read uid now kind banner t)
    unfold detectAccountBlock
    rw [if_neg]
    · exact h
    · rw [Bool.and_eq_true, Option.isNone_iff_eq_none]
      intro hcond
      rw [hcond.2] at hguard
      cases hguard
  | recoverAccount engine block seq uid now =>
    show Unheld (recoverAccountBlock seq uid now t)
    unfold recoverAccountBlock
    split
    · exact closeRun_unheld (by exact fun _ _ h => ⟨h.1, rfl⟩) h
    · exact h
  | reconcile record => exact h
  | saveRecovery progress => exact h
  | releaseRecovery progress now =>
    show Unheld (Continuous.releaseRecovery progress now t)
    unfold Continuous.releaseRecovery
    split
    · exact h
    · exact ⟨rfl, rfl⟩
  | releaseHold hold now =>
    show Unheld (releaseCapacityHold hold now t)
    unfold releaseCapacityHold
    split
    · unfold skipPeriod
      split <;> exact ⟨rfl, h.2⟩
    · exact h
  | restoreHold hold now =>
    show Unheld (restoreCapacityHold hold now t)
    unfold restoreCapacityHold
    rw [if_pos (by rw [hguard, Bool.or_true])]
    exact h
  | drain requestId now =>
    show Unheld (requestDrain requestId now t)
    unfold requestDrain
    dsimp only
    split <;> exact h
  | pause paused expectedDrain expectedRevision =>
    show Unheld (pauseTask paused expectedDrain expectedRevision t)
    unfold pauseTask
    split_ifs <;> first | exact h | (dsimp only; split_ifs <;> exact h)
  | advance outcome now =>
    show Unheld (advanceAfterFire outcome now t)
    unfold advanceAfterFire
    split <;> exact h
  | restore => exact h

/-! ## The admission revision -/

/-- The revision is as it was, or has been bumped. -/
def Revised (t t' : Task) : Prop :=
  t'.admissionRevision = t.admissionRevision ∨
    t'.admissionRevision = saturatingAdd64 t.admissionRevision 1

theorem closeRun_revised {decided : RunRecord → Bool} {status : RunStatus} {now : Nat}
    {after : RunRecord → Task → Task} (hafter : ∀ run t, Revised t (after run t)) (t : Task) :
    Revised t (closeRun decided status now after t) := by
  rcases closeRun_cases decided status now after t with heq | ⟨run, -, -, heq⟩
  · exact .inl (by rw [heq])
  · rw [heq]
    exact hafter run _

theorem skipPeriod_revision (now : Nat) (t : Task) :
    (skipPeriod now t).admissionRevision = t.admissionRevision := by
  unfold skipPeriod
  split <;> rfl

/-- No write takes the revision back. -/
theorem apply_revised (w : Write) (t : Task) : Revised t (w.apply t) := by
  cases w with
  | reportDone uid now => exact closeRun_revised (by exact fun _ _ => .inl rfl) t
  | forceDone seq now => exact closeRun_revised (by exact fun _ _ => .inl rfl) t
  | exit uid terminal now =>
    show Revised t (closeContinuousRunForExit uid terminal now t)
    unfold closeContinuousRunForExit
    split
    · exact .inl rfl
    · refine closeRun_revised (fun _ t => ?_) t
      split <;> exact .inl rfl
  | orphan found now => exact .inl rfl
  | sweep found now =>
    show Revised t (sweepRun found.seq now t)
    unfold sweepRun
    split
    · split <;> exact .inl rfl
    · exact .inl rfl
  | escalate cause read => exact .inl rfl
  | markUnstuck uid now => exact .inl rfl
  | restart uid => exact .inl rfl
  | abandonInvestigator uid => exact .inl rfl
  | spawnInvestigator uid now => exact .inl rfl
  | closeWedged engine seq uid now =>
    show Revised t (closeWedgedRun engine seq uid now t)
    unfold closeWedgedRun
    split
    · exact .inl rfl
    · refine closeRun_revised (fun _ t => ?_) t
      dsimp only
      split
      · exact .inr rfl
      · exact .inl rfl
  | poolUnavailable read uid now detail capacity =>
    show Revised t (Continuous.poolUnavailable read uid now detail capacity t)
    unfold Continuous.poolUnavailable
    split
    · exact .inl rfl
    · exact closeRun_revised (by exact fun _ _ => .inr rfl) t
  | detectBlock engine read uid now kind banner =>
    show Revised t (detectAccountBlock engine read uid now kind banner t)
    unfold detectAccountBlock
    split <;> exact .inl rfl
  | recoverAccount engine block seq uid now =>
    show Revised t (recoverAccountBlock seq uid now t)
    unfold recoverAccountBlock
    split
    · exact closeRun_revised (by exact fun _ _ => .inl rfl) t
    · exact .inl rfl
  | reconcile record => exact .inl rfl
  | saveRecovery progress => exact .inl rfl
  | releaseRecovery progress now =>
    show Revised t (Continuous.releaseRecovery progress now t)
    unfold Continuous.releaseRecovery
    split
    · exact .inl rfl
    · exact .inr rfl
  | releaseHold hold now =>
    show Revised t (releaseCapacityHold hold now t)
    unfold releaseCapacityHold
    split
    · refine .inr ?_
      show saturatingAdd64 (skipPeriod now _).admissionRevision 1 = _
      rw [skipPeriod_revision]
      rfl
    · exact .inl rfl
  | restoreHold hold now =>
    show Revised t (restoreCapacityHold hold now t)
    unfold restoreCapacityHold
    split
    · exact .inl rfl
    · exact closeRun_revised (by exact fun _ _ => .inr rfl) t
  | drain requestId now =>
    show Revised t (requestDrain requestId now t)
    unfold requestDrain
    dsimp only
    split
    · exact .inl rfl
    · exact .inr rfl
  | pause paused expectedDrain expectedRevision =>
    show Revised t (pauseTask paused expectedDrain expectedRevision t)
    unfold pauseTask
    split_ifs <;> first | exact .inl rfl |
      (dsimp only; split_ifs <;> first | exact .inl rfl | exact .inr rfl)
  | advance outcome now =>
    show Revised t (advanceAfterFire outcome now t)
    unfold advanceAfterFire
    split <;> exact .inl rfl
  | restore => exact .inl rfl

/-- The revision goes up, until it has reached its maximum. -/
theorem apply_revision (w : Write) (t : Task) (h : t.admissionRevision + 1 < 2 ^ 64) :
    t.admissionRevision ≤ (w.apply t).admissionRevision := by
  rcases apply_revised w t with heq | heq
  · exact heq.ge
  · rw [heq]
    show t.admissionRevision ≤ min (t.admissionRevision + 1) (2 ^ 64 - 1)
    omega

/-- A hold that is released takes the revision up. -/
theorem releaseHold_revision {hold : RecoveryHold} {now : Nat}
    (h : t.admissionRevision + 1 < 2 ^ 64) :
    releaseCapacityHold hold now t = t ∨
      t.admissionRevision < (releaseCapacityHold hold now t).admissionRevision := by
  unfold releaseCapacityHold
  split
  · refine .inr ?_
    show t.admissionRevision < saturatingAdd64 (skipPeriod now _).admissionRevision 1
    rw [skipPeriod_revision]
    show t.admissionRevision < min (t.admissionRevision + 1) (2 ^ 64 - 1)
    omega
  · exact .inl rfl

end Write

/-! ## Earlier records -/

/-- An earlier record of the same admission and counter tells whether the run is running. -/
structure Task.Earlier (t current : Task) : Prop where
  revision : t.admissionRevision ≤ current.admissionRevision
  count : t.runCount ≤ current.runCount
  running : t.admissionRevision = current.admissionRevision → t.runCount = current.runCount →
    current.running = true → t.running = true

theorem Task.Earlier.refl (t : Task) : t.Earlier t := ⟨le_refl _, le_refl _, fun _ _ h => h⟩

theorem Task.Earlier.trans {t u v : Task} (htu : t.Earlier u) (huv : u.Earlier v) : t.Earlier v where
  revision := htu.revision.trans huv.revision
  count := htu.count.trans huv.count
  running := by
    intro hrev hcount hrun
    have h₁ := htu.revision
    have h₂ := huv.revision
    have h₃ := htu.count
    have h₄ := huv.count
    exact htu.running (by omega) (by omega) (huv.running (by omega) (by omega) hrun)

/-- A write that leaves the counters below their maximum leaves an earlier record behind. -/
theorem Write.apply_earlier (w : Write) (t : Task) (h : t.admissionRevision + 1 < 2 ^ 64) :
    t.Earlier (w.apply t) where
  revision := w.apply_revision t h
  count := (w.apply_runCount t).ge
  running := by
    intro hrev _ hrun
    by_contra hend
    rcases System.apply_running w t (Bool.eq_false_iff.mpr hend) with hnot | ⟨-, hold, now, rfl⟩
    · rw [hnot] at hrun
      cases hrun
    · rcases @Write.releaseHold_revision t hold now h with hsame | hup
      · -- nothing has been released
        rw [show (Write.releaseHold hold now).apply t = releaseCapacityHold hold now t from rfl,
          hsame] at hrun
        exact hend hrun
      · have heq : t.admissionRevision = (releaseCapacityHold hold now t).admissionRevision := hrev
        omega

/-- The last run has the number of the counter. -/
def Task.Counted (t : Task) : Prop := ∀ run, t.lastRun = some run → run.seq = t.runCount

theorem Write.apply_counted (w : Write) {t : Task} (h : t.Counted) : (w.apply t).Counted := by
  intro run' hrun'
  obtain ⟨run, hrun, hseq, -⟩ := System.apply_sameRun w t run' hrun'
  rw [hseq, w.apply_runCount]
  exact h run hrun

/-- An admission finds the revision that the fire had read. -/
theorem arm_revision {snapshot t t' : Task} {fireToken sessionUid : String} {startedAt : Nat}
    (h : armContinuousFire snapshot fireToken sessionUid startedAt t = .ok t') :
    t.admissionRevision = snapshot.admissionRevision := by
  unfold armContinuousFire at h
  split at h
  · cases h
  split at h
  · cases h
  split at h
  · cases h
  next hstale =>
  push Not at hstale
  exact hstale.1

/-- The steps of the task that no fire takes. -/
def Event.aside : Event → Bool
  | .tick | .judge .. | .judgeStartup _ | .write .. | .delivered | .spawned _ | .died _ => true
  | .arm .. | .cleanUp _ | .record _ | .lose _ | .crash => false

/-- A fire asks for its admission. -/
def Event.admits : Event → Bool
  | .arm .. => true
  | _ => false

namespace System

variable {s s' : System} {e : Event}

/-- The counters stay below their maximum. -/
def BelowMaximum (s : System) : Event → Prop
  | .write _ _ => s.task.admissionRevision + 1 < 2 ^ 64
  | .record _ => s.task.runCount + 1 < 2 ^ 32
  | _ => True

/-- The records that were read are earlier ones, and the fires have the next number. -/
structure LevelInvariant (s : System) : Prop where
  synced : s.Synced
  exclusive : s.lease.Exclusive
  current : s.task ∈ s.seen
  counted : ∀ t ∈ s.seen, t.Counted
  earlier : ∀ t ∈ s.seen, t.Earlier s.task
  fires : ∀ f ∈ s.fires, f.seq = s.task.runCount + 1

/-- The one fire in progress has the guard. -/
theorem LevelInvariant.guard_of_mem (h : s.LevelInvariant) {f : Fire} (hf : f ∈ s.fires) :
    s.fires = [f] ∧ s.task.inFlight.isSome = true := by
  obtain ⟨hone, hheld⟩ := h.exclusive.of_mem hf
  have hguard := h.synced
  rw [Synced, show s.owner = some f from hheld, Option.map_some] at hguard
  exact ⟨hone, by rw [hguard, Option.isSome_some]⟩

/-- A new record, after which the old one is an earlier one. -/
theorem LevelInvariant.grown (h : s.LevelInvariant) {t : Task} (ht : s.task.Earlier t)
    (hcounted : t.Counted) : ∀ u ∈ t :: s.seen, u.Earlier t ∧ u.Counted := by
  intro u hu
  rcases List.mem_cons.mp hu with rfl | hmem
  · exact ⟨.refl u, hcounted⟩
  · exact ⟨(h.earlier u hmem).trans ht, h.counted u hmem⟩

/-- What is on record after a step. -/
theorem Stepped.records (hstep : Stepped s e s') (h : s.LevelInvariant) (hmax : s.BelowMaximum e) :
    s'.task ∈ s'.seen ∧ ∀ u ∈ s'.seen, u.Earlier s'.task ∧ u.Counted := by
  have hsame : ∀ u ∈ s.seen, u.Earlier s.task ∧ u.Counted :=
    fun u hu => ⟨h.earlier u hu, h.counted u hu⟩
  cases hstep with
  | arm origin snapshot fireToken minted alive now t _ may armed eq =>
    obtain ⟨tick, heq⟩ := letIn_or origin s
      (s.newFire origin snapshot fireToken minted alive now) t
    have ht := (arm_ok armed).1
    rw [eq, heq]
    refine ⟨List.mem_cons_self, h.grown ?_ ?_⟩
    · rw [ht]
      exact ⟨le_refl _, le_refl _, fun _ _ hrun => hrun⟩
    · rw [ht]
      exact h.counted s.task h.current
  | cleanUp f mem =>
    refine ⟨List.mem_cons_self, h.grown ?_ ?_⟩
    · exact ⟨le_refl _, le_refl _, fun _ _ hrun => hrun⟩
    · exact h.counted s.task h.current
  | record f mem =>
    have hcount := recordFire_runCount (f := f) hmax
    refine ⟨List.mem_cons_self, h.grown ⟨le_refl _, ?_, fun _ heq => ?_⟩ ?_⟩
    · rw [hcount]
      exact Nat.le_succ _
    · rw [hcount] at heq
      omega
    · intro run hrun
      cases hrun
      rw [hcount]
      exact h.fires f mem
  | write snapshot w may =>
    rw [afterWrite_seen, afterWrite_task]
    exact ⟨List.mem_cons_self,
      h.grown (w.apply_earlier s.task hmax) (w.apply_counted (h.counted _ h.current))⟩
  | crash =>
    refine ⟨List.mem_cons_self, fun u hu => ?_⟩
    rw [List.mem_singleton.mp hu]
    exact ⟨.refl _, h.counted _ h.current⟩
  | _ => exact ⟨h.current, hsame⟩

/-- A step takes the fires in progress along with the counter. -/
theorem Stepped.firesCounted (hstep : Stepped s e s') (h : s.LevelInvariant) :
    ∀ f ∈ s'.fires, f.seq = s'.task.runCount + 1 := by
  cases hstep with
  | arm origin snapshot fireToken minted alive now t _ may armed eq =>
    obtain ⟨ht, hfree, -, -, -, hcount, -⟩ := arm_ok armed
    have hnone : s.fires = [] := by
      rw [h.synced, Option.map_eq_none_iff] at hfree
      exact h.exclusive.working_nil hfree
    obtain ⟨tick, heq⟩ := letIn_or origin s
      (s.newFire origin snapshot fireToken minted alive now) t
    intro f hf
    rw [eq, heq] at hf ⊢
    have hnew : f = s.newFire origin snapshot fireToken minted alive now := by
      rw [show ({ s.letIn _ t with tick } : System).fires = _ :: s.fires from rfl, hnone,
        List.mem_singleton] at hf
      exact hf
    show f.seq = t.runCount + 1
    rw [hnew, ht]
    show snapshot.runCount + 1 = s.task.runCount + 1
    rw [hcount]
  | record f mem =>
    intro g hg
    rw [(h.guard_of_mem mem).1, List.erase_cons_head] at hg
    cases hg
  | cleanUp f mem => exact fun g hg => h.fires g (List.mem_of_mem_erase hg)
  | lose f mem => exact fun g hg => h.fires g (List.mem_of_mem_erase hg)
  | write snapshot w may =>
    rw [afterWrite_fires, afterWrite_task, w.apply_runCount]
    exact h.fires
  | crash => exact fun g hg => by cases hg
  | _ => exact h.fires

/-- A step in order keeps the records in order. -/
theorem Stepped.level (hstep : Stepped s e s') (h : s.LevelInvariant)
    (hcalm : s.NoFireUnderWithdrawal e) (hmax : s.BelowMaximum e) : s'.LevelInvariant where
  synced := hstep.synced h.synced
  exclusive := h.exclusive.step (hstep.lease h.synced hcalm)
  current := (hstep.records h hmax).1
  counted := fun t ht => ((hstep.records h hmax).2 t ht).2
  earlier := fun t ht => ((hstep.records h hmax).2 t ht).1
  fires := hstep.firesCounted h

theorem LevelInvariant.step (h : s.LevelInvariant) (e : Event) (hcalm : s.NoFireUnderWithdrawal e)
    (hmax : s.BelowMaximum e) : (s.step e).LevelInvariant :=
  (s.stepped e).level h hcalm hmax

theorem start_level {t : Task} (ht : t.Unfired) : (start t).LevelInvariant where
  synced := ht.guard
  exclusive := .inl rfl
  current := List.mem_cons_self
  counted := by
    intro u hu run hrun
    rw [List.mem_singleton.mp hu, ht.run] at hrun
    cases hrun
  earlier := by
    intro u hu
    rw [List.mem_singleton.mp hu]
    exact .refl t
  fires := fun f hf => by cases hf

/-! ## What a fire in progress may rely on -/

/-- A fire that was decided on `snapshot` is in progress: nothing holds the task, and a running
run was running then. -/
structure Admitted (s : System) (snapshot : Task) (f : Fire) : Prop where
  mem : f ∈ s.fires
  unheld : Write.Unheld s.task
  run : ∀ run, s.task.lastRun = some run → run.status = .running →
    ∃ read, snapshot.lastRun = some read ∧ read.status = .running ∧ read.seq = run.seq

/-- An admission finds what the fire had read. -/
theorem Stepped.admits {origin : Origin} {snapshot : Task} {fireToken minted : String}
    {alive : Bool} {now : Nat}
    (hstep : Stepped s (.arm origin snapshot fireToken minted alive now) s')
    (h : s.LevelInvariant) (hnew : s'.nextFire ≠ s.nextFire) :
    s'.nextFire = s.nextFire + 1 ∧ s.fires = [] ∧
      s'.Admitted snapshot (s.newFire origin snapshot fireToken minted alive now) := by
  cases hstep with
  | quiet _ live => exact absurd rfl hnew
  | arm _ _ _ _ _ _ t _ may armed eq =>
    obtain ⟨ht, hfree, hblock, hhold, -, hcount, -⟩ := arm_ok armed
    have hnone : s.fires = [] := by
      rw [h.synced, Option.map_eq_none_iff] at hfree
      exact h.exclusive.working_nil hfree
    obtain ⟨tick, heq⟩ := letIn_or origin s
      (s.newFire origin snapshot fireToken minted alive now) t
    rw [eq, heq]
    refine ⟨rfl, hnone, ⟨List.mem_cons_self, ?_, fun run hrun hrunning => ?_⟩⟩
    · show Write.Unheld t
      rw [ht]
      exact ⟨hhold, hblock⟩
    · have hlast : s.task.lastRun = some run := by
        rw [show ({ s.letIn _ t with tick } : System).task = t from rfl, ht] at hrun
        exact hrun
      have hseen : snapshot ∈ s.seen := by
        simp only [mayAsk, Bool.and_eq_true, decide_eq_true_eq] at may
        exact may.1.1.1
      have hread : snapshot.running = true :=
        (h.earlier snapshot hseen).running (arm_revision armed).symm hcount.symm
          ((running_iff hlast).mpr hrunning)
      rw [Task.running, decide_eq_true_eq, Task.lastStatus, Option.map_eq_some_iff] at hread
      obtain ⟨read, hread, hstatus⟩ := hread
      refine ⟨read, hread, hstatus, ?_⟩
      rw [h.counted snapshot hseen read hread, h.counted _ h.current run hlast, hcount]

/-- A write under a guard leaves a fire in progress what it relies on. -/
theorem Admitted.write {snapshot : Task} {f : Fire} (h : s.LevelInvariant)
    (hf : s.Admitted snapshot f) (w : Write) : (s.afterWrite w).Admitted snapshot f where
  mem := by
    rw [afterWrite_fires]
    exact hf.mem
  unheld := by
    rw [afterWrite_task]
    exact w.apply_unheld (h.guard_of_mem hf.mem).2 hf.unheld
  run := by
    rw [afterWrite_task]
    intro run' hrun' hrunning'
    obtain ⟨run, hrun, hseq, -⟩ := apply_sameRun w s.task run' hrun'
    have hrunning : s.task.running = true := by
      by_contra hend
      rcases apply_running w s.task (Bool.eq_false_iff.mpr hend) with hnot | ⟨hfree, -⟩
      · rw [(running_iff hrun').mpr hrunning'] at hnot
        cases hnot
      · have hguard := (h.guard_of_mem hf.mem).2
        rw [hfree] at hguard
        cases hguard
    rw [hseq]
    exact hf.run run hrun ((running_iff hrun).mp hrunning)

/-- A step that no fire takes leaves the fires in progress what they rely on. -/
theorem Stepped.admitted (hstep : Stepped s e s') (h : s.LevelInvariant) {snapshot : Task}
    {f : Fire} (hf : s.Admitted snapshot f) (haside : e.aside = true) :
    s'.Admitted snapshot f := by
  cases hstep with
  | write snapshot' w may => exact hf.write h w
  | arm origin snapshot fireToken minted alive now t _ may armed eq => cases haside
  | cleanUp f mem => cases haside
  | record f mem => cases haside
  | lose f mem => cases haside
  | crash => cases haside
  | quiet _ live => exact ⟨hf.mem, hf.unheld, hf.run⟩
  | tick => exact ⟨hf.mem, hf.unheld, hf.run⟩
  | judge snapshot' now read => exact ⟨hf.mem, hf.unheld, hf.run⟩
  | judgeStartup snapshot' read => exact ⟨hf.mem, hf.unheld, hf.run⟩
  | delivered => exact ⟨hf.mem, hf.unheld, hf.run⟩

/-- A step that no fire takes lets none in, and ends none. -/
theorem Stepped.aside (hstep : Stepped s e s') (haside : e.aside = true) :
    s'.fires = s.fires ∧ s'.nextFire = s.nextFire := by
  cases hstep with
  | write snapshot w may =>
    obtain ⟨tick, reopened, heq⟩ := s.afterWrite_eq w
    rw [heq]
    exact ⟨rfl, rfl⟩
  | arm origin snapshot fireToken minted alive now t _ may armed eq => cases haside
  | cleanUp f mem => cases haside
  | record f mem => cases haside
  | lose f mem => cases haside
  | crash => cases haside
  | quiet _ live => exact ⟨rfl, rfl⟩
  | tick => exact ⟨rfl, rfl⟩
  | judge snapshot' now read => exact ⟨rfl, rfl⟩
  | judgeStartup snapshot' read => exact ⟨rfl, rfl⟩
  | delivered => exact ⟨rfl, rfl⟩

end System

end Continuous
