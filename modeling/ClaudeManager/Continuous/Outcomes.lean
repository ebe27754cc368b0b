import Mathlib
import ClaudeManager.Continuous.System

/-!
# Outcomes of runs

What a run came to is final and belongs to that run, as long as the writers that do not look
again at what they decided on find it unchanged.

* `Write.Changes.same`, `Write.Changes.outcome` — what a change of the last run keeps
* `Undisturbed` — the steps that find what was decided on
* `RunInvariant`, `Stepped.runs` — the fires, the counter and the records that were read agree
* `Final`, `Owned`, `GuardKept` — what a step leaves of outcomes and guards
* `outcome_runs` — all of this along every run
-/

namespace Continuous

open Program

/-! ## Changes of the last run -/

namespace Write

variable {w : Write} {t : Task} {run run' : RunRecord}

/-- A write never turns a run into another. -/
theorem Changes.same (h : w.Changes t run run') :
    run'.seq = run.seq ∧ run'.sessionUid = run.sessionUid := by
  cases h <;> exact ⟨rfl, rfl⟩

end Write

/-- What became of a run. -/
def RunRecord.outcome (run : RunRecord) : RunStatus × Option Nat := (run.status, run.finishedAt)

namespace System

variable {s s' : System} {e : Event}

/-! ## Steps that find what was decided on -/

/-- A withdrawal finds the guard it was decided on, and no fire in progress. -/
def FindsGuard (s : System) (found : Stranded) : Prop :=
  ∀ guard, s.task.inFlight = some guard → s.fires = [] ∧ found.guard = some guard

/-- The writers that do not check again find what they decided on. -/
def Undisturbed (s : System) : Event → Prop
  | .write _ (.orphan found _) => s.FindsGuard found ∧ ∀ run, s.task.lastRun = some run →
      (found.guard = none ∧ run.seq = found.seq ∧ run.sessionUid = found.sessionUid ∧
        run.status = .running) ∨ (run.status = .orphaned ∧ run.finishedAt.isSome = true)
  | .write _ (.sweep found _) => s.FindsGuard found ∧ ∀ run, s.task.lastRun = some run →
      run.seq = found.seq → run.status = .running → found.guard = none
  | .write _ .restore => s.task.inFlight.isSome = true → s.fires = []
  | .write _ (.escalate _ read) => ∀ run, s.task.lastRun = some run →
      ∃ r, read = some r ∧ run.seq = r.seq
  | .record _ => s.task.runCount + 1 < 2 ^ 32
  | _ => True

theorem Undisturbed.noFire (h : s.Undisturbed e) : s.NoFireUnderWithdrawal e := by
  cases e with
  | write snapshot w =>
    intro hw hguard
    obtain ⟨guard, hg⟩ := Option.isSome_iff_exists.mp hguard
    cases w with
    | orphan found now => exact (h.1 guard hg).1
    | sweep found now => exact (h.1 guard hg).1
    | restore => exact h hguard
    | _ => cases hw
  | _ => trivial

/-! ## Fires, the counter and the records that were read -/

/-- A record that was read names an earlier run, or the session of the last one. -/
def ReadsEarlier (t current : Task) : Prop :=
  ∀ run, t.lastRun = some run → run.seq ≤ current.runCount ∧
    ∀ last, current.lastRun = some last → last.seq = run.seq → last.sessionUid = run.sessionUid

/-- An orphan is a run that some record names, or the guard of a session that was found dead. -/
structure FoundOn (s : System) (found : Stranded) : Prop where
  run : found.guard = none → ∃ t ∈ s.seen, ∃ run, t.lastRun = some run ∧ run.seq = found.seq ∧
    run.sessionUid = found.sessionUid
  guard : ∀ guard, found.guard = some guard → guard.sessionUid ∈ s.buried

/-- The fires, the counter and the records that were read agree. -/
structure RunInvariant (s : System) : Prop where
  synced : s.Synced
  exclusive : s.lease.Exclusive
  fires : ∀ f ∈ s.fires, f.seq = s.task.runCount + 1
  counted : ∀ n ∈ s.recorded, n ≤ s.task.runCount
  increasing : s.recorded.Pairwise (· > ·)
  current : s.task ∈ s.seen
  read : ∀ t ∈ s.seen, ReadsEarlier t s.task
  found : ∀ found ∈ s.orphans ++ s.swept, s.FoundOn found

/-- A new record that still names the run that the old one named. -/
theorem RunInvariant.reads {t' : Task} (h : s.RunInvariant)
    (hcount : t'.runCount = s.task.runCount)
    (hlast : ∀ run', t'.lastRun = some run' → ∃ run, s.task.lastRun = some run ∧
      run'.seq = run.seq ∧ run'.sessionUid = run.sessionUid) :
    ∀ t ∈ t' :: s.seen, ReadsEarlier t t' := by
  have hself : ReadsEarlier s.task s.task := h.read _ h.current
  intro t ht run hrun
  rw [hcount]
  rcases List.mem_cons.mp ht with rfl | hmem
  · obtain ⟨old, hold, hseq, -⟩ := hlast run hrun
    refine ⟨hseq ▸ (hself old hold).1, fun last hl _ => ?_⟩
    rw [hrun] at hl
    rw [Option.some.inj hl]
  · refine ⟨(h.read t hmem run hrun).1, fun last hl hsame => ?_⟩
    obtain ⟨old, hold, hseq, huid⟩ := hlast last hl
    rw [huid]
    exact (h.read t hmem run hrun).2 old hold (hseq.symm.trans hsame)

theorem FoundOn.mono {found : Stranded} (h : s.FoundOn found) (hseen : s.seen ⊆ s'.seen)
    (hburied : s.buried ⊆ s'.buried) : s'.FoundOn found := by
  refine ⟨fun hguard => ?_, fun guard hguard => hburied (h.guard guard hguard)⟩
  obtain ⟨t, ht, rest⟩ := h.run hguard
  exact ⟨t, hseen ht, rest⟩

/-- What is stranded is the last run, or the guard with its session. -/
theorem stranded_cases {tk : Task} {v : Stranded} (h : stranded tk = some v) :
    (v.guard = none ∧ ∃ run, tk.lastRun = some run ∧ run.seq = v.seq ∧
      run.sessionUid = v.sessionUid) ∨
    ∃ guard, v.guard = some guard ∧ v.sessionUid = some guard.sessionUid := by
  unfold stranded at h
  split at h
  · next guard _ =>
    cases h
    exact .inr ⟨guard, rfl, rfl⟩
  · split at h
    · next lr hlr =>
      split at h
      · cases h
        exact .inl ⟨rfl, lr, hlr, rfl, rfl⟩
      · cases h
    · cases h

theorem reconcileOrphans_stranded {tk : Task} {now : Nat} {dead : String → Bool} {v : Stranded}
    (h : reconcileOrphans tk now dead = some v) :
    stranded tk = some v ∧ ∃ uid, v.sessionUid = some uid ∧ dead uid = true := by
  unfold reconcileOrphans at h
  split at h
  · cases h
  split at h
  · next w hw =>
    split at h
    · next uid huid =>
      split at h
      · cases h
      split at h
      · next hdead =>
        cases h
        exact ⟨hw, uid, huid, hdead⟩
      · cases h
    · cases h
  · cases h

theorem startupOrphanSweep_stranded {tk : Task} {alive : String → Bool} {v : Stranded}
    (h : startupOrphanSweep tk alive = some v) :
    stranded tk = some v ∧ v.sessionUid.any alive = false := by
  unfold startupOrphanSweep at h
  split at h
  · cases h
  split at h
  · next w hw =>
    split at h
    · cases h
    · next halive =>
      cases h
      exact ⟨hw, Bool.eq_false_iff.mpr halive⟩
  · cases h

/-- A verdict names what the record it was reached on names. -/
theorem foundOn_of_stranded {snapshot : Task} {v : Stranded} (read : snapshot ∈ s'.seen)
    (h : stranded snapshot = some v)
    (hburied : ∀ uid, v.sessionUid = some uid → uid ∈ s'.buried) : s'.FoundOn v := by
  rcases stranded_cases h with ⟨hnone, hrun⟩ | ⟨guard, hguard, huid⟩
  · refine ⟨fun _ => ⟨snapshot, read, hrun⟩, fun guard hguard => ?_⟩
    rw [hnone] at hguard
    cases hguard
  · refine ⟨fun hnone => ?_, fun g hg => ?_⟩
    · rw [hnone] at hguard
      cases hguard
    · rw [hguard] at hg
      exact hburied _ (Option.some.inj hg ▸ huid)

/-- A write leaves the run it finds the same run. -/
theorem apply_sameRun (w : Write) (t : Task) (run' : RunRecord)
    (h : (w.apply t).lastRun = some run') :
    ∃ run, t.lastRun = some run ∧ run'.seq = run.seq ∧ run'.sessionUid = run.sessionUid := by
  rcases w.apply_moves t with hsame | ⟨run, new, hrun, hnew, hchange⟩
  · exact ⟨run', hsame ▸ h, rfl, rfl⟩
  · rw [hnew] at h
    cases h
    exact ⟨run, hrun, hchange.same⟩

/-- The one fire in progress has the guard. -/
theorem RunInvariant.guard_of_mem (h : s.RunInvariant) {f : Fire} (hf : f ∈ s.fires) :
    s.fires = [f] ∧ s.owner = some f ∧ s.task.inFlight = some f.guard := by
  obtain ⟨hone, hheld⟩ := h.exclusive.of_mem hf
  refine ⟨hone, hheld, ?_⟩
  rw [h.synced, show s.owner = some f from hheld, Option.map_some]

/-- The counter goes up with the record of a fire. -/
theorem recordFire_runCount {f : Fire} {t : Task} (h : t.runCount + 1 < 2 ^ 32) :
    (recordFire f t).runCount = t.runCount + 1 := by
  show min (t.runCount + 1) (2 ^ 32 - 1) = t.runCount + 1
  omega

/-- An admission lets one fire in and sets its guard. -/
theorem letIn_or (origin : Origin) (s : System) (f : Fire) (t : Task) :
    ∃ tick, (if origin.scheduled then (s.letIn f t).acted else s.letIn f t) =
      { s.letIn f t with tick } := by
  cases origin <;> exact ⟨_, rfl⟩

/-- The fires in progress have the number after the counter. -/
theorem Stepped.numbered (hstep : Stepped s e s') (h : s.RunInvariant) :
    ∀ f ∈ s'.fires, f.seq = s'.task.runCount + 1 := by
  cases hstep with
  | arm origin snapshot fireToken minted alive now t _ may armed eq =>
    obtain ⟨ht, hfree, -, -, -, hcount, -⟩ := arm_ok armed
    have hnone : s.fires = [] := by
      rw [h.synced, Option.map_eq_none_iff] at hfree
      exact h.exclusive.working_nil hfree
    obtain ⟨tick, heq⟩ := letIn_or origin s
      (s.newFire origin snapshot fireToken minted alive now) t
    intro f hf
    rw [eq, heq] at hf ⊢
    have hnew : f = s.newFire origin snapshot fireToken minted alive now := by
      rw [show ({ s.letIn _ t with tick } : System).fires = _ :: s.fires from rfl, hnone,
        List.mem_singleton] at hf
      exact hf
    show f.seq = t.runCount + 1
    rw [hnew, ht]
    show snapshot.runCount + 1 = s.task.runCount + 1
    rw [hcount]
  | record f mem =>
    intro g hg
    rw [(h.guard_of_mem mem).1, List.erase_cons_head] at hg
    cases hg
  | cleanUp f mem => exact fun g hg => h.fires g (List.mem_of_mem_erase hg)
  | lose f mem => exact fun g hg => h.fires g (List.mem_of_mem_erase hg)
  | write snapshot w may =>
    rw [afterWrite_fires, afterWrite_task, w.apply_runCount]
    exact h.fires
  | crash => exact fun g hg => by cases hg
  | _ => exact h.fires

/-- The counter stays above what has been recorded, and the numbers go up. -/
theorem Stepped.counted (hstep : Stepped s e s') (h : s.RunInvariant) (hok : s.Undisturbed e) :
    (∀ n ∈ s'.recorded, n ≤ s'.task.runCount) ∧ s'.recorded.Pairwise (· > ·) := by
  cases hstep with
  | arm origin snapshot fireToken minted alive now t _ may armed eq =>
    obtain ⟨tick, heq⟩ := letIn_or origin s
      (s.newFire origin snapshot fireToken minted alive now) t
    rw [eq, heq]
    refine ⟨fun n hn => ?_, h.increasing⟩
    show n ≤ t.runCount
    rw [(arm_ok armed).1]
    exact h.counted n hn
  | record f mem =>
    have hcount := recordFire_runCount (f := f) hok
    refine ⟨fun n hn => ?_, List.pairwise_cons.mpr ⟨fun n hn => ?_, h.increasing⟩⟩
    · show n ≤ (recordFire f s.task).runCount
      rw [hcount]
      rcases List.mem_cons.mp hn with rfl | hn
      · exact (h.fires f mem).le
      · exact Nat.le_succ_of_le (h.counted n hn)
    · rw [h.fires f mem]
      exact Nat.lt_succ_of_le (h.counted n hn)
  | write snapshot w may =>
    rw [afterWrite_recorded, afterWrite_task, w.apply_runCount]
    exact ⟨h.counted, h.increasing⟩
  | _ => exact ⟨h.counted, h.increasing⟩

/-- The record is one that can be read, and whatever can be read names an earlier run. -/
theorem Stepped.read (hstep : Stepped s e s') (h : s.RunInvariant) (hok : s.Undisturbed e) :
    s'.task ∈ s'.seen ∧ ∀ t ∈ s'.seen, ReadsEarlier t s'.task := by
  cases hstep with
  | arm origin snapshot fireToken minted alive now t _ may armed eq =>
    obtain ⟨tick, heq⟩ := letIn_or origin s
      (s.newFire origin snapshot fireToken minted alive now) t
    have ht := (arm_ok armed).1
    have hreads : ∀ u ∈ t :: s.seen, ReadsEarlier u t :=
      h.reads (by rw [ht]) fun run' hr => by
        rw [ht] at hr
        exact ⟨run', hr, rfl, rfl⟩
    rw [eq, heq]
    exact ⟨List.mem_cons_self, hreads⟩
  | cleanUp f mem =>
    exact ⟨List.mem_cons_self, h.reads rfl fun run' hr => ⟨run', hr, rfl, rfl⟩⟩
  | record f mem =>
    refine ⟨List.mem_cons_self, fun t ht run hrun => ?_⟩
    have hcount := recordFire_runCount (f := f) hok
    show run.seq ≤ (recordFire f s.task).runCount ∧ ∀ last,
      (recordFire f s.task).lastRun = some last → last.seq = run.seq →
        last.sessionUid = run.sessionUid
    rw [hcount]
    rcases List.mem_cons.mp ht with rfl | hmem
    · cases hrun
      refine ⟨(h.fires f mem).le, fun last hl _ => ?_⟩
      cases hl
      rfl
    · -- an earlier record cannot name the new run
      have hle := (h.read t hmem run hrun).1
      refine ⟨Nat.le_succ_of_le hle, fun last hl hsame => ?_⟩
      cases hl
      have hseq : f.seq = run.seq := hsame
      rw [h.fires f mem] at hseq
      omega
  | write snapshot w may =>
    rw [afterWrite_seen, afterWrite_task]
    exact ⟨List.mem_cons_self, h.reads (w.apply_runCount _) (apply_sameRun w s.task)⟩
  | crash =>
    refine ⟨List.mem_cons_self, fun t ht => ?_⟩
    rw [List.mem_singleton.mp ht]
    exact h.read _ h.current
  | _ => exact ⟨h.current, h.read⟩

/-- What has been found stays found. -/
theorem Stepped.found (hstep : Stepped s e s') (h : s.RunInvariant) :
    ∀ found ∈ s'.orphans ++ s'.swept, s'.FoundOn found := by
  have hgrown : ∀ v, s.FoundOn v → s.seen ⊆ s'.seen → s.buried ⊆ s'.buried → s'.FoundOn v :=
    fun v hv => hv.mono
  cases hstep with
  | arm origin snapshot fireToken minted alive now t _ may armed eq =>
    obtain ⟨tick, heq⟩ := letIn_or origin s
      (s.newFire origin snapshot fireToken minted alive now) t
    rw [eq, heq]
    exact fun v hv => (h.found v hv).mono (List.subset_cons_self _ _) (List.Subset.refl _)
  | cleanUp f mem =>
    exact fun v hv => hgrown v (h.found v hv) (List.subset_cons_self _ _) (List.Subset.refl _)
  | record f mem =>
    exact fun v hv => hgrown v (h.found v hv) (List.subset_cons_self _ _) (List.Subset.refl _)
  | judge snapshot now read =>
    intro v hv
    rw [List.append_assoc, List.mem_append, Option.mem_toList] at hv
    rcases hv with hv | hv
    · refine foundOn_of_stranded read (reconcileOrphans_stranded hv).1 fun uid huid => ?_
      refine List.mem_append_left _ (Option.mem_toList.mpr ?_)
      rw [hv]
      exact huid
    · exact hgrown v (h.found v hv) (List.Subset.refl _) (List.subset_append_right _ _)
  | judgeStartup snapshot read =>
    intro v hv
    simp only [List.mem_append, Option.mem_toList] at hv
    rcases hv with hv | hv | hv
    · exact hgrown v (h.found v (List.mem_append_left _ hv)) (List.Subset.refl _)
        (List.subset_append_right _ _)
    · refine foundOn_of_stranded read (startupOrphanSweep_stranded hv).1 fun uid huid => ?_
      refine List.mem_append_left _ (Option.mem_toList.mpr ?_)
      rw [hv]
      exact huid
    · exact hgrown v (h.found v (List.mem_append_right _ hv)) (List.Subset.refl _)
        (List.subset_append_right _ _)
  | write snapshot w may =>
    rw [(afterWrite_found w).1, (afterWrite_found w).2]
    refine fun v hv => hgrown v (h.found v hv) ?_ ?_
    · rw [afterWrite_seen]
      exact List.subset_cons_self _ _
    · obtain ⟨tick, reopened, heq⟩ := s.afterWrite_eq w
      rw [heq]
      exact List.Subset.refl _
  | crash => exact fun v hv => by cases hv
  | _ =>
    exact fun v hv => hgrown v (h.found v hv) (List.Subset.refl _) (List.Subset.refl _)

/-- A step that finds what was decided on keeps all of this. -/
theorem Stepped.runs (hstep : Stepped s e s') (h : s.RunInvariant) (hok : s.Undisturbed e) :
    s'.RunInvariant where
  synced := hstep.synced h.synced
  exclusive := h.exclusive.step (hstep.lease h.synced hok.noFire)
  fires := hstep.numbered h
  counted := (hstep.counted h hok).1
  increasing := (hstep.counted h hok).2
  current := (hstep.read h hok).1
  read := (hstep.read h hok).2
  found := hstep.found h

theorem start_runs {t : Task} (ht : t.Unfired) : (start t).RunInvariant where
  synced := ht.guard
  exclusive := .inl rfl
  fires := fun f hf => by cases hf
  counted := fun n hn => by cases hn
  increasing := .nil
  current := List.mem_cons_self
  read := by
    intro u hu run hrun
    rw [List.mem_singleton.mp hu, ht.run] at hrun
    cases hrun
  found := fun v hv => by cases hv

/-! ## What a step leaves of outcomes and guards -/

/-- What a closed run came to stays, unless the step reopens the run its hold names, escalates
the run it decided about, or ends the recovery of that run. -/
def Final (s : System) (e : Event) (s' : System) : Prop :=
  ∀ run run', s.task.lastRun = some run → run.status.closed = true →
    s'.task.lastRun = some run' → run'.seq = run.seq →
    run'.outcome = run.outcome ∨
    (∃ snapshot hold now, e = .write snapshot (.releaseHold hold now) ∧
      s.task.recoveryHold = some hold ∧ hold.identifies .failed run = true) ∨
    (∃ snapshot cause read, e = .write snapshot (.escalate cause read) ∧
      (Write.escalate cause read).About run ∧ run'.outcome = (.stuck, run.finishedAt)) ∨
    ∃ snapshot progress now, e = .write snapshot (.releaseRecovery progress now) ∧
      (Write.releaseRecovery progress now).About run ∧ run'.outcome = (.failed, some now)

/-- A write that closes a run decided about that run. -/
def Owned (s : System) (e : Event) (s' : System) : Prop :=
  ∀ snapshot w run run', e = .write snapshot w → s.task.lastRun = some run →
    s'.task.lastRun = some run' → run'.status.closed = true → run'.outcome ≠ run.outcome →
    w.About run

/-- A guard goes with the fire that set it, or because its own session was found dead, or because
a session is restored when no fire is in progress. -/
def GuardKept (s : System) (e : Event) (s' : System) : Prop :=
  ∀ guard, s.task.inFlight = some guard → s'.task.inFlight = some guard ∨
    (∃ f, (e = .cleanUp f ∨ e = .record f) ∧ s.owner = some f) ∨
    (∃ snapshot found now,
      (e = .write snapshot (.orphan found now) ∨ e = .write snapshot (.sweep found now)) ∧
        found.guard = some guard ∧ guard.sessionUid ∈ s.buried ∧ s.fires = []) ∨
    ∃ snapshot, e = .write snapshot .restore ∧ s.fires = []

/-- The run a record names by its number is the same session's. -/
theorem RunInvariant.session (h : s.RunInvariant) {t : Task} (ht : t ∈ s.seen)
    {run last : RunRecord} (hrun : t.lastRun = some run) (hlast : s.task.lastRun = some last)
    (hseq : last.seq = run.seq) : last.sessionUid = run.sessionUid :=
  (h.read t ht run hrun).2 last hlast hseq

/-- What a writer may write on. -/
theorem mayWrite_read {snapshot : Task} {w : Write} (h : s.mayWrite snapshot w = true) :
    snapshot ∈ s.seen ∧ w.decidedOn snapshot = true := by
  simp only [mayWrite, Bool.and_eq_true, decide_eq_true_eq] at h
  exact ⟨h.1.1.1, h.1.1.2⟩

/-- An escalation decided about the run it finds. -/
theorem RunInvariant.escalated (h : s.RunInvariant) {snapshot : Task} {cause : Escalation}
    {read : Option RunRecord} (may : s.mayWrite snapshot (.escalate cause read) = true)
    {run : RunRecord} (hrun : s.task.lastRun = some run)
    (hok : ∃ r, read = some r ∧ run.seq = r.seq) : (Write.escalate cause read).About run := by
  obtain ⟨hseen, hdec⟩ := mayWrite_read may
  obtain ⟨r, rfl, hseq⟩ := hok
  rw [Write.decidedOn, Bool.and_eq_true, decide_eq_true_eq] at hdec
  exact ⟨r, rfl, hseq, h.session hseen hdec.2.symm hrun hseq⟩

/-- The sweep decided about the run it finds. -/
theorem RunInvariant.swept (h : s.RunInvariant) {snapshot : Task} {found : Stranded} {now : Nat}
    (may : s.mayWrite snapshot (.sweep found now) = true) {run : RunRecord}
    (hrun : s.task.lastRun = some run) (hseq : run.seq = found.seq)
    (hguard : found.guard = none) : (Write.sweep found now).About run := by
  simp only [mayWrite, Bool.and_eq_true, decide_eq_true_eq] at may
  obtain ⟨t, ht, r, hr, hrseq, hruid⟩ := (h.found found (List.mem_append_right _ may.2)).run hguard
  refine ⟨hguard, hseq, ?_⟩
  rw [h.session ht hr hrun (hseq.trans hrseq.symm), hruid]

/-- Only a write touches a run that has been recorded. -/
theorem Stepped.recorded_run (hstep : Stepped s e s') (h : s.RunInvariant) {run run' : RunRecord}
    (hrun : s.task.lastRun = some run) (hrun' : s'.task.lastRun = some run')
    (hseq : run'.seq = run.seq) :
    run' = run ∨ ∃ snapshot w, e = .write snapshot w ∧ s.mayWrite snapshot w = true ∧
      w.Changes s.task run run' := by
  have hsame : s'.task.lastRun = s.task.lastRun → run' = run := fun heq => by
    rw [heq, hrun] at hrun'
    exact (Option.some.inj hrun').symm
  cases hstep with
  | arm origin snapshot fireToken minted alive now t _ may armed eq =>
    obtain ⟨tick, heq⟩ := letIn_or origin s
      (s.newFire origin snapshot fireToken minted alive now) t
    refine .inl (hsame ?_)
    rw [eq, heq]
    show t.lastRun = s.task.lastRun
    rw [(arm_ok armed).1]
  | record f mem =>
    -- the new run has a number that no run had before
    have hle := (h.read _ h.current run hrun).1
    cases hrun'
    have hnum : f.seq = run.seq := hseq
    rw [h.fires f mem] at hnum
    omega
  | write snapshot w may =>
    rw [afterWrite_task] at hsame hrun'
    rcases w.apply_moves s.task with hkept | ⟨old, new, hold, hnew, hchange⟩
    · exact .inl (hsame hkept)
    · rw [hold] at hrun
      rw [hnew] at hrun'
      cases hrun
      cases hrun'
      exact .inr ⟨snapshot, w, rfl, may, hchange⟩
  | cleanUp f mem => exact .inl (hsame rfl)
  | _ => exact .inl (hsame rfl)

/-- A step that finds what was decided on leaves outcomes final. -/
theorem Stepped.final (hstep : Stepped s e s') (h : s.RunInvariant) (hok : s.Undisturbed e) :
    Final s e s' := by
  intro run run' hrun hclosed hrun' hseq
  rcases hstep.recorded_run h hrun hrun' hseq with rfl | ⟨snapshot, w, rfl, may, hchange⟩
  · exact .inl rfl
  have hnotrunning : run.status ≠ .running := by
    intro hrunning
    rw [hrunning] at hclosed
    cases hclosed
  cases hchange with
  | rest startedAt => exact .inl rfl
  | close status now running => exact absurd running hnotrunning
  | sweep found now is running => exact absurd running hnotrunning
  | orphan found now is =>
    subst is
    rcases hok.2 run hrun with ⟨-, -, -, hrunning⟩ | ⟨hstatus, hfinished⟩
    · exact absurd hrunning hnotrunning
    · obtain ⟨at', hat⟩ := Option.isSome_iff_exists.mp hfinished
      refine .inl ?_
      show (RunStatus.orphaned, some (run.finishedAt.getD now)) = (run.status, run.finishedAt)
      rw [hat, hstatus, Option.getD_some]
  | stuck cause read is =>
    subst is
    exact .inr (.inr (.inl ⟨snapshot, cause, read, rfl, h.escalated may hrun (hok run hrun), rfl⟩))
  | reopen hold now is held identified =>
    subst is
    exact .inr (.inl ⟨snapshot, hold, now, rfl, held, identified⟩)
  | recover progress now is about =>
    subst is
    exact .inr (.inr (.inr ⟨snapshot, progress, now, rfl, about, rfl⟩))

/-- A write that finds what was decided on closes no other run. -/
theorem Stepped.owned (hstep : Stepped s e s') (h : s.RunInvariant) (hok : s.Undisturbed e) :
    Owned s e s' := by
  rintro snapshot w run run' rfl hrun hrun' hclosed hne
  have hseq : run'.seq = run.seq := by
    cases hstep with
    | quiet _ live =>
      rw [show ({ s with live } : System).task = s.task from rfl, hrun] at hrun'
      rw [Option.some.inj hrun']
    | write _ _ may =>
      rw [afterWrite_task] at hrun'
      obtain ⟨old, hold, hseq, -⟩ := apply_sameRun w s.task run' hrun'
      rw [hrun] at hold
      rw [hseq, Option.some.inj hold]
  rcases hstep.recorded_run h hrun hrun' hseq with rfl | ⟨snapshot', w', hw, may, hchange⟩
  · exact absurd rfl hne
  cases hw
  cases hchange with
  | rest startedAt => exact absurd rfl hne
  | close status now running _ about => exact about
  | recover progress now is about => exact about
  | reopen hold now is => cases hclosed
  | orphan found now is =>
    subst is
    rcases hok.2 run hrun with ⟨hguard, hs, huid, -⟩ | ⟨hstatus, hfinished⟩
    · exact ⟨hguard, hs, huid⟩
    · obtain ⟨at', hat⟩ := Option.isSome_iff_exists.mp hfinished
      refine absurd ?_ hne
      show (RunStatus.orphaned, some (run.finishedAt.getD now)) = (run.status, run.finishedAt)
      rw [hat, hstatus, Option.getD_some]
  | sweep found now is running hs =>
    subst is
    exact h.swept may hrun hs (hok.2 run hrun hs running)
  | stuck cause read is =>
    subst is
    exact h.escalated may hrun (hok run hrun)

/-- A step that finds what was decided on takes no guard from a fire. -/
theorem Stepped.guardKept (hstep : Stepped s e s') (h : s.RunInvariant) (hok : s.Undisturbed e) :
    GuardKept s e s' := by
  intro guard hguard
  cases hstep with
  | arm origin snapshot fireToken minted alive now t _ may armed eq =>
    rw [(arm_ok armed).2.1] at hguard
    cases hguard
  | cleanUp f mem => exact .inr (.inl ⟨f, .inl rfl, (h.guard_of_mem mem).2.1⟩)
  | record f mem => exact .inr (.inl ⟨f, .inr rfl, (h.guard_of_mem mem).2.1⟩)
  | write snapshot w may =>
    rw [afterWrite_task]
    rcases w.apply_inFlight s.task with hkept | ⟨hw, -⟩
    · exact .inl (hkept.trans hguard)
    · have hseen := may
      simp only [mayWrite, Bool.and_eq_true] at hseen
      cases w with
      | orphan found now =>
        obtain ⟨hnone, hfound⟩ := hok.1 guard hguard
        have hmem := List.mem_append_left s.swept (of_decide_eq_true hseen.2)
        exact .inr (.inr (.inl ⟨snapshot, found, now, .inl rfl, hfound,
          (h.found found hmem).guard guard hfound, hnone⟩))
      | sweep found now =>
        obtain ⟨hnone, hfound⟩ := hok.1 guard hguard
        have hmem := List.mem_append_right s.orphans (of_decide_eq_true hseen.2)
        exact .inr (.inr (.inl ⟨snapshot, found, now, .inr rfl, hfound,
          (h.found found hmem).guard guard hfound, hnone⟩))
      | restore =>
        exact .inr (.inr (.inr ⟨snapshot, rfl, hok (by rw [hguard, Option.isSome_some])⟩))
      | _ => cases hw
  | _ => exact .inl hguard

/-- Along every run whose steps find what was decided on, outcomes are final and belong to their
run, no fire loses its guard to another, and the recorded numbers go up. -/
theorem outcome_runs {t : Task} (ht : t.Unfired) {es : List Event} {e : Event}
    (hok : Meets step Undisturbed (start t) (es ++ [e])) :
    Final (es.foldl step (start t)) e ((es.foldl step (start t)).step e) ∧
      Owned (es.foldl step (start t)) e ((es.foldl step (start t)).step e) ∧
      GuardKept (es.foldl step (start t)) e ((es.foldl step (start t)).step e) ∧
      ((es.foldl step (start t)).step e).recorded.Pairwise (· > ·) := by
  obtain ⟨hbefore, hlast, -⟩ := Meets.of_append hok
  have hinv : (es.foldl step (start t)).RunInvariant :=
    Meets.invariant (I := RunInvariant) (fun s e hs he => (s.stepped e).runs hs he)
      (start_runs ht) hbefore
  have hstep := (es.foldl step (start t)).stepped e
  exact ⟨hstep.final hinv hlast, hstep.owned hinv hlast, hstep.guardKept hinv hlast,
    (hstep.counted hinv hlast).2⟩

end System

/-! ## An escalation after the exit -/

/-- The first run is over its budget, and an investigator has been spawned. -/
def overdueTask : Task := spawnInvestigator "inv" 2000 ranTask

/-- The session of a run that is to be escalated is killed, and its exit closes the run first. -/
def killedRun : List Event :=
  [.arm (.caller (.operator "op")) budgetTask "f1" "s1" false 1000, .spawned "s1",
    .record firstFire, .write ranTask (.spawnInvestigator "inv" 2000), .died "s1",
    .write overdueTask (.exit "s1" .failed 2100)]

/-- The escalation that was decided on before it. -/
def lateEscalation : Event :=
  .write overdueTask (.escalate (.investigator "inv") (some firstFire.run))

/-- A run that has failed becomes a stuck one, without any hold being released. -/
theorem escalation_after_exit : budgetTask.Unfired ∧
    (killedRun.foldl System.step (.start budgetTask)).task.lastRun.map
      (fun run => (run.seq, run.outcome)) = some (1, .failed, some 2100) ∧
    ((killedRun.foldl System.step (.start budgetTask)).step lateEscalation).task.lastRun.map
      (fun run => (run.seq, run.outcome)) = some (1, .stuck, some 2100) := by
  refine ⟨⟨rfl, rfl, rfl, rfl, rfl, rfl⟩, ?_, ?_⟩
  · decide +kernel
  · decide +kernel

/-- The first fire and its record. -/
def firstRun : List Event :=
  [.arm (.caller (.operator "op")) budgetTask "f1" "s1" false 1000, .spawned "s1",
    .record firstFire]

theorem outcome_runs_reported :
    System.Final (firstRun.foldl System.step (.start budgetTask))
      (.write ranTask (.reportDone "s1" 1500))
      ((firstRun.foldl System.step (.start budgetTask)).step
        (.write ranTask (.reportDone "s1" 1500))) :=
  (@System.outcome_runs budgetTask ⟨rfl, rfl, rfl, rfl, rfl, rfl⟩ firstRun
    (.write ranTask (.reportDone "s1" 1500))
    ⟨trivial, trivial, by show (0 : Nat) + 1 < 2 ^ 32; decide, trivial, trivial⟩).1

end Continuous
