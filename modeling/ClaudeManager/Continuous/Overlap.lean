import Mathlib
import ClaudeManager.Continuous.System

/-!
# Fires that overlap

The scheduler does not fire a fresh or consumer task whose last run is still running. It decides
this on the record its tick has loaded, and the admission of the fire does not look again.

* `Timely` — the steps that come before anything has changed what was decided on
* `OverlapInvariant`, `Stepped.overlap` — at most one fire is in progress, and none of the
  scheduler's under a running run
* `overlap_runs` — this holds along every run of such steps
* `overlapping_fires` — runs where it does not
-/

namespace Continuous

open Program

namespace System

variable {s s' : System} {e : Event}

/-- A withdrawn guard is of no fire in progress, and what a tick decided on still stands. -/
def Timely (s : System) : Event → Prop
  | .write _ w => w.withdraws = true → s.task.inFlight.isSome = true → s.fires = []
  | .arm origin _ _ _ _ _ => origin.scheduled = true → ∀ tk, s.tick = some tk →
      tk.exclusive = true →
        (origin = .supervision → tk.running = true → s.task.running = false) ∧
          (s.overtaken = true → s.task.running = false)
  | _ => True

theorem Timely.noFire (h : s.Timely e) : s.NoFireUnderWithdrawal e := by
  cases e with
  | write snapshot w => exact h
  | _ => trivial

/-- At most one fire is in progress, and the scheduler's find the last run ended. -/
structure OverlapInvariant (s : System) : Prop where
  synced : s.Synced
  exclusive : s.lease.Exclusive
  ended : ∀ f ∈ s.fires, f.scheduled = true → s.task.running = false
  ticked : ∀ tk, s.tick = some tk → tk.running = false → s.overtaken = false →
    s.task.running = false

theorem running_of_lastRun {t t' : Task} (h : t'.lastRun = t.lastRun) : t'.running = t.running := by
  rw [Task.running, Task.running, Task.lastStatus, Task.lastStatus, h]

theorem running_iff {t : Task} {run : RunRecord} (h : t.lastRun = some run) :
    t.running = true ↔ run.status = .running := by
  rw [Task.running, Task.lastStatus, h, Option.map_some, decide_eq_true_eq, Option.some.injEq]

/-- A write sets no run running, except for the release of a hold on a task without guard. -/
theorem apply_running (w : Write) (t : Task) (hend : t.running = false) :
    (w.apply t).running = false ∨
      t.inFlight = none ∧ ∃ hold now, w = .releaseHold hold now := by
  rcases w.apply_moves t with hsame | ⟨run, run', hrun, hrun', hchange⟩
  · exact .inl ((running_of_lastRun hsame).trans hend)
  have hnot : run.status ≠ .running := by
    intro hrunning
    rw [(running_iff hrun).mpr hrunning] at hend
    cases hend
  have hclosed : run'.status ≠ .running → (w.apply t).running = false := by
    intro hne
    rw [Bool.eq_false_iff]
    exact fun h => hne ((running_iff hrun').mp h)
  cases hchange with
  | rest startedAt => exact .inl (hclosed hnot)
  | close status now running => exact absurd running hnot
  | orphan found now is => exact .inl (hclosed nofun)
  | sweep found now is => exact .inl (hclosed nofun)
  | stuck cause read is => exact .inl (hclosed nofun)
  | recover progress now is => exact .inl (hclosed nofun)
  | reopen hold now is held identified free => exact .inr ⟨free, hold, now, is⟩

/-- A released hold ends the tick for its task. -/
theorem afterWrite_tick (w : Write) {tk : Task} (h : (s.afterWrite w).tick = some tk) :
    s.tick = some tk ∧ ∀ hold now, w ≠ .releaseHold hold now := by
  cases w with
  | releaseHold hold now =>
    dsimp only [afterWrite] at h
    split at h <;> cases h
  | _ => exact ⟨h, nofun⟩

/-- A fire that is asked for by the scheduler, at the time the tick's decision still stands. -/
theorem OverlapInvariant.asked (h : s.OverlapInvariant) {origin : Origin} {snapshot : Task}
    {now : Nat} (may : s.mayAsk origin snapshot now = true) (hsched : origin.scheduled = true)
    (hex : s.tick.any Task.exclusive = true)
    (hok : ∀ tk, s.tick = some tk → tk.exclusive = true →
      (origin = .supervision → tk.running = true → s.task.running = false) ∧
        (s.overtaken = true → s.task.running = false)) :
    s.task.running = false := by
  obtain ⟨tk, htk, hexcl⟩ := (Option.any_eq_true _ _).mp hex
  obtain ⟨hsuper, hover⟩ := hok tk htk hexcl
  cases hovertaken : s.overtaken with
  | true => exact hover hovertaken
  | false =>
    simp only [mayAsk, Bool.and_eq_true] at may
    cases origin with
    | caller c => cases hsched
    | supervision =>
      cases hrun : tk.running with
      | true => exact hsuper rfl hrun
      | false => exact h.ticked tk htk hrun hovertaken
    | due =>
      have hdue := (Bool.and_eq_true_iff.mp may.2).2
      rw [htk, Option.any_some, Bool.and_eq_true, Bool.not_eq_true'] at hdue
      exact h.ticked tk htk (Task.not_running_of_not_blocked hexcl hdue.2) hovertaken

/-- A step in time keeps the fires of the scheduler apart from every run. -/
theorem Stepped.overlap (hstep : Stepped s e s') (h : s.OverlapInvariant) (hok : s.Timely e) :
    s'.OverlapInvariant := by
  have hsynced := hstep.synced h.synced
  have hexclusive := h.exclusive.step (hstep.lease h.synced hok.noFire)
  cases hstep with
  | quiet _ live => exact ⟨hsynced, hexclusive, h.ended, h.ticked⟩
  | judge snapshot now read => exact ⟨hsynced, hexclusive, h.ended, h.ticked⟩
  | judgeStartup snapshot read => exact ⟨hsynced, hexclusive, h.ended, h.ticked⟩
  | delivered => exact ⟨hsynced, hexclusive, h.ended, h.ticked⟩
  | tick =>
    refine ⟨hsynced, hexclusive, h.ended, fun tk htk hend _ => ?_⟩
    cases htk
    exact hend
  | lose f mem =>
    exact ⟨hsynced, hexclusive, fun g hg => h.ended g (List.mem_of_mem_erase hg), h.ticked⟩
  | cleanUp f mem =>
    exact ⟨hsynced, hexclusive, fun g hg => h.ended g (List.mem_of_mem_erase hg), h.ticked⟩
  | record f mem =>
    refine ⟨hsynced, hexclusive, fun g hg _ => ?_, fun tk _ _ hover => by cases hover⟩
    have hnone : s.fires.erase f = [] := h.exclusive.erase mem
    have hmem : g ∈ s.fires.erase f := hg
    rw [hnone] at hmem
    cases hmem
  | crash =>
    exact ⟨hsynced, hexclusive, (fun g hg => by cases hg), (fun tk htk => by cases htk)⟩
  | arm origin snapshot fireToken minted alive now t _ may armed eq =>
    obtain ⟨ht, hfree, -⟩ := arm_ok armed
    have hrun : t.running = s.task.running := running_of_lastRun (by rw [ht])
    have hnone : s.fires = [] := by
      rw [h.synced, Option.map_eq_none_iff] at hfree
      exact h.exclusive.working_nil hfree
    have hnew : ∀ f ∈ (s.letIn (s.newFire origin snapshot fireToken minted alive now) t).fires,
        f.scheduled = true → t.running = false := by
      intro f hf hsched
      rw [show (s.letIn (s.newFire origin snapshot fireToken minted alive now) t).fires =
        s.newFire origin snapshot fireToken minted alive now :: s.fires from rfl, hnone,
        List.mem_singleton] at hf
      rw [hf] at hsched
      obtain ⟨horigin, hex⟩ := Bool.and_eq_true_iff.mp hsched
      rw [hrun]
      exact h.asked may horigin hex (hok horigin)
    have hticked : ∀ tk, s'.tick = some tk → tk.running = false → s'.overtaken = false →
        t.running = false := by
      intro tk htk hend hover
      rw [eq] at htk hover
      split at htk
      · cases htk
      · rw [hrun]
        refine h.ticked tk htk hend ?_
        split at hover <;> exact hover
    have htask : s'.task = t ∧
        s'.fires = (s.letIn (s.newFire origin snapshot fireToken minted alive now) t).fires := by
      rw [eq]
      split <;> exact ⟨rfl, rfl⟩
    refine ⟨hsynced, hexclusive, ?_, ?_⟩
    · rw [htask.1, htask.2]
      exact hnew
    · rw [htask.1]
      exact hticked
  | write snapshot w may =>
    refine ⟨hsynced, hexclusive, fun f hf hsched => ?_, fun tk htk hend hover => ?_⟩
    · rw [afterWrite_fires] at hf
      rw [afterWrite_task]
      refine (apply_running w s.task (h.ended f hf hsched)).resolve_right fun hrel => ?_
      -- a fire in progress has its guard, under which no hold is released
      have hguard : s.owner = some f := (h.exclusive.of_mem hf).2
      have hsome := h.synced
      rw [System.Synced, hguard, hrel.1] at hsome
      cases hsome
    · rw [afterWrite_overtaken] at hover
      obtain ⟨hold, hnot⟩ := afterWrite_tick w htk
      rw [afterWrite_task]
      refine (apply_running w s.task (h.ticked tk hold hend hover)).resolve_right ?_
      rintro ⟨-, hold', now, hw⟩
      exact hnot hold' now hw

theorem start_overlap {t : Task} (ht : t.Unfired) : (start t).OverlapInvariant where
  synced := ht.guard
  exclusive := .inl rfl
  ended := fun f hf => by cases hf
  ticked := fun tk htk => by cases htk

/-- Along every run of steps in time, at most one fire is between its admission and its record,
and the scheduler's fires of a fresh or consumer task find its last run ended. -/
theorem overlap_runs {t : Task} (ht : t.Unfired) {es : List Event}
    (hok : Meets step Timely (start t) es) :
    (es.foldl step (start t)).fires.length ≤ 1 ∧
      ∀ f ∈ (es.foldl step (start t)).fires, f.scheduled = true →
        (es.foldl step (start t)).task.running = false := by
  have hinv : (es.foldl step (start t)).OverlapInvariant :=
    Meets.invariant (I := OverlapInvariant) (fun s e hs he => (s.stepped e).overlap hs he)
      (start_overlap ht) hok
  refine ⟨?_, hinv.ended⟩
  rcases hinv.exclusive with hnone | ⟨f, hone, -⟩
  · rw [show (es.foldl step (start t)).fires = [] from hnone]
    exact Nat.zero_le 1
  · rw [show (es.foldl step (start t)).fires = [f] from hone]
    exact le_refl 1

end System

/-! ## Fires that do overlap -/

/-- The task while its first fire, one of the schedule, is still spawning. -/
def spawningTask : Task := { budgetTask with inFlight := some firstFire.guard }

/-- The spawn outlasts the grace: the guard is withdrawn, and a second fire comes in. -/
def slowSpawn : List Event :=
  [.tick, .arm .due budgetTask "f1" "s1" false 1000, .judge spawningTask 1100,
    .write spawningTask (.orphan ⟨some firstFire.guard, some "s1", 1000, 0, "f1"⟩ 1100),
    .arm (.caller (.operator "op")) budgetTask "f2" "s2" false 1200]

/-- An operator's fire is recorded between the tick's load and the tick's own fire. -/
def overtakenTick : List Event :=
  [.tick, .arm (.caller (.operator "op")) budgetTask "f1" "s1" false 1000, .spawned "s1",
    .record firstFire, .arm .due ranTask "f2" "s2" false 1001]

/-- Two fires are in progress at once, and the scheduler fires a task under its running run. -/
theorem overlapping_fires : budgetTask.Unfired ∧ budgetTask.exclusive = true ∧
    (slowSpawn.foldl System.step (.start budgetTask)).fires.length = 2 ∧
    ((overtakenTick.foldl System.step (.start budgetTask)).fires.map (·.scheduled) = [true] ∧
      (overtakenTick.foldl System.step (.start budgetTask)).task.running = true) := by
  refine ⟨⟨rfl, rfl, rfl, rfl, rfl, rfl⟩, rfl, ?_, ?_, ?_⟩
  · decide +kernel
  · decide +kernel
  · decide +kernel

/-- A tick and its fire. -/
def quickFire : List Event := [.tick, .arm .due budgetTask "f1" "s1" false 1000]

theorem overlap_runs_quick : (quickFire.foldl System.step (.start budgetTask)).fires.length ≤ 1 :=
  (@System.overlap_runs budgetTask ⟨rfl, rfl, rfl, rfl, rfl, rfl⟩ quickFire
    ⟨trivial, fun _ _ _ _ => ⟨nofun, nofun⟩, trivial⟩).1

end Continuous
