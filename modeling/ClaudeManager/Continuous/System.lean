import Mathlib
import ClaudeManager.Continuous.Writes
import ClaudeManager.Program.Leases

/-!
# A task, its fires and its writers

The record of one task together with all that works on it: fires between their admission and
their record, the scheduler between its load and its writes, and writers that still hold a record
they read before.

* `System`, `Event`, `System.step` — one step of any of them
* `System.lease` — the guard as the lease of the fires in progress
* `Stepped` — all that a step can be
* `Synced`, `Stepped.synced` — the guard on record is that of the fire that set it
* `Stepped.lease` — what a step does to the lease
-/

namespace Continuous

open Program

/-- A task, what works on it, and what has been recorded so far. -/
structure System where
  task : Task
  /-- The records this daemon has had: what a writer may have read. -/
  seen : List Task
  /-- The fire that set the guard. -/
  owner : Option Fire
  /-- Fires between their admission and their record or clean-up. -/
  fires : List Fire
  nextFire : Nat
  /-- Orphans the reconciliation has found and not yet written. -/
  orphans : List Stranded
  /-- Orphans the sweep at the start of the daemon has found and not yet written. -/
  swept : List Stranded
  /-- The record the scheduler's tick has loaded. -/
  tick : Option Task
  /-- Whether a run has been recorded since. -/
  overtaken : Bool
  /-- The hold whose run the scheduler has reopened and is about to tell. -/
  reopened : Option RecoveryHold
  /-- Sessions in the registry that have not exited. -/
  live : List String
  /-- Sessions that were looked for and found dead. -/
  buried : List String
  /-- The sequence numbers recorded so far, the latest first. -/
  recorded : List Nat

/-- A daemon that has just loaded the record. -/
def System.start (task : Task) : System where
  task
  seen := [task]
  owner := none
  fires := []
  nextFire := 0
  orphans := []
  swept := []
  tick := none
  overtaken := false
  reopened := none
  live := []
  buried := []
  recorded := []

/-- Where a fire comes from. -/
inductive Origin where
  /-- An operator, a session, or an investigator's restart. -/
  | caller (caller : Caller)
  /-- The due loop of a tick. -/
  | due
  /-- The supervision pass of a tick. -/
  | supervision
  deriving DecidableEq

/-- Who a fire is asked for as. -/
def Origin.asCaller : Origin → Caller
  | .caller c => c
  | .due | .supervision => .operator schedulerCallerToken

def Origin.scheduled : Origin → Bool
  | .caller _ => false
  | .due | .supervision => true

inductive Event where
  /-- The scheduler loads the tasks. -/
  | tick
  /-- A fire that has read `snapshot` asks for its admission. -/
  | arm (origin : Origin) (snapshot : Task) (fireToken minted : String) (alive : Bool) (now : Nat)
  /-- A step of the fire failed. -/
  | cleanUp (fire : Fire)
  | record (fire : Fire)
  /-- The record could not be written. -/
  | lose (fire : Fire)
  /-- The reconciliation looks at the record it has loaded. -/
  | judge (snapshot : Task) (now : Nat)
  /-- The sweep at the start of the daemon looks at the record it has loaded. -/
  | judgeStartup (snapshot : Task)
  /-- A writer that has read `snapshot` changes the record. -/
  | write (snapshot : Task) (write : Write)
  /-- The reopened run has been told. -/
  | delivered
  | spawned (uid : String)
  | died (uid : String)
  /-- The daemon dies, and starts again on the record it finds. -/
  | crash

/-- A periodic or consumer task whose time has come. -/
def Task.due (tk : Task) (now : Nat) : Bool :=
  tk.adoptionPending.isNone && tk.enabled && !tk.paused && tk.inFlight.isNone &&
    decide (tk.nextFireAt ≤ now) && (spacing tk).isSome

/-- Whether the scheduler thread makes this write. -/
def Write.byScheduler : Write → Bool
  | .orphan .. | .abandonInvestigator _ | .spawnInvestigator .. | .closeWedged ..
  | .poolUnavailable .. | .detectBlock .. | .recoverAccount .. | .saveRecovery _
  | .releaseRecovery .. | .releaseHold .. | .advance .. | .escalate (.watchdog ..) _ => true
  | _ => false

namespace System

/-- A fire may be asked for. -/
def mayAsk (s : System) (origin : Origin) (snapshot : Task) (now : Nat) : Bool :=
  decide (snapshot ∈ s.seen) && !snapshot.paused && snapshot.adoptionPending.isNone &&
    match origin with
    | .caller _ => true
    | .due => s.reopened.isNone && s.tick.any fun tk => tk.due now && !tk.runActiveBlocksFire
    | .supervision => s.reopened.isNone && s.tick.any fun tk => tk.shouldSupervise

/-- A writer may write. -/
def mayWrite (s : System) (snapshot : Task) (w : Write) : Bool :=
  decide (snapshot ∈ s.seen) && w.decidedOn snapshot && (!w.byScheduler || s.reopened.isNone) &&
    match w with
    | .orphan found _ => decide (found ∈ s.orphans)
    | .sweep found _ => decide (found ∈ s.swept)
    | .restoreHold hold _ => decide (s.reopened = some hold)
    | _ => true

/-- The record has been written. -/
def save (s : System) (t : Task) : System :=
  { s with task := t, seen := t :: s.seen, owner := if t.inFlight.isSome then s.owner else none }

/-- The fire that an admission lets in. -/
def newFire (s : System) (origin : Origin) (snapshot : Task) (fireToken minted : String)
    (alive : Bool) (now : Nat) : Fire where
  id := s.nextFire
  seq := snapshot.runCount + 1
  fireToken
  sessionUid := (persistentTarget snapshot alive).getD minted
  startedAt := now
  compact := isCompact snapshot origin.asCaller alive
  triggerSource := origin.asCaller.triggerSource
  scheduled := origin.scheduled && s.tick.any Task.exclusive

/-- A fire is in. -/
def letIn (s : System) (f : Fire) (t : Task) : System :=
  { s with
    task := t
    seen := t :: s.seen
    owner := some f
    fires := f :: s.fires
    nextFire := s.nextFire + 1 }

/-- The scheduler is through with this task for the tick. -/
def acted (s : System) : System := { s with tick := none }

/-- The scheduler thread's own state after one of its writes. -/
def afterWrite (s : System) (w : Write) : System :=
  match w with
  | .releaseHold hold now =>
    -- the hold is gone: the run has been reopened
    if s.task.recoveryHold = some hold ∧
        (releaseCapacityHold hold now s.task).recoveryHold = none then
      { (s.save (w.apply s.task)).acted with reopened := some hold }
    else (s.save (w.apply s.task)).acted
  | .restoreHold _ _ => { s.save (w.apply s.task) with reopened := none }
  | _ => s.save (w.apply s.task)

/-- One step of a fire, of the scheduler, or of any other writer. -/
def step (s : System) : Event → System
  | .tick => if s.reopened.isSome then s else { s with tick := some s.task, overtaken := false }
  | .arm origin snapshot fireToken minted alive now =>
    if s.mayAsk origin snapshot now then
      let f := s.newFire origin snapshot fireToken minted alive now
      match armContinuousFire snapshot fireToken f.sessionUid now s.task with
      | .ok t => if origin.scheduled then (s.letIn f t).acted else s.letIn f t
      | .error _ => s
    else s
  | .cleanUp f =>
    if f ∈ s.fires then { s.save (clearInFlight s.task) with fires := s.fires.erase f } else s
  | .record f =>
    if f ∈ s.fires then
      { s.save (recordFire f s.task) with
        fires := s.fires.erase f, recorded := f.seq :: s.recorded, overtaken := true }
    else s
  | .lose f => if f ∈ s.fires then { s with fires := s.fires.erase f } else s
  | .judge snapshot now =>
    if snapshot ∈ s.seen then
      let found := reconcileOrphans snapshot now fun uid => uid ∉ s.live
      { s with
        orphans := found.toList ++ s.orphans
        buried := (found.bind (·.sessionUid)).toList ++ s.buried }
    else s
  | .judgeStartup snapshot =>
    if snapshot ∈ s.seen then
      let found := startupOrphanSweep snapshot fun uid => uid ∈ s.live
      { s with
        swept := found.toList ++ s.swept
        buried := (found.bind (·.sessionUid)).toList ++ s.buried }
    else s
  | .write snapshot w => if s.mayWrite snapshot w then s.afterWrite w else s
  | .delivered => { s with reopened := none }
  | .spawned uid => { s with live := uid :: s.live }
  | .died uid => { s with live := s.live.filter (· ≠ uid) }
  | .crash =>
    { s with
      seen := [s.task], fires := [], orphans := [], swept := [], tick := none, overtaken := false
      reopened := none }

/-- The guard as the lease of the fires in progress. -/
def lease (s : System) : Lease Fire := ⟨s.owner, s.fires⟩

/-- The guard on record is that of the fire that set it. -/
def Synced (s : System) : Prop := s.task.inFlight = s.owner.map Fire.guard

variable {s s' : System} {e : Event}

/-! ## What a writer's step leaves behind -/

/-- A writer changes the record, and nothing that a fire has. -/
theorem afterWrite_eq (s : System) (w : Write) :
    ∃ tick reopened, s.afterWrite w = { s.save (w.apply s.task) with tick, reopened } := by
  unfold afterWrite
  split
  · split <;> exact ⟨_, _, rfl⟩
  · exact ⟨_, _, rfl⟩
  · exact ⟨_, _, rfl⟩

@[simp] theorem afterWrite_task (w : Write) : (s.afterWrite w).task = w.apply s.task := by
  obtain ⟨tick, reopened, h⟩ := s.afterWrite_eq w
  rw [h]
  rfl

@[simp] theorem afterWrite_owner (w : Write) :
    (s.afterWrite w).owner = if (w.apply s.task).inFlight.isSome then s.owner else none := by
  obtain ⟨tick, reopened, h⟩ := s.afterWrite_eq w
  rw [h]
  rfl

@[simp] theorem afterWrite_fires (w : Write) : (s.afterWrite w).fires = s.fires := by
  obtain ⟨tick, reopened, h⟩ := s.afterWrite_eq w
  rw [h]
  rfl

@[simp] theorem afterWrite_seen (w : Write) :
    (s.afterWrite w).seen = w.apply s.task :: s.seen := by
  obtain ⟨tick, reopened, h⟩ := s.afterWrite_eq w
  rw [h]
  rfl

@[simp] theorem afterWrite_recorded (w : Write) : (s.afterWrite w).recorded = s.recorded := by
  obtain ⟨tick, reopened, h⟩ := s.afterWrite_eq w
  rw [h]
  rfl

@[simp] theorem afterWrite_overtaken (w : Write) : (s.afterWrite w).overtaken = s.overtaken := by
  obtain ⟨tick, reopened, h⟩ := s.afterWrite_eq w
  rw [h]
  rfl

@[simp] theorem afterWrite_found (w : Write) :
    (s.afterWrite w).orphans = s.orphans ∧ (s.afterWrite w).swept = s.swept := by
  obtain ⟨tick, reopened, h⟩ := s.afterWrite_eq w
  rw [h]
  exact ⟨rfl, rfl⟩

/-- All that a step can be. -/
inductive Stepped (s : System) : Event → System → Prop
  | quiet (e : Event) (live : List String) : Stepped s e { s with live }
  | tick : Stepped s .tick { s with tick := some s.task, overtaken := false }
  | arm (origin : Origin) (snapshot : Task) (fireToken minted : String) (alive : Bool) (now : Nat)
      (t : Task) (s' : System) (may : s.mayAsk origin snapshot now = true)
      (armed : armContinuousFire snapshot fireToken
        (s.newFire origin snapshot fireToken minted alive now).sessionUid now s.task = .ok t)
      (eq : s' = if origin.scheduled then
          (s.letIn (s.newFire origin snapshot fireToken minted alive now) t).acted
        else s.letIn (s.newFire origin snapshot fireToken minted alive now) t) :
      Stepped s (.arm origin snapshot fireToken minted alive now) s'
  | cleanUp (f : Fire) (mem : f ∈ s.fires) :
      Stepped s (.cleanUp f) { s.save (clearInFlight s.task) with fires := s.fires.erase f }
  | record (f : Fire) (mem : f ∈ s.fires) :
      Stepped s (.record f) { s.save (recordFire f s.task) with
        fires := s.fires.erase f, recorded := f.seq :: s.recorded, overtaken := true }
  | lose (f : Fire) (mem : f ∈ s.fires) : Stepped s (.lose f) { s with fires := s.fires.erase f }
  | judge (snapshot : Task) (now : Nat) (read : snapshot ∈ s.seen) :
      Stepped s (.judge snapshot now) { s with
        orphans := (reconcileOrphans snapshot now fun uid => uid ∉ s.live).toList ++ s.orphans
        buried := ((reconcileOrphans snapshot now fun uid => uid ∉ s.live).bind
          (·.sessionUid)).toList ++ s.buried }
  | judgeStartup (snapshot : Task) (read : snapshot ∈ s.seen) :
      Stepped s (.judgeStartup snapshot) { s with
        swept := (startupOrphanSweep snapshot fun uid => uid ∈ s.live).toList ++ s.swept
        buried := ((startupOrphanSweep snapshot fun uid => uid ∈ s.live).bind
          (·.sessionUid)).toList ++ s.buried }
  | write (snapshot : Task) (w : Write) (may : s.mayWrite snapshot w = true) :
      Stepped s (.write snapshot w) (s.afterWrite w)
  | delivered : Stepped s .delivered { s with reopened := none }
  | crash : Stepped s .crash { s with
      seen := [s.task], fires := [], orphans := [], swept := [], tick := none, overtaken := false
      reopened := none }

/-- A step is one of these. -/
theorem stepped (s : System) (e : Event) : Stepped s e (s.step e) := by
  cases e with
  | tick =>
    dsimp only [step]
    split
    · exact .quiet _ s.live
    · exact .tick
  | arm origin snapshot fireToken minted alive now =>
    dsimp only [step]
    split
    · next may =>
      split
      · next t armed => exact .arm origin snapshot fireToken minted alive now t _ may armed rfl
      · exact .quiet _ s.live
    · exact .quiet _ s.live
  | cleanUp f =>
    dsimp only [step]
    split
    · next mem => exact .cleanUp f mem
    · exact .quiet _ s.live
  | record f =>
    dsimp only [step]
    split
    · next mem => exact .record f mem
    · exact .quiet _ s.live
  | lose f =>
    dsimp only [step]
    split
    · next mem => exact .lose f mem
    · exact .quiet _ s.live
  | judge snapshot now =>
    dsimp only [step]
    split
    · next read => exact .judge snapshot now read
    · exact .quiet _ s.live
  | judgeStartup snapshot =>
    dsimp only [step]
    split
    · next read => exact .judgeStartup snapshot read
    · exact .quiet _ s.live
  | write snapshot w =>
    dsimp only [step]
    split
    · next may => exact .write snapshot w may
    · exact .quiet _ s.live
  | delivered => exact .delivered
  | spawned uid => exact .quiet _ _
  | died uid => exact .quiet _ _
  | crash => exact .crash

/-! ## The guard is a lease -/

/-- The guard stays that of the fire that set it. -/
theorem Stepped.synced (hstep : Stepped s e s') (h : s.Synced) : s'.Synced := by
  unfold Synced at h ⊢
  cases hstep with
  | quiet _ live => exact h
  | tick => exact h
  | judge snapshot now read => exact h
  | judgeStartup snapshot read => exact h
  | delivered => exact h
  | arm origin snapshot fireToken minted alive now t _ _ armed eq =>
    have ht : t.inFlight = some (s.newFire origin snapshot fireToken minted alive now).guard := by
      rw [(arm_ok armed).1]
      rfl
    rw [eq]
    split <;> exact ht
  | cleanUp f mem => rfl
  | record f mem => rfl
  | lose f mem => exact h
  | write snapshot w may =>
    rw [afterWrite_task, afterWrite_owner]
    rcases w.apply_inFlight s.task with hkept | ⟨-, hnone⟩
    · rw [hkept, h]
      cases s.owner <;> rfl
    · rw [hnone]
      rfl
  | crash => exact h

/-- A withdrawal that finds a guard finds no fire in progress. -/
def NoFireUnderWithdrawal (s : System) : Event → Prop
  | .write _ w => w.withdraws = true → s.task.inFlight.isSome = true → s.fires = []
  | _ => True

/-- A step takes, gives back or loses the lease, or revokes it. -/
theorem Stepped.lease (hstep : Stepped s e s') (hsync : s.Synced)
    (hcalm : s.NoFireUnderWithdrawal e) : Lease.Step s.lease s'.lease := by
  unfold Synced at hsync
  cases hstep with
  | quiet _ live => exact .idle s.lease
  | tick => exact .idle s.lease
  | judge snapshot now read => exact .idle s.lease
  | judgeStartup snapshot read => exact .idle s.lease
  | delivered => exact .idle s.lease
  | arm origin snapshot fireToken minted alive now t _ _ armed eq =>
    have hfree : s.lease.holder = none := by
      have hin := (arm_ok armed).2.1
      rw [hsync, Option.map_eq_none_iff] at hin
      exact hin
    have heq : s'.lease = s.lease.take (s.newFire origin snapshot fireToken minted alive now) := by
      rw [eq]
      split <;> rfl
    rw [heq]
    exact .take _ _ hfree
  | cleanUp f mem => exact .finish f s.lease mem
  | record f mem => exact .finish f s.lease mem
  | lose f mem => exact .lose f s.lease mem
  | write snapshot w may =>
    show Lease.Step s.lease ⟨(s.afterWrite w).owner, (s.afterWrite w).fires⟩
    rw [afterWrite_owner, afterWrite_fires]
    rcases w.apply_inFlight s.task with hkept | ⟨hw, hnone⟩
    · -- the guard is as it was, and so is its owner
      have heq : (if (w.apply s.task).inFlight.isSome then s.owner else none) = s.owner := by
        rw [hkept, hsync]
        cases s.owner <;> rfl
      rw [heq]
      exact .idle s.lease
    · rw [hnone]
      by_cases hguard : s.task.inFlight.isSome = true
      · exact .revoke s.lease (hcalm hw hguard)
      · have howner : s.owner = none := by
          rw [hsync] at hguard
          simpa using hguard
        have heq : (⟨none, s.fires⟩ : Lease Fire) = s.lease := by rw [System.lease, howner]
        show Lease.Step s.lease ⟨none, s.fires⟩
        rw [heq]
        exact .idle s.lease
  | crash => exact .crash s.lease

end System

/-! ## A task and its first fire -/

/-- A fresh task with a runtime budget. -/
def budgetTask : Task :=
  { Task.new "triage" "/w" .claude .fresh (.periodic 3600) with maxRuntimeSecs := some 600 }

/-- Its first fire, asked for by an operator. -/
def firstFire : Fire := ⟨0, 1, "f1", "s1", 1000, false, "operator", false⟩

/-- The task with its first run on record. -/
def ranTask : Task := recordFire firstFire { budgetTask with inFlight := some firstFire.guard }

end Continuous
