import Mathlib
import ClaudeManager.Continuous.Admissions
import ClaudeManager.Continuous.Queue

/-!
# Staged batches

A fire of a consumer task claims items from a queue, stages them in a file of the worktree, hands
its prompt to a session, records its run and acknowledges the items. Each of these is a step of
its own, and each can fail.

* `protectedBatchSeqs`, `pruneStagedBatches` — the retention of staged files
* `Carried` — a fire at work, with what it has got so far
* `Consumer`, `Consumer.Event`, `Consumer.step` — the task, the queue, the files and the fires
* `Task.NeedsBatch` — the runs whose file is still needed
-/

namespace Continuous

open Program

/-! ## The files of the worktree -/

/-- A staged batch file `batch-<seq>.json`, with the items it lists. -/
structure StagedBatch where
  seq : Nat
  queue : String
  items : List String
  deriving DecidableEq

/-- Write the file of its number, over the one that is there. -/
def StagedBatch.write (b : StagedBatch) (files : List StagedBatch) : List StagedBatch :=
  b :: files.filter fun old => old.seq ≠ b.seq

/-- Batch numbers that must survive a prune no matter how old they are. -/
def protectedBatchSeqs (task : Task) (stagingSeq : Nat) : List Nat :=
  stagingSeq ::
    (((task.lastRun.filter fun run => run.status = .running).map (·.seq)).toList ++
      (task.accountBlocked.map (·.runSeq)).toList)

/-- Keep the newest files and the protected ones; `keep = 0` disables pruning. -/
def pruneStagedBatches (keep : Nat) (protectedSeqs : List Nat) (files : List StagedBatch) :
    List StagedBatch :=
  if keep = 0 then files
  else if files.length ≤ keep then files
  else
    let doomed := ((files.insertionSort fun a b => b.seq ≤ a.seq).drop keep).filter fun b =>
      b.seq ∉ protectedSeqs
    files.filter fun b => b ∉ doomed

/-- A run whose agent may still read its batch, or whose batch a recovery may need. -/
def Task.NeedsBatch (t : Task) (seq : Nat) : Prop :=
  (∃ run, t.lastRun = some run ∧ run.status = .running ∧ run.seq = seq) ∨
    (∃ block, t.accountBlocked = some block ∧ block.runSeq = seq) ∨
    ∃ hold, t.recoveryHold = some hold ∧ hold.runSeq = seq

/-! ## Fires at work -/

/-- How far a fire has come. -/
inductive Stage where
  | admitted
  | claimed
  | staged
  | spawned
  | handedOver
  /-- Through with its record; the acknowledgement is left. -/
  | finished
  /-- Failed; the items it has claimed are to be released. -/
  | releasing
  /-- Failed; the guard is to be cleared. -/
  | failing
  deriving DecidableEq

/-- The steps before the record of the run, or the clean-up. -/
def Stage.working : Stage → Bool
  | .finished => false
  | _ => true

/-- The fire has failed. -/
def Stage.failed : Stage → Bool
  | .releasing | .failing => true
  | _ => false

/-- The batch file has been written. -/
def Stage.hasFile : Stage → Bool
  | .staged | .spawned | .handedOver | .finished => true
  | _ => false

/-- The prompt has been handed over. -/
def Stage.hasPrompt : Stage → Bool
  | .handedOver | .finished => true
  | _ => false

/-- A fire at work, with the record it was decided on and what it has got so far. -/
structure Carried where
  fire : Fire
  snapshot : Task
  /-- The fire goes to the pinned session, which it found alive. -/
  pinned : Bool
  /-- The items that the service has claimed for it. -/
  ids : List String
  stage : Stage
  deriving DecidableEq

/-- The queue a fire claims from, and how many items: a compaction claims nothing. -/
def Carried.batch (c : Carried) : Option (String × Nat) :=
  if c.fire.compact then none
  else
    match c.snapshot.schedule with
    | .consumer queue batchMax _ _ => some (queue, max batchMax 1)
    | _ => none

/-- Who the items are claimed by. -/
def Carried.claimedBy (c : Carried) : String := c.snapshot.taskId ++ "#" ++ toString c.fire.seq

/-- The queue of a fire's items. -/
def Carried.queue (c : Carried) : String := (c.batch.map (·.1)).getD ""

/-! ## The whole of a consumer -/

/-- A task, its queue, the staged files and the fires at work, and what has been done so far. -/
structure Consumer where
  sys : System
  queue : QueueStore
  files : List StagedBatch
  /-- `consumer_batch_keep` of the configuration. -/
  keep : Nat
  carried : List Carried
  /-- The files that have been written, with the fire that wrote them. -/
  staged : List (Fire × List String)
  /-- The fires whose prompt went to a delivery for a session that was live. -/
  handed : List Fire
  /-- The fires whose run has been recorded. -/
  recorded : List Fire

/-- A daemon that has just loaded the record. -/
def Consumer.start (task : Task) (queue : QueueStore) (files : List StagedBatch) (keep : Nat) :
    Consumer where
  sys := .start task
  queue
  files
  keep
  carried := []
  staged := []
  handed := []
  recorded := []

namespace Consumer

inductive Event where
  /-- A step of the scheduler, of a session, or of another writer. -/
  | task (e : Continuous.Event)
  | admitFire (origin : Origin) (snapshot : Task) (fireToken minted : String) (alive : Bool) (now : Nat)
  /-- The claim, which may not reach the service or whose answer may be lost. -/
  | claim (c : Carried) (reached answered : Bool)
  /-- The file, which may not be opened or not be written, and the prune. -/
  | stage (c : Carried) (opened written listed : Bool)
  | spawn (c : Carried) (ok : Bool)
  /-- The prompt goes to the session's delivery, if the session is in the registry. -/
  | handOver (c : Carried) (registered : Bool)
  | record (c : Carried) (saved : Bool)
  | acknowledge (c : Carried) (reached : Bool)
  | release (c : Carried) (reached : Bool)
  | clear (c : Carried) (saved : Bool)
  /-- Somebody else's request to the service. -/
  | outside (op : QueueOp)
  /-- The daemon dies, and starts again on the record it finds. -/
  | crash

variable (s : Consumer)

/-- The fire has come further. -/
def replace (c c' : Carried) : Consumer := { s with carried := c' :: s.carried.erase c }

/-- The fire is through. -/
def drop (c : Carried) : Consumer := { s with carried := s.carried.erase c }

/-- What a fire brings along when it is admitted. -/
def newCarried (origin : Origin) (snapshot : Task) (fireToken minted : String) (alive : Bool)
    (now : Nat) : Carried where
  fire := s.sys.newFire origin snapshot fireToken minted alive now
  snapshot
  pinned := (persistentTarget snapshot alive).isSome
  ids := []
  stage := .admitted

/-- A fire may take its next step. -/
def At (c : Carried) (stage : Stage) : Prop := c ∈ s.carried ∧ c.stage = stage

instance (c : Carried) (stage : Stage) : Decidable (s.At c stage) := instDecidableAnd

/-- The fire may hand its prompt over: its session is the pinned one, or has been spawned. -/
def ReadyToHand (c : Carried) : Prop := s.At c .spawned ∨ c.pinned = true ∧ s.At c .staged

instance (c : Carried) : Decidable (s.ReadyToHand c) := instDecidableOr

/-- The staged file and the retention of the others. -/
def writeBatch (c : Carried) (listed : Bool) : List StagedBatch :=
  let files := StagedBatch.write ⟨c.fire.seq, c.queue, c.ids⟩ s.files
  if listed then pruneStagedBatches s.keep (protectedBatchSeqs c.snapshot c.fire.seq) files
  else files

/-- One step of a fire or of anybody else. -/
def step (s : Consumer) : Event → Consumer
  | .task e => if e.aside then { s with sys := s.sys.step e } else s
  | .admitFire origin snapshot fireToken minted alive now =>
    let sys := s.sys.step (.arm origin snapshot fireToken minted alive now)
    if sys.nextFire = s.sys.nextFire then { s with sys }
    else
      { s with
        sys
        carried := s.newCarried origin snapshot fireToken minted alive now :: s.carried }
  | .claim c reached answered =>
    if s.At c .admitted then
      match c.batch with
      | none => s.replace c { c with stage := .staged }
      | some (queue, maxItems) =>
        if reached then
          let claim := s.queue.claimQueueItems queue maxItems c.claimedBy
          let ids := claim.1.map (·.id)
          { s.replace c { c with ids, stage := if answered then .claimed else .failing } with
            queue := claim.2 }
        else s.replace c { c with stage := .failing }
    else s
  | .stage c opened written listed =>
    if s.At c .claimed then
      if opened && written then
        { s.replace c { c with stage := .staged } with
          files := s.writeBatch c listed
          staged := (c.fire, c.ids) :: s.staged }
      else
        { s.replace c { c with stage := .releasing } with
          files := if opened then StagedBatch.write ⟨c.fire.seq, c.queue, []⟩ s.files else s.files }
    else s
  | .spawn c ok =>
    if s.At c .staged ∧ c.pinned = false then
      if ok then
        { s.replace c { c with stage := .spawned } with
          sys := s.sys.step (.spawned c.fire.sessionUid) }
      else s.replace c { c with stage := .releasing }
    else s
  | .handOver c registered =>
    if s.ReadyToHand c then
      let live := decide (c.fire.sessionUid ∈ s.sys.live)
      -- a pinned session's handle was taken with the probe, a spawned one's is looked up now
      let delivered := c.pinned || registered || live
      { s.replace c { c with stage := .handedOver } with
        handed := if delivered && live then c.fire :: s.handed else s.handed }
    else s
  | .record c saved =>
    if s.At c .handedOver then
      if saved then
        { s.replace c { c with stage := .finished } with
          sys := s.sys.step (.record c.fire)
          recorded := c.fire :: s.recorded }
      else
        { s.replace c { c with stage := .finished } with sys := s.sys.step (.lose c.fire) }
    else s
  | .acknowledge c reached =>
    if s.At c .finished then
      { s.drop c with queue := if reached then s.queue.ackQueueItems c.queue c.ids else s.queue }
    else s
  | .release c reached =>
    if s.At c .releasing then
      { s.replace c { c with stage := .failing } with
        queue := if reached then s.queue.requeueQueueItems c.queue (some c.ids) else s.queue }
    else s
  | .clear c saved =>
    if s.At c .failing then
      { s.drop c with sys := s.sys.step (if saved then .cleanUp c.fire else .lose c.fire) }
    else s
  | .outside op => { s with queue := op.apply s.queue }
  | .crash => { s with sys := s.sys.step .crash, carried := [] }

end Consumer

end Continuous
