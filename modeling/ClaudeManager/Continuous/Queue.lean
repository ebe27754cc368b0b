import Mathlib

/-!
# Named queues

The rows of the queue service and what its operations do to them. Each operation is one
transaction.

* `claimQueueItems`, `ackQueueItems`, `requeueQueueItems` — the life of a claim
* `recoverQueueItem` — a reconciled item goes back once for each recovery key
* `QueueOp`, `apply_claimed`, `apply_unconsumed` — what anybody can ask of the service, and what
  it does to claimed and to unconsumed rows
-/

namespace Continuous

inductive ItemState where
  | pending
  | claimed
  | consumed
  deriving DecidableEq

/-- A row of `queue_items`. -/
structure QueueItem where
  id : String
  queue : String
  payload : String
  dedupeKey : Option String
  source : Option String
  enqueuedAt : Nat
  state : ItemState
  claimedBy : Option String
  deriving DecidableEq

/-- A row of `queue_recovery_receipts`. -/
structure RecoveryReceipt where
  queue : String
  recoveryKey : String
  itemId : String
  claimedBy : String
  deriving DecidableEq

structure QueueStore where
  items : List QueueItem
  receipts : List RecoveryReceipt
  deriving DecidableEq

namespace QueueStore

/-- The partial unique index: the key is taken by a row that is not consumed. -/
def dedupes (q : QueueStore) (queue : String) (dedupeKey : Option String) (id : String) : Bool :=
  dedupeKey.isSome && q.items.any fun i =>
    decide (i.id ≠ id ∧ i.queue = queue ∧ i.dedupeKey = dedupeKey ∧ i.state ≠ .consumed)

/-- Change the rows that are named. -/
def update (ids : List String) (f : QueueItem → QueueItem) (q : QueueStore) : QueueStore :=
  { q with items := q.items.map fun i => if i.id ∈ ids then f i else i }

def enqueueQueueItem (item : QueueItem) (q : QueueStore) : QueueStore :=
  if item.id ∈ q.items.map (·.id) ∨ q.dedupes item.queue item.dedupeKey item.id then q
  else { q with items := q.items ++ [{ item with state := .pending, claimedBy := none }] }

/-- The oldest pending rows of a queue, up to `maxItems`. -/
def oldestPending (queue : String) (maxItems : Nat) (q : QueueStore) : List QueueItem :=
  ((q.items.filter fun i => decide (i.queue = queue ∧ i.state = .pending)).insertionSort
    fun a b => a.enqueuedAt ≤ b.enqueuedAt).take maxItems

/-- Claim up to `maxItems` of the oldest pending rows. -/
def claimQueueItems (queue : String) (maxItems : Nat) (claimedBy : String) (q : QueueStore) :
    List QueueItem × QueueStore :=
  let picked := q.oldestPending queue maxItems
  (picked, q.update (picked.map (·.id)) fun i =>
    { i with state := .claimed, claimedBy := some claimedBy })

/-- claimed → consumed for the given ids. -/
def ackQueueItems (queue : String) (ids : List String) (q : QueueStore) : QueueStore :=
  q.update ids fun i =>
    if i.queue = queue ∧ i.state = .claimed then { i with state := .consumed } else i

/-- claimed → pending for the given ids, or for all of the queue. -/
def requeueQueueItems (queue : String) (ids : Option (List String)) (q : QueueStore) :
    QueueStore :=
  q.update (ids.getD (q.items.map (·.id))) fun i =>
    if i.queue = queue ∧ i.state = .claimed then { i with state := .pending, claimedBy := none }
    else i

/-- The answers of a recovery, and the refusals. -/
inductive Recovered where
  | recovered
  | alreadyRecovered
  | otherReceipt
  | notConsumed
  | deduplicated
  deriving DecidableEq

/-- Restore one reconciled consumed item, once for this recovery identity. -/
def recoverQueueItem (queue itemId claimedBy recoveryKey : String) (q : QueueStore) :
    Recovered × QueueStore :=
  match q.receipts.find? fun r => decide (r.queue = queue ∧ r.recoveryKey = recoveryKey) with
  | some receipt =>
    if receipt.itemId ≠ itemId ∨ receipt.claimedBy ≠ claimedBy then (.otherReceipt, q)
    else (.alreadyRecovered, q)
  | none =>
    match q.items.find? fun i => decide (i.queue = queue ∧ i.id = itemId) with
    | none => (.notConsumed, q)
    | some row =>
      if row.state ≠ .consumed ∨ row.claimedBy ≠ some claimedBy then (.notConsumed, q)
      else if q.dedupes queue row.dedupeKey itemId then (.deduplicated, q)
      else
        (.recovered,
          { q.update [itemId] (fun i =>
              if i.queue = queue then { i with state := .pending, claimedBy := none } else i) with
            receipts := ⟨queue, recoveryKey, itemId, claimedBy⟩ :: q.receipts })

/-! ## The rows under a name -/

/-- All rows of that name are in one of these states. -/
def Only (q : QueueStore) (id : String) (p : ItemState → Prop) : Prop :=
  ∀ i ∈ q.items, i.id = id → p i.state

/-- There is a row of that name, and it is consumed. -/
def Consumed (q : QueueStore) (id : String) : Prop :=
  ∃ i ∈ q.items, i.id = id ∧ i.state = .consumed

variable {q : QueueStore} {id queue : String} {ids : List String}

theorem not_consumed_iff : ¬ q.Consumed id ↔ q.Only id (· ≠ .consumed) := by
  unfold Consumed Only
  push Not
  exact Iff.rfl

/-- A row after an update was there before, and is changed only where it is named. -/
theorem mem_update {f : QueueItem → QueueItem} {i : QueueItem}
    (h : i ∈ (q.update ids f).items) :
    ∃ j ∈ q.items, i = if j.id ∈ ids then f j else j := by
  obtain ⟨j, hj, rfl⟩ := List.mem_map.mp h
  exact ⟨j, hj, rfl⟩

/-- An update that keeps names leaves the rows under other names alone. -/
theorem update_only {f : QueueItem → QueueItem} {p : ItemState → Prop}
    (hid : ∀ i, (f i).id = i.id) (h : q.Only id p)
    (hf : id ∈ ids → ∀ i, i.id = id → p i.state → p (f i).state) : (q.update ids f).Only id p := by
  intro i hi hname
  obtain ⟨j, hj, rfl⟩ := mem_update hi
  split at hname
  · next hmem =>
    rw [hid] at hname
    rw [if_pos hmem]
    exact hf (hname ▸ hmem) j hname (h j hj hname)
  · next hmem =>
    rw [if_neg hmem]
    exact h j hj hname

/-- An update names no new rows, and forgets none. -/
theorem update_names {f : QueueItem → QueueItem} (hid : ∀ i, (f i).id = i.id) :
    (q.update ids f).items.map (·.id) = q.items.map (·.id) := by
  rw [update, List.map_map]
  refine List.map_congr_left fun i _ => ?_
  rw [Function.comp_apply]
  split
  · exact hid i
  · rfl

/-! ## What the operations do to them -/

theorem mem_oldestPending {maxItems : Nat} {i : QueueItem}
    (h : i ∈ q.oldestPending queue maxItems) :
    i ∈ q.items ∧ i.queue = queue ∧ i.state = .pending := by
  have hmem := List.mem_of_mem_take h
  rw [List.mem_insertionSort, List.mem_filter, decide_eq_true_eq] at hmem
  exact hmem

/-- A row that is not pending is not picked. -/
theorem claim_not_picked {maxItems : Nat} (h : q.Only id (· ≠ .pending)) :
    id ∉ (q.oldestPending queue maxItems).map (·.id) := by
  intro hmem
  obtain ⟨i, hi, hname⟩ := List.mem_map.mp hmem
  obtain ⟨hitem, -, hpending⟩ := mem_oldestPending hi
  exact h i hitem hname hpending

theorem claim_only {maxItems : Nat} {by' : String} {p : ItemState → Prop} (h : q.Only id p)
    (hp : id ∈ (q.oldestPending queue maxItems).map (·.id) → p .claimed) :
    (q.claimQueueItems queue maxItems by').2.Only id p :=
  update_only (fun _ => rfl) h fun hmem _ _ _ => hp hmem

/-- What has been picked is claimed. -/
theorem claim_claimed {maxItems : Nat} {by' : String}
    (h : id ∈ (q.oldestPending queue maxItems).map (·.id)) :
    (q.claimQueueItems queue maxItems by').2.Only id (· = .claimed) := by
  intro i hi hname
  obtain ⟨j, hj, rfl⟩ := mem_update hi
  split at hname
  · next hmem => rw [if_pos hmem]
  · next hmem => exact absurd (hname ▸ h) hmem

/-- The names of the rows that are picked are names of rows. -/
theorem picked_names {maxItems : Nat} (h : id ∈ (q.oldestPending queue maxItems).map (·.id)) :
    id ∈ q.items.map (·.id) := by
  obtain ⟨i, hi, rfl⟩ := List.mem_map.mp h
  exact List.mem_map_of_mem (mem_oldestPending hi).1

theorem ack_only {p : ItemState → Prop} (h : q.Only id p) (hid : id ∉ ids) :
    (q.ackQueueItems queue ids).Only id p :=
  update_only (fun i => by split <;> rfl) h fun hmem => absurd hmem hid

/-- Giving claimed rows back leaves nothing more consumed. -/
theorem requeue_unconsumed {named : Option (List String)} (h : q.Only id (· ≠ .consumed)) :
    (q.requeueQueueItems queue named).Only id (· ≠ .consumed) := by
  refine update_only (fun i => by split <;> rfl) h fun _ i _ hi => ?_
  split
  · nofun
  · exact hi

theorem requeue_only {p : ItemState → Prop} (h : q.Only id p) (hid : id ∉ ids) :
    (q.requeueQueueItems queue (some ids)).Only id p :=
  update_only (fun i => by split <;> rfl) h fun hmem => absurd hmem hid

theorem recover_only {itemId by' key : String} {p : ItemState → Prop}
    (hp : ∀ state, p state → state ≠ .consumed) (h : q.Only id p) :
    (q.recoverQueueItem queue itemId by' key).2.Only id p := by
  unfold recoverQueueItem
  split
  · split <;> exact h
  · split
    · exact h
    · next row hrow =>
      have hfound := List.find?_some hrow
      rw [decide_eq_true_eq] at hfound
      split
      · exact h
      next hstate =>
      split
      · exact h
      · refine update_only (fun i => by split <;> rfl) h fun hmem => ?_
        -- the row that is restored was consumed
        rw [List.mem_singleton] at hmem
        push Not at hstate
        have hrowp := h row (List.mem_of_find?_eq_some hrow) (hfound.2.trans hmem.symm)
        exact absurd hstate.1 (hp _ hrowp)

theorem enqueue_only {item : QueueItem} {p : ItemState → Prop} (h : q.Only id p)
    (hp : id ∈ q.items.map (·.id) ∨ p .pending) : (q.enqueueQueueItem item).Only id p := by
  unfold enqueueQueueItem
  split
  · exact h
  next hfresh =>
  push Not at hfresh
  intro i hi hname
  rcases List.mem_append.mp hi with hold | hnew
  · exact h i hold hname
  · rw [List.mem_singleton] at hnew
    subst hnew
    rcases hp with hmem | hpending
    · exact absurd (hname ▸ hmem) hfresh.1
    · exact hpending

end QueueStore

/-! ## Requests to the service -/

/-- What anybody can ask of the service. -/
inductive QueueOp where
  | enqueue (item : QueueItem)
  | claim (queue : String) (maxItems : Nat) (claimedBy : String)
  | ack (queue : String) (ids : List String)
  | requeue (queue : String) (ids : Option (List String))
  | recover (queue itemId claimedBy recoveryKey : String)

namespace QueueOp

open QueueStore

def apply : QueueOp → QueueStore → QueueStore
  | .enqueue item, q => q.enqueueQueueItem item
  | .claim queue maxItems claimedBy, q => (q.claimQueueItems queue maxItems claimedBy).2
  | .ack queue ids, q => q.ackQueueItems queue ids
  | .requeue queue ids, q => q.requeueQueueItems queue ids
  | .recover queue itemId claimedBy key, q => (q.recoverQueueItem queue itemId claimedBy key).2

/-- A request that ends the claim on a row. -/
def EndsClaim (id : String) : QueueOp → Prop
  | .ack _ ids => id ∈ ids
  | .requeue _ ids => ∀ named, ids = some named → id ∈ named
  | _ => False

variable {q : QueueStore} {id : String}

/-- A request forgets no row. -/
theorem apply_names (op : QueueOp) (h : id ∈ q.items.map (·.id)) :
    id ∈ (op.apply q).items.map (·.id) := by
  cases op with
  | enqueue item =>
    show id ∈ (q.enqueueQueueItem item).items.map (·.id)
    unfold enqueueQueueItem
    split
    · exact h
    · rw [List.map_append]
      exact List.mem_append_left _ h
  | claim queue maxItems by' =>
    show id ∈ (q.claimQueueItems queue maxItems by').2.items.map (·.id)
    unfold claimQueueItems
    rw [update_names (by exact fun _ => rfl)]
    exact h
  | ack queue ids =>
    show id ∈ (q.ackQueueItems queue ids).items.map (·.id)
    unfold ackQueueItems
    rw [update_names (fun i => by split <;> rfl)]
    exact h
  | requeue queue ids =>
    show id ∈ (q.requeueQueueItems queue ids).items.map (·.id)
    unfold requeueQueueItems
    rw [update_names (fun i => by split <;> rfl)]
    exact h
  | recover queue itemId by' key =>
    show id ∈ (q.recoverQueueItem queue itemId by' key).2.items.map (·.id)
    unfold recoverQueueItem
    split
    · split <;> exact h
    · split
      · exact h
      split
      · exact h
      split
      · exact h
      · show id ∈ (q.update _ _).items.map (·.id)
        rw [update_names (fun i => by split <;> rfl)]
        exact h

/-- A claimed row stays claimed until a request ends the claim. -/
theorem apply_claimed (op : QueueOp) (hname : id ∈ q.items.map (·.id))
    (h : q.Only id (· = .claimed)) (hends : ¬ op.EndsClaim id) :
    (op.apply q).Only id (· = .claimed) := by
  cases op with
  | enqueue item => exact enqueue_only h (.inl hname)
  | claim queue maxItems by' => exact claim_only h fun _ => rfl
  | ack queue ids => exact ack_only h hends
  | requeue queue ids =>
    cases ids with
    | none => exact absurd (fun _ hn => by cases hn) hends
    | some named =>
      exact requeue_only h fun hmem => hends fun other hother => Option.some.inj hother ▸ hmem
  | recover queue itemId by' key =>
    exact recover_only (fun state hstate => by rw [hstate]; nofun) h

/-- A row is consumed only by an acknowledgement that names it. -/
theorem apply_unconsumed (op : QueueOp) (h : q.Only id (· ≠ .consumed))
    (hack : ∀ queue ids, op = .ack queue ids → id ∉ ids) :
    (op.apply q).Only id (· ≠ .consumed) := by
  cases op with
  | enqueue item => exact enqueue_only h (.inr nofun)
  | claim queue maxItems by' => exact claim_only h fun _ => nofun
  | ack queue ids => exact ack_only h (hack queue ids rfl)
  | requeue queue ids => exact requeue_unconsumed h
  | recover queue itemId by' key => exact recover_only (fun _ hstate => hstate) h

end QueueOp

end Continuous
