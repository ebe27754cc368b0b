import ClaudeManager.Messaging.Read

/-!
# Monitors

Watches on conversations: how they are registered and scanned for hits, how their results are paged, and
how pages are acknowledged.
-/

namespace ClaudeManager

open Json Containers Program

/-- A store with everyone's watches, and the digests of the result pages that were given out. -/
structure Watching where
  store : Store
  watchers : Watchers := {}
  receipts : Map StrSet := ∅

/-- An operation on watches. What it did before it failed stays done. -/
abbrev WatchAction (α : Type) := EStateM ChatError Watching α

/-- A participant's watch with this ID. -/
def Watchers.monitor (w : Watchers) (actor id : String) : Option Monitor :=
  w.personal[actor]?.bind fun p => p.monitors[id]?

/-- Change what a participant watches. -/
def Watchers.update (w : Watchers) (actor : String) (f : Map Monitor → Map Monitor) : Watchers :=
  { w with
    personal := upsert w.personal actor {} fun p => { p with monitors := f p.monitors } }

def Watching.monitor (w : Watching) (actor id : String) : Option Monitor := w.watchers.monitor actor id

/-- Every save of personal state starts so. -/
def Watching.savable (w : Watching) : Except ChatError PUnit := do
  w.store.ensureMessagingWritable
  w.store.notDegraded

/-- Save what a participant watches. -/
def savePersonal (actor : String) (f : Map Monitor → Map Monitor) : WatchAction PUnit := do
  query Watching.savable
  modify fun w => { w with watchers := w.watchers.update actor f }

/-! ## Scanning -/

/-- The next count of hits, which has 64 bits. -/
def nextHits (hits : Nat) : Except ChatError Nat :=
  if hits + 1 < 2 ^ 64 then pure (hits + 1)
  else throw (err "counter_overflow" "Monitor count exhausted")

namespace Store

/-- Owner's watches are scanned where the space is coordinated. -/
def scans (s : Store) (actor : String) : Bool :=
  !(actor = "owner" && s.replication.enabled && !s.isCoordinator)

/-- Count the hits among some events. A watch for one message is closed by it. -/
def scanEvents (s : Store) (w : Watchers) (actor : String) :
    List Published → Monitor → Except ChatError (Bool × Monitor)
  | [], m => pure (false, m)
  | e :: rest, m =>
    if s.monitorMatches w actor m e then do
      let hits ← nextHits m.hits
      let hit := { m with hits, hitHigh := e.position }
      if m.mode = .once then
        return (true, { hit with
          state := .matched, closingFence := some e.position, scanned := e.position })
      else s.scanEvents w actor rest hit
    else s.scanEvents w actor rest m

end Store

section

variable [Instants]

def parseInstant (text : String) : Except ChatError Int :=
  okOr (Instants.instant text)
    (err "invalid_time" "Use RFC3339 timestamps with an explicit timezone")

/-- The watch has run out by this time. -/
def Monitor.expired (m : Monitor) (clock : Int) : Except ChatError Bool :=
  match m.expiresAt with
  | none => pure false
  | some text => return decide ((← parseInstant text) ≤ clock)

/-- Scan what arrived since the last scan, up to the arrival at which the watch was closed. -/
def Store.scanMonitor (s : Store) (w : Watchers) (actor : String) (m : Monitor) (clock : Int) :
    Except ChatError (Bool × Monitor) := do
  if m.state ≠ .active ∨ ¬ s.taskMonitorCurrent actor m ∨ ¬ s.scans actor then return (false, m)
  let expired ← m.expired clock
  let fence := if expired then m.closingFence.or (some s.position) else m.closingFence
  let high := fence.getD s.position
  let found ← s.scanEvents w actor (s.eventsBetween m.scanned high) { m with closingFence := fence }
  if found.1 then return (true, found.2)
  return (decide (high ≠ m.scanned) || expired || decide (found.2.hits ≠ m.hits),
    { found.2 with scanned := high, state := if expired then .expired else found.2.state })

/-- What a scan changes of one watch. -/
def Watching.scanned (w : Watching) (owner : String) (clock : Int) (entry : String × Monitor) :
    Except ChatError (Option (String × Monitor)) := do
  if entry.2.state ≠ .active then return none
  let found ← w.store.scanMonitor w.watchers owner entry.2 clock
  return if found.1 then some (entry.1, found.2) else none

/-- Everything that a scan changes of what a participant watches. -/
def Watching.updates (w : Watching) (owner : String) (clock : Int) :
    Except ChatError (List (String × Monitor)) :=
  return (← (entryD w.watchers.personal owner {}).monitors.toList.mapM (w.scanned owner clock)).filterMap id

/-- Scan what one participant watches. -/
def advanceOwner (clock : Int) (owner : String) : WatchAction PUnit := do
  let updates ← query fun w => w.updates owner clock
  onlyIf (updates ≠ []) (savePersonal owner fun monitors => updates.foldl (fun m e => m.insert e.1 e.2) monitors)

def advanceMonitorsAt (clock : Int) : WatchAction PUnit := do
  let w ← get
  w.watchers.personal.keys.forM (advanceOwner clock)

/-! ## Registering -/

/-- What is asked of a new watch. Its scope, mode and end were read from the call. -/
structure WatchRequest where
  scope : Scope
  mode : MonitorMode
  notify : Notify
  includeSelf : Bool
  expiresAt : Option String
  start : Option Value

/-- A position that this replica gave out. -/
def Store.checkPosition (s : Store) (v : Value) : Except ChatError Nat := do
  refuse (v["space_id"] ≠ .str s.spaceId ∨ v["replica_id"] ≠ .str s.daemonId
      ∨ v["generation"] ≠ .str s.generation)
    (err "resync_required" "Position belongs to another replica or generation")
  okOr (v["position"].asU64.filter (· ≤ s.position)) (err "invalid_cursor" "Invalid position")

/-- The first position of a watch: the one that was given, else the current one. -/
def Store.startPosition (s : Store) (start : Option Value) : Except ChatError Nat :=
  match start.filter (· ≠ .null) with
  | some v => s.checkPosition v
  | none => pure s.position

def WatchRequest.monitor (r : WatchRequest) (id : String) (start : Nat) : Monitor where
  id
  scope := r.scope
  mode := r.mode
  notify := r.notify
  includeSelf := r.includeSelf
  expiresAt := r.expiresAt
  start
  scanned := start
  hitHigh := start
  acknowledged := start

def activeMonitors (monitors : Map Monitor) : Nat :=
  (monitors.values.filter fun m => m.state = .active).length

/-- Register a watch. Everything is scanned first, and the new watch last. -/
def registerMonitor (actor id : String) (r : WatchRequest) (clock later : Int) : WatchAction PUnit := do
  advanceMonitorsAt clock
  let w ← get
  refuse (64 ≤ activeMonitors (entryD w.watchers.personal actor {}).monitors)
    (err "monitor_limit" "At most 64 active monitors per participant")
  let start ← check (w.store.startPosition r.start)
  let found ← check (w.store.scanMonitor w.watchers actor (r.monitor id start) later)
  savePersonal actor fun monitors => monitors.insert id found.2

end

/-! ## Results -/

section

variable [Externals]

/-- A hit, as it is shown. -/
def resultItem (e : Published) : Value :=
  object [("id", e.event["id"]), ("conversation_id", e.event["conversation_id"]),
    ("actor", e.event["actor"]), ("created_at", e.event["created_at"]),
    ("received_at", .str e.receivedAt),
    ("preview", .str (String.ofList ((strv e.event "body").toList.take 180))),
    ("position", .num e.position)]

/-- The hits that one page has room for, after some of them. -/
def takeResults (limit : Nat) : List Published → Nat → Nat → List Published
  | [], _, _ => []
  | e :: rest, count, size =>
    let chars := (Externals.compact (resultItem e)).length
    if count = limit ∨ 14000 < size + chars then []
    else e :: takeResults limit rest (count + 1) (size + chars)

/-- A page of results, over an interval of arrivals. -/
structure ResultPage where
  hits : List Published
  start : Nat
  through : Nat
  nextCursor : Value
  receipt : Value

def ResultPage.items (page : ResultPage) : List Value := page.hits.map resultItem

namespace Store

def positionToken (s : Store) (position : Nat) : Value :=
  object [("space_id", .str s.spaceId), ("replica_id", .str s.daemonId),
    ("generation", .str s.generation), ("position", .num position)]

/-- What a page is acknowledged with. -/
def resultReceipt (s : Store) (actor id : String) (start through : Nat) : Value :=
  object [("actor", .str actor), ("space_id", .str s.spaceId), ("generation", .str s.generation),
    ("monitor_id", .str id), ("from", .num start), ("through", .num through)]

def resultCursor (s : Store) (actor id : String) (high through : Nat) (unacknowledged : Bool) : Value :=
  object [("kind", "monitor_results"), ("actor", .str actor), ("monitor_id", .str id),
    ("snapshot", s.positionToken high), ("last_position", .num through),
    ("unacknowledged_only", .bool unacknowledged)]

/-- The interval that a page is about: its end, and where it starts. -/
def resultRange (s : Store) (actor : String) (m : Monitor) (p : Value) : Except ChatError (Nat × Nat) :=
  match (p.get? "cursor").filter (· ≠ .null) with
  | some cursor => do
    refuse (cursor["kind"] ≠ "monitor_results" ∨ cursor["monitor_id"] ≠ .str m.id ∨ cursor["actor"] ≠ .str actor)
      (err "invalid_cursor" "Cursor belongs to another monitor")
    let high ← s.checkPosition cursor["snapshot"]
    let start ← okOr cursor["last_position"].asU64 (err "invalid_cursor" "Missing result offset")
    refuse (start < m.start ∨ high < start ∨ m.scanned < high
        ∨ cursor["unacknowledged_only"].asBool.getD false ≠ p["unacknowledged_only"].asBool.getD false)
      (err "invalid_cursor" "Invalid result range")
    return (high, start)
  | none =>
    pure (m.scanned, if p["unacknowledged_only"] = .bool true then m.acknowledged else m.start)

/-- The hits of an interval. -/
def hitsBetween (s : Store) (w : Watchers) (actor : String) (m : Monitor) (start high : Nat) :
    List Published :=
  s.events.filter fun e => start < e.position && e.position ≤ high && e.position ≤ m.hitHigh
    && s.monitorMatches w actor m e

def monitorResults (s : Store) (w : Watchers) (actor : String) (m : Monitor) (p : Value) :
    Except ChatError ResultPage := do
  let range ← s.resultRange actor m p
  let matching := s.hitsBetween w actor m range.2 range.1
  let hits := takeResults (min (max (p["limit"].asU64.getD 50) 1) 200) matching 0 0
  let more := decide (hits.length < matching.length)
  let through := if more then (hits.getLast?.map Published.position).getD range.2 else range.1
  return {
    hits, through
    start := range.2
    nextCursor :=
      if more then
        s.resultCursor actor m.id range.1 through (p["unacknowledged_only"].asBool.getD false)
      else .null
    receipt := s.resultReceipt actor m.id range.2 through }

end Store

/-! ## Operations -/

/-- The digest under which a receipt is remembered. -/
def receiptDigest (receipt : Value) : String := hash (Externals.compact receipt)

/-- Read one page of results. It can be acknowledged from then on. -/
def getResults (actor : String) (m : Monitor) (p : Value) : WatchAction ResultPage := do
  let page ← query fun w => w.store.monitorResults w.watchers actor m p
  query Watching.savable
  modify fun w =>
    { w with
      receipts := upsert w.receipts actor ∅ fun digests => digests.insert (receiptDigest page.receipt) }
  return page

/-- How far a receipt acknowledges a watch. -/
def Watching.acknowledged (w : Watching) (actor id : String) (m : Monitor) (receipt : Value) :
    Except ChatError Nat := do
  refuse (¬ (entryD w.receipts actor ∅).contains (receiptDigest receipt))
    (err "invalid_receipt" "Read a complete result page before acknowledging it")
  refuse (receipt["actor"] ≠ .str actor ∨ receipt["monitor_id"] ≠ .str id
      ∨ receipt["space_id"] ≠ .str w.store.spaceId ∨ receipt["generation"] ≠ .str w.store.generation)
    (err "invalid_receipt" "Monitor receipt belongs to another owner, monitor or generation")
  let start ← okOr receipt["from"].asU64 (err "invalid_receipt" "Missing receipt start")
  let through ← okOr receipt["through"].asU64 (err "invalid_receipt" "Missing receipt end")
  refuse (m.acknowledged < start ∨ through < start ∨ m.scanned < through)
    (err "invalid_receipt" "Acknowledge complete result pages in order")
  return max m.acknowledged through

end

/-- What a task has read through its watch counts as acknowledged for every watch of the task. -/
def Watching.acknowledgeTask (w : Watching) (actor : String) (m : Monitor) : Watchers :=
  match m.taskSubscription with
  | none => w.watchers
  | some task =>
    let read := w.store.events.filter fun e => e.position ≤ m.acknowledged
      && e.event["type"] = .str "message.create" && w.store.scopeMatches actor m.scope e.event
    { w.watchers with
      acknowledged := upsert w.watchers.acknowledged task ∅ fun ids =>
        read.foldl (fun ids e => ids.insert (strv e.event "id")) ids }

section

variable [Externals]

def ackResults (actor id : String) (m : Monitor) (receipt : Value) : WatchAction PUnit := do
  let through ← query fun w => w.acknowledged actor id m receipt
  let m := { m with acknowledged := through }
  query Watching.savable
  modify fun w => { w with watchers := w.acknowledgeTask actor m }
  savePersonal actor fun monitors => monitors.insert id m

end

/-- Close a watch. A fence that it has stays. -/
def Monitor.close (m : Monitor) (state : MonitorState) (position : Nat) : Monitor :=
  { m with state, closingFence := m.closingFence.or (some position) }

def closeMonitor (actor id : String) (m : Monitor) (state : MonitorState) : WatchAction PUnit := do
  let w ← get
  savePersonal actor fun monitors => monitors.insert id (m.close state w.store.position)

/-- A watch that a participant may cancel with all its others. -/
def Monitor.cancellable (m : Monitor) : Bool :=
  m.taskSubscription.isNone && m.state ≠ .cancelled && m.state ≠ .dismissed

def cancelAll (actor : String) : WatchAction PUnit := do
  let w ← get
  savePersonal actor fun monitors => monitors.map fun _ m =>
    if m.cancellable then m.close .cancelled w.store.position else m

section

variable [Externals] [Instants]

/-- A task's watch is the scheduler's: its session only reads and acknowledges it. -/
def Store.mayChange (s : Store) (actor action : String) (m : Monitor) : Except ChatError PUnit :=
  match m.taskSubscription with
  | none => pure ⟨⟩
  | some task => do
    refuse (¬ s.taskBindings[task]?.any fun b => b.active && b.actor = actor
        && m.id = "task-" ++ b.id ++ "-" ++ toString b.revision)
      (err "stale_binding" "This session no longer owns the task subscription")
    refuse (action ≠ "ack")
      (err "scheduler_owned" "Configure or remove a task subscription through continuous.update")

/-- Act on one watch. -/
def actOnMonitor (actor action id : String) (m : Monitor) (p : Value) : WatchAction (Option ResultPage) := do
  if action = "get" then return some (← getResults actor m p)
  else do
    if action = "cancel" then closeMonitor actor id m .cancelled
    else if action = "dismiss" then closeMonitor actor id m .dismissed
    else if action = "ack" then ackResults actor id m p["receipt"]
    else throw (err "invalid_params" "Supported actions: list, get, ack, cancel, cancel_all, dismiss")
    return none

/-- `monitors`, without the summaries it answers with. -/
def monitors (actor : String) (p : Value) (clock : Int) : WatchAction (Option ResultPage) := do
  let action := p["action"].asStr.getD "list"
  let w ← get
  refuse (action ≠ "cancel_all" ∧ (w.monitor actor (strv p "monitor_id")).any fun m =>
      !w.store.taskMonitorCurrent actor m)
    (err "stale_binding" "Task subscription authority changed or is busy; retry after reconciliation")
  advanceMonitorsAt clock
  if action = "list" then return none
  else if action = "cancel_all" then do
    cancelAll actor
    return none
  else do
    let id ← check (required p "monitor_id")
    let w ← get
    let m ← okOr ((w.monitor actor id).filter (·.state ≠ .dismissed))
      (err "not_found" "Monitor not found")
    onlyIf (["ack", "cancel", "dismiss"].contains action) (check (w.store.mayChange actor action m))
    actOnMonitor actor action id m p

end

/-! ## Reading -/

/-- How far the events of an interval are read: up to the first hit that is not. -/
def Watching.readThrough (w : Watching) (actor : String) (marked : StrSet) (m : Monitor) :
    List Published → Nat → Nat
  | [], through => through
  | e :: rest, through =>
    if w.store.monitorMatches w.watchers actor m e ∧ ¬ w.store.isRead actor e.event
        ∧ ¬ marked.contains (strv e.event "id") then through
    else w.readThrough actor marked m rest e.position

/-- Acknowledge a watch past the hits that were read. -/
def Watching.pastReads (w : Watching) (actor : String) (marked : StrSet) (m : Monitor) : Monitor :=
  if m.state ≠ .dismissed ∧ w.store.taskMonitorCurrent actor m then
    { m with
      acknowledged := max m.acknowledged
        (w.readThrough actor marked m (w.store.eventsBetween m.acknowledged m.hitHigh) m.acknowledged) }
  else m

/-- Reading moved the acknowledgement of the watch. -/
def Watching.readOn (w : Watching) (actor : String) (marked : StrSet) (m : Monitor) : Bool :=
  m.acknowledged < (w.pastReads actor marked m).acknowledged

def advanceMonitorAcksPastReads (actor : String) (marked : StrSet) : WatchAction PUnit := do
  let w ← get
  onlyIf ((entryD w.watchers.personal actor {}).monitors.toList.any fun e => w.readOn actor marked e.2)
    (savePersonal actor fun monitors => monitors.map fun _ m => w.pastReads actor marked m)

end ClaudeManager
