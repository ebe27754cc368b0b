import ClaudeManager.Messaging.Reduce

/-!
# The journal

A publication becomes visible when its journal record is durable: the event file first,
then the record, then the reducers and the indexes. A decision of the hub about an event is
a record of its own. `rebuild` replays the records in position order.
-/

namespace ClaudeManager

open Json Containers Program

/-- `n + 1`, below `2 ^ 64`. -/
def checkedAdd (n : Nat) (overflow : ChatError) : Except ChatError Nat :=
  if n + 1 < 2 ^ 64 then pure (n + 1) else throw overflow

theorem checkedAdd_ok {n m : Nat} {e : ChatError} :
    checkedAdd n e = .ok m ↔ m = n + 1 ∧ n + 1 < 2 ^ 64 := by
  unfold checkedAdd
  by_cases h : n + 1 < 2 ^ 64
  · rw [if_pos h, except_pure_ok, eq_comm]
    exact ⟨fun he => ⟨he, h⟩, And.left⟩
  · rw [if_neg h]
    exact ⟨fun he => absurd he except_throw_ok, fun he => absurd he.2 h⟩

/-- `s.parse::<u64>().map_err(|_| e)?`. -/
def u64Or (s : String) (e : ChatError) : Except ChatError Nat := okOr (parseU64 s) e

theorem u64Or_ok {s : String} {e : ChatError} {n : Nat} :
    u64Or s e = .ok n ↔ parseU64 s = some n := except_okOr_ok

section

variable [Externals]

/-! ## Event files -/

/-- `fs::read`. -/
def readFile (files : List (EventPath × String)) (path : EventPath) : Except ChatError String :=
  okOr (files.lookup path) (err "storage_error" "No such file or directory (os error 2)")

namespace Store

/-- Where an event lies: with its channel, else with its DM, else at the root. -/
def eventPath (s : Store) (e : Value) : Except ChatError EventPath := do
  let id ← required e "id"
  let (origin, event) ← okOr (splitOnce id ':') (err "invalid_record" "Bad event ID")
  refuse (¬ (isUuid origin ∧ isUuid event)) (err "invalid_record" "Bad event UUID")
  match e["conversation_id"].asStr with
  | none => return ⟨.root, origin, event⟩
  | some cid =>
    match s.channelOf cid with
    | some (path, _) => return ⟨.channel path, origin, event⟩
    | none =>
      uuidOr cid (err "invalid_record" "Bad conversation ID")
      return ⟨.direct cid, origin, event⟩

/-- The file of an event, read back. -/
def readEvent (s : Store) (e : Value) : Except ChatError String := do
  let path ← s.eventPath e
  readFile s.files path

/-! ## Receipts -/

def receiptCoordinatorValid (s : Store) (receipt : Value) : Bool :=
  receipt["coordinator_id"] = .str s.replication.coordinatorId
    || receipt["coordinator_id"].asStr.any (s.replication.coordinatorLineage.contains ·)

def validateReceipt (s : Store) (receipt : Value) (id digest : String) :
    Except ChatError PUnit := do
  refuse (receipt["space_id"] ≠ .str s.spaceId ∨ ¬ s.receiptCoordinatorValid receipt
      ∨ receipt["event_id"] ≠ .str id ∨ receipt["event_sha256"] ≠ .str digest)
    (err "invalid_receipt" "Receipt has the wrong space, coordinator, event or digest")
  let generation ← required receipt "generation"
  uuidOr generation (err "invalid_receipt" "Bad receipt generation")
  let position ← required receipt "position"
  let pos ← u64Or position (err "invalid_receipt" "Bad receipt position")
  refuse (pos = 0) (err "invalid_receipt" "Receipt position must be positive")
  refuse (s.replication.rejections.contains id)
    (err "receipt_conflict" "Event was already rejected")
  refuse (s.replication.receipts[id]?.any (· ≠ receipt))
    (err "receipt_conflict" "Conflicting acceptance receipt")

end Store

/-! ## Replication records -/

/-- The receipt that a publication record carries. -/
def retainPublishReceipt (journal : Value) : Action PUnit := do
  match (journal["data"].get? "hub_receipt").filter (· ≠ .null) with
  | none => pure ⟨⟩
  | some receipt =>
    let id ← check (required journal "event_id")
    let digest ← check (required journal "event_sha256")
    query (·.validateReceipt receipt id digest)
    modify fun s => { s with replication.receipts := s.replication.receipts.insert id receipt }

/-- The hub's decision about a retained event. -/
def retainDecision (journal : Value) : Action PUnit := do
  let id ← check (required journal "event_id")
  let decision := journal["data"]
  let event ← okOr ((← get).published id)
    (err "invalid_receipt" "Decision precedes its local event")
  refuse (journal["event_sha256"] ≠ .str event.eventSha256)
    (err "invalid_receipt" "Decision digest does not match its retained event")
  if decision["status"] = "replicated" then
    refuse ((← get).replication.rejections.contains id)
      (err "receipt_conflict" "A rejected event cannot later become accepted")
    let digest ← check (required journal "event_sha256")
    query (·.validateReceipt decision["receipt"] id digest)
    modify fun s =>
      { s with replication.receipts := s.replication.receipts.insert id decision["receipt"] }
  else if decision["status"] = "replication_rejected" then
    refuse ((← get).replication.receipts.contains id)
      (err "receipt_conflict" "An accepted event cannot later become rejected")
    modify fun s =>
      { s with replication.rejections := s.replication.rejections.insert id decision }
  else
    throw (err "invalid_record" "Unknown replication decision")

def Store.coverageValid (s : Store) (scope : String) (data : Value) : Bool :=
  data["scope"] = .str scope && data["generation"].asStr.any isUuid
    && data["coordinator_id"] = .str s.replication.coordinatorId
    && (if scope = "transport" then
        data["cursor"].asU64.isSome && data["revision"].asU64.isSome
          && (Decode.strSet data["scopes"]).isSome
      else data["through"].asU64.isSome && data["complete"] = .bool true)

/-- A legacy coverage record; newer checkpoints lie outside the journal. -/
def retainCoverage (journal : Value) : Action PUnit := do
  let scope ← check (required journal["data"] "scope")
  let generation ← check (required journal["data"] "generation")
  check (uuidOr generation (err "invalid_cursor" "Invalid coverage generation"))
  refuse (¬ (← get).coverageValid scope journal["data"])
    (err "invalid_cursor" "Invalid coverage checkpoint")
  modify fun s =>
    { s with replication.coverage := s.replication.coverage.insert scope journal["data"] }

/-- An event with a decision leaves the outbox. -/
def Store.settlePending (s : Store) (id : String) : Store :=
  match s.eventIndex[id]? with
  | some index =>
    { s with readModel.pendingLocal := s.readModel.pendingLocal.filter (· ≠ index) }
  | none => s

def applyReplicationJournal (journal : Value) : Action PUnit := do
  if strv journal "kind" = "publish" then retainPublishReceipt journal
  else if strv journal "kind" = "replication.status" then
    retainDecision journal
    modify (·.settlePending (strv journal "event_id"))
  else if strv journal "kind" = "coverage" then retainCoverage journal
  else throw (err "invalid_record" "Unsupported journal kind")

/-! ## Writing -/

/-- Give up on a publication whose outcome on disk is not known. -/
def outcomeUnknown {α : Type} (reason : String) : Action α := do
  modify fun s => { s with degraded := some reason }
  throw (err "outcome_unknown" reason)

/-- Give up on a publication that is durable and does not reduce. -/
def giveUp (e : ChatError) : Action PUnit := do
  modify fun s => { s with degraded := some e.display }
  throw e

/-- The queued records of the open ingest page are on disk. -/
def Store.flushed (s : Store) : Store :=
  match s.ingestBatch with
  | none => s
  | some records => { s with ingestBatch := some [], journal := s.journal ++ records }

/-- Make the open ingest page's queued records durable. -/
def flushIngestBatch : Action PUnit := modify Store.flushed

/-- Write one journal record, or queue it in the open ingest page. -/
def Store.writeRecord (s : Store) (pos : Nat) (record : String) : Store :=
  match s.ingestBatch with
  | some records => { s with ingestBatch := some (records ++ [(pos, record)]) }
  | none => { s with journal := s.journal ++ [(pos, record)] }

/-- The acceptance a coordinator gives what it publishes. -/
def Store.ownReceipt (s : Store) (pos : Nat) (event : Value) (digest : String) : Value :=
  object [("space_id", s.spaceId), ("coordinator_id", s.daemonId), ("generation", s.generation),
    ("position", padded pos), ("event_id", event["id"]), ("event_sha256", digest)]

/-- The journal record of a publication. -/
def Store.publishRecord (s : Store) (pos : Nat) (received : String) (event : Value)
    (digest source : String) (path : EventPath) (receipt : Option Value) : Value :=
  object [("protocol", .num 1), ("replica_id", s.daemonId), ("generation", s.generation),
    ("position", padded pos), ("recorded_at", received), ("kind", "publish"),
    ("event_id", event["id"]), ("event_sha256", digest),
    ("data", object [("source", source), ("received_at", received),
      ("logical_clock", .num s.clock), ("event_path", path.encode),
      ("hub_receipt", receipt.getD .null)])]

/-- The receipt that a commit retains: the hub's, or the one a coordinator gives itself. -/
def Store.commitReceipt (s : Store) (pos : Nat) (event : Value) (digest : String)
    (receipt : Option Value) : Option Value :=
  receipt.or (if s.isCoordinator then some (s.ownReceipt pos event digest) else none)

/-- Lamport's rule: the clock does not fall behind an event that was seen. -/
def Store.witness (s : Store) (time : Nat) : Store := { s with clock := max s.clock time }

/-- The event file and the record of a publication are on disk. -/
def Store.makeDurable (s : Store) (pos : Nat) (path : EventPath) (bytes record : String) : Store :=
  { { s with files := (path, bytes) :: s.files }.writeRecord pos record with position := pos }

/--
Commit an event under its exact bytes. Nobody reads it before its record is durable. A
failure after that point leaves the store read-only, since the record cannot be taken back.
-/
def commitBytes (event : Value) (bytes source : String) (receipt : Option Value) :
    Action Value := do
  query (·.ensureMessagingWritable)
  query (·.notDegraded)
  let path ← query (·.eventPath event)
  check (checkEventSize event bytes.utf8ByteSize)
  let pos ← query fun s => checkedAdd s.position (err "position_overflow" "Journal exhausted")
  let received ← now
  let time ← check (required event "logical_time")
  let time ← check (u64Or time (err "invalid_record" "Bad logical time"))
  modify (·.witness time)
  let digest := hash bytes
  let s ← get
  let receipt := s.commitReceipt pos event digest receipt
  let j := s.publishRecord pos received event digest source path receipt
  -- The event file is linked into place, which fails where one exists.
  onlyIf (s.files.lookup path).isSome
    (outcomeUnknown "Publication outcome requires reconciliation: File exists (os error 17)")
  modify (·.makeDurable pos path bytes (Externals.pretty j))
  applyReplicationJournal j
  tryCatch (reduce event) giveUp
  modify (·.pushPublished ⟨event, pos, received, digest⟩)
  return event

/-- Commit an event this daemon built. -/
def commit (event : Value) : Action Value := do
  let s ← get
  commitBytes event (Externals.pretty event) (if s.isCoordinator then "coordinated" else "local") none

/-- The journal record of a decision. -/
def Store.statusRecord (s : Store) (pos : Nat) (recorded kind : String) (id digest : Option String)
    (data : Value) : Value :=
  object [("protocol", .num 1), ("replica_id", s.daemonId), ("generation", s.generation),
    ("position", padded pos), ("recorded_at", recorded), ("kind", kind), ("event_id", optStr id),
    ("event_sha256", optStr digest), ("data", data)]

/-- A record that is not a publication is on disk. -/
def Store.appendRecord (s : Store) (pos : Nat) (record : String) : Store :=
  { s with journal := s.journal ++ [(pos, record)], position := pos }

/-- Write a record that is not a publication. It never overtakes the records queued before it. -/
def journalStatus (kind : String) (id digest : Option String) (data : Value) : Action PUnit := do
  flushIngestBatch
  query (·.notDegraded)
  let pos ← query fun s => checkedAdd s.position (err "position_overflow" "Journal exhausted")
  let recorded ← now
  let s ← get
  let j := s.statusRecord pos recorded kind id digest data
  modify (·.appendRecord pos (Externals.pretty j))
  applyReplicationJournal j

/-! ## Decisions -/

/-- Retain the hub's acceptance of an event that is already here. -/
def recordReceipt (receipt : Value) : Action PUnit := do
  let id ← check (required receipt "event_id")
  let digest ← check (required receipt "event_sha256")
  query (·.validateReceipt receipt id digest)
  let s ← get
  let event ← okOr (s.published id)
    (err "invalid_receipt" "Receipt has no retained local event")
  refuse (event.eventSha256 ≠ digest)
    (err "receipt_conflict" "Receipt digest does not match the retained event")
  match s.replication.receipts[id]? with
  | some old =>
    refuse (old ≠ receipt) (err "receipt_conflict" "Conflicting acceptance receipt")
  | none =>
    journalStatus "replication.status" (some id) (some digest)
      (object [("status", "replicated"), ("receipt", receipt)])

/-- The replies to an event that the hub has not accepted, in history order. -/
def Store.openReplies (s : Store) (id : String) : List Value :=
  (s.events.map Published.event).filter fun e =>
    e["data"]["reply_to"] = .str id && !s.replication.receipts.contains (strv e "id")

/-- The rejection of one event, without its replies. -/
def rejectOne (id reason : String) (e : Published) : Action PUnit := do
  let coordinator := (← get).replication.coordinatorId
  journalStatus "replication.status" (some id) (some e.eventSha256)
    (object [("status", "replication_rejected"), ("reason", reason),
      ("coordinator_id", coordinator)])

/--
Retain the hub's rejection of an event, and reject the replies that wait for it. The
recursion ends because each call first rejects an event that was not rejected before;
`fuel` bounds its depth by the number of events.
-/
def rejectReplicationFrom : Nat → String → String → Action PUnit
  | 0, _, _ => pure ⟨⟩
  | fuel + 1, id, reason => do
    let s ← get
    onlyIf (¬ s.replication.rejections.contains id) do
      refuse (s.replication.receipts.contains id)
        (err "receipt_conflict" "Previously accepted event cannot be rejected")
      let e ← okOr (s.published id) (err "not_found" "Local event not found")
      rejectOne id reason e
      let children ← query fun s => (s.openReplies id).mapM (required · "id")
      children.forM fun child => rejectReplicationFrom fuel child "dependency_rejected"

def rejectReplication (id reason : String) : Action PUnit := do
  rejectReplicationFrom ((← get).events.length + 1) id reason

/-! ## Replay -/

/-- A journal record read from disk, with its event where it has one. -/
structure Prepared where
  journal : Value
  event : Option (Except ChatError (EventPath × Value))

/-- Read a record. A failure about its event waits until the record itself is checked. -/
def prepare (files : List (EventPath × String)) (text : String) : Except ChatError Prepared := do
  let journal ← fromSlice text
  let event : Except ChatError (EventPath × Value) := do
    let path ← fromValue EventPath.decode journal["data"]["event_path"]
    let bytes ← readFile files path
    refuse (hash bytes ≠ strv journal "event_sha256") (err "corrupt_event" "Event digest mismatch")
    return (path, ← fromSlice bytes)
  return ⟨journal, if journal["kind"] = "publish" then some event else none⟩

/-- The fields that every retained event has. -/
def envelopeOk (event : Value) : Bool :=
  event["protocol"] = .num 1
    && event["origin_daemon_id"].asStr = (splitOnce (strv event "id") ':').map Prod.fst
    && event["data"].isObj && event["extensions"].isObj
    && strv event["actor"] "id" ≠ "" && strv event "body" ≠ ""
    && strv event["request"] "key" ≠ ""
    && (strv event["request"] "sha256").utf8ByteSize = 64

/-- What `applyRebuilt` checks of an event before it applies it. -/
def Store.checkRebuilt (s : Store) (j : Value) (path : EventPath) (event : Value) :
    Except ChatError Nat := do
  refuse (event["id"] ≠ j["event_id"] ∨ event["space_id"] ≠ .str s.spaceId)
    (err "invalid_record" "Duplicate event or wrong space")
  let id ← required event "id"
  refuse (s.hasEvent id) (err "invalid_record" "Duplicate event or wrong space")
  refuse (¬ envelopeOk event) (err "invalid_record" "Malformed event envelope")
  let created ← required event "created_at"
  parseTime created
  let received ← required j["data"] "received_at"
  parseTime received
  let time ← required event "logical_time"
  let time ← u64Or time (err "invalid_record" "Bad logical time")
  let expected ← s.eventPath event
  refuse (expected ≠ path) (err "invalid_record" "Event in incorrect conversation directory")
  return time

/-- Replay one record, from the journal file of position `file`. -/
def applyRebuilt (file : Nat) (prepared : Prepared) : Action PUnit := do
  let j := prepared.journal
  let position ← check (required j "position")
  let pos ← check (u64Or position (err "invalid_record" "Bad journal position"))
  let s ← get
  refuse (pos ≤ s.position ∨ j["protocol"] ≠ .num 1 ∨ file ≠ pos
      ∨ j["replica_id"] ≠ .str s.daemonId ∨ j["generation"] ≠ .str s.generation)
    (err "invalid_record" "Conflicting or unsupported journal record")
  match prepared.event with
  | none =>
    applyReplicationJournal j
    modify fun s => { s with position := pos }
  | some event =>
    let (path, event) ← check event
    let time ← query (·.checkRebuilt j path event)
    modify (·.witness (max time (j["data"]["logical_clock"].asU64.getD 0)))
    modify fun s => { s with position := pos }
    applyReplicationJournal j
    reduce event
    let received ← check (required j["data"] "received_at")
    let digest ← check (required j "event_sha256")
    modify (·.pushPublished ⟨event, pos, received, digest⟩)

/-- Replay one journal file. -/
def replayRecord (files : List (EventPath × String)) (record : Nat × String) : Action PUnit := do
  let prepared ← check (prepare files record.2)
  applyRebuilt record.1 prepared

/-- Replay the records of a journal in name order. -/
def rebuild (files : List (EventPath × String)) (journal : List (Nat × String)) : Action PUnit :=
  journal.forM (replayRecord files)

/-- The empty store that a reopened store is replayed into. -/
def Store.fresh (s : Store) : Store := .open s.daemonId s.space s.replication.enabled

/-- A rebuilt store, with what else lies on the disk of `s`. -/
def Store.onDiskOf (rebuilt s : Store) : Store :=
  { rebuilt with
    files := s.files, journal := s.journal, frozen := s.frozen, minted := s.minted
    readings := s.readings, personal := s.personal, taskBindings := s.taskBindings }

/-- Reopen a store from its disk. A failed replay leaves it degraded. -/
def Store.reopen (s : Store) : Store :=
  match rebuild s.files s.journal s.fresh with
  | .ok _ rebuilt => rebuilt.onDiskOf s
  | .error e rebuilt => { rebuilt.onDiskOf s with degraded := some e.display }

end

end ClaudeManager
