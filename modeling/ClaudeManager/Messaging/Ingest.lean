import ClaudeManager.Messaging.Channels

/-!
# Ingesting remote events

What a replica does with an event of its hub: the envelope, the receipt, the dependencies
and the preflight are checked before a record of the event becomes durable.
-/

namespace ClaudeManager

open Json Containers Program

section

variable [Externals]

namespace Store

def validateReplicationEnvelope (s : Store) (raw : String) : Except ChatError Value := do
  refuse (raw.utf8ByteSize > maxHostDirectoryBytes)
    (err "event_too_large" "Serialized event exceeds 1 MiB")
  let e ← fromSlice raw
  checkEventSize e raw.utf8ByteSize
  refuse (¬ envelopeOk e ∨ e["space_id"] ≠ .str s.spaceId)
    (err "invalid_record" "Malformed event envelope")
  let _ ← s.eventPath e
  let origin ← required e["request"] "origin_daemon_id"
  uuidOr origin (err "invalid_record" "Invalid request origin")
  let time ← required e "logical_time"
  let _ ← u64Or time (err "invalid_record" "Invalid logical time")
  let created ← required e "created_at"
  parseTime created
  return e

/-- The parent of a reply: an earlier message of the conversation, in the same thread. -/
def validateReply (e : Value) (parent : String) (p : Value) : Except ChatError PUnit := do
  refuse (p["type"] ≠ "message.create" ∨ p["conversation_id"] ≠ e["conversation_id"])
    (err "invalid_reply" "Reply dependency is invalid")
  let before ← required p "logical_time"
  let after ← required e "logical_time"
  refuse ((parseU64 before).getD (2 ^ 64 - 1) ≥ (parseU64 after).getD 0)
    (err "invalid_reply" "Reply dependency is invalid")
  refuse (e["data"]["thread_root"] ≠ .str (p["data"]["thread_root"].asStr.getD parent))
    (err "invalid_reply" "Reply has a forged thread root")

/-- The conversation of an event is known, or the event creates it. -/
def validateConversation (s : Store) (e : Value) : Except ChatError PUnit :=
  match e["conversation_id"].asStr with
  | none => pure ⟨⟩
  | some conv =>
    refuse (¬ s.hasChannel conv ∧ ¬ s.conversations.contains conv
        ∧ e["data"]["conversation_create"]["id"] ≠ .str conv)
      (err "dependency_missing" "Conversation metadata is not available yet")

/-- The parent of an event is retained and may have this reply. -/
def validateParent (s : Store) (e : Value) : Except ChatError PUnit :=
  match e["data"]["reply_to"].asStr with
  | none => pure ⟨⟩
  | some parent => do
    let p ← okOr (s.published parent)
      (err "dependency_missing" "Reply parent is not available yet")
    validateReply e parent p.event

def validateEventDependencies (s : Store) (e : Value) : Except ChatError PUnit := do
  s.validateConversation e
  s.validateParent e
  refuse (e["type"] = "message.create" ∧ e["data"]["reply_to"] = .null
      ∧ e["data"]["thread_root"] ≠ .null)
    (err "invalid_reply" "A top-level message cannot claim a thread root")

/-! ## Preflight -/

def preflightChannel (item : Value) : Except ChatError PUnit := do
  let path ← required item "path"
  channelPath path
  let id ← required item "id"
  uuidOr id (err "invalid_record" "Invalid channel UUID")

def preflightHost (e : Value) : Except ChatError PUnit := do
  refuse (e["actor"]["id"] ≠ "system") (err "invalid_record" "Host enrollment is system-owned")
  let host ← required e["data"] "host_id"
  uuidOr host (err "invalid_record" "Invalid host UUID")
  let revision ← required e["data"] "enrollment_revision"
  uuidOr revision (err "invalid_record" "Invalid enrollment revision")
  let people ← fromValue (Decode.list Person.decode) e["data"]["people"]
  refuse (people.any fun p => ¬ ownPerson host p)
    (err "invalid_record" "Foreign participant in host directory")

def preflightEnrollment (s : Store) (e : Value) : Except ChatError PUnit := do
  let data := e["data"]
  let actor ← required data "participant_id"
  let channels ← fromValue Decode.strs data["default_channels"]
  refuse (actor = "system" ∨ e["actor"]["id"] ≠ "system" ∨ s.enrolled.contains actor
      ∨ channels.any fun id => ¬ s.memberships.contains id)
    (err "invalid_record" "Invalid participant enrollment")

def preflightInitialize (s : Store) (e : Value) : Except ChatError PUnit := do
  let data := e["data"]
  let id ← required data "channel_id"
  let members ← fromValue Decode.strSet data["members"]
  refuse (¬ s.hasChannel id ∨ s.memberships.contains id ∨ e["actor"]["id"] ≠ "system"
      ∨ members.toList.any (fun m => m = "" || m = "system"))
    (err "invalid_record" "Invalid channel membership initialization")

/-- The checks of the event's own type. -/
def preflightType (s : Store) (e : Value) : Except ChatError PUnit :=
  let type := strv e "type"
  if type = "membership.enrollment" then s.preflightEnrollment e
  else if type = "channel.membership.initialize" then s.preflightInitialize e
  else if type = "channel.membership" then s.validateMembershipEvent e
  else if type = "read.ack" then do let _ ← s.validateReadEvent e false
  else if type = "read.cursor" then do let _ ← s.validateCursorEvent e false
  else if type = "reaction" then s.validateReaction e
  else pure ⟨⟩

def preflightConversation (s : Store) (e : Value) : Except ChatError PUnit := do
  match e["data"].get? "conversation_create" with
  | none => pure ⟨⟩
  | some creation =>
    let id ← required creation "id"
    let members ← fromValue Decode.strs creation["members"]
    refuse (¬ dmMembersOk s (strv e["actor"] "id") id members)
      (err "invalid_record" "Invalid immutable DM membership")

def preflightIdentity (s : Store) (e : Value) : Except ChatError PUnit := do
  match identityField e with
  | none => pure ⟨⟩
  | some n =>
    let id ← required n "participant_id"
    let v ← fromValue Name.decode n
    refuse (s.names[id]?.any fun old => old.revision = v.revision && old.name ≠ v.name)
      (err "identity_conflict" "Same revision with different name")

def preflightRequest (s : Store) (e : Value) : Except ChatError PUnit := do
  let actor ← required e["actor"] "id"
  let key ← required e["request"] "key"
  refuse (s.requests.contains (requestKey actor key))
    (err "idempotency_conflict" "A retained request already has a different event ID")

/-- Validate reducer input before a durable publication, so that a bad remote record does not
poison the replay of the journal. -/
def preflightProjection (s : Store) (e : Value) : Except ChatError PUnit := do
  e["data"]["channels"].items.forM preflightChannel
  onlyIf (e["type"] = .str availabilityType) (validateOwnerAvailability e)
  onlyIf (e["type"] = .str maintenanceType) (validateMaintenance e)
  onlyIf (e["type"] = "host.update") (preflightHost e)
  s.preflightType e
  s.preflightConversation e
  s.preflightIdentity e
  s.preflightRequest e

/-! ## One wire event -/

/-- The receipt of a wire event, where it carries one. -/
def wireReceipt (wire : Value) : Option Value := (wire.get? "receipt").filter (· ≠ .null)

/-- Everything an event of the hub is checked for before it is committed. -/
def admitReplica (s : Store) (event : Value) (raw : String) (receipt : Value) :
    Except ChatError PUnit := do
  let id ← required event "id"
  refuse (receipt["event_id"] ≠ .str id ∨ receipt["event_sha256"] ≠ .str (hash raw)
      ∨ receipt["space_id"] ≠ .str s.spaceId ∨ ¬ s.receiptCoordinatorValid receipt)
    (err "invalid_receipt" "Receipt does not attest the incoming bytes")
  s.validateReceipt receipt id (hash raw)
  s.validateEventDependencies event
  s.preflightProjection event

end Store

/-- A retained event comes again, perhaps with the receipt it lacked. -/
def ingestKnown (wire event : Value) (raw : String) : Action Bool := do
  let bytes ← query (·.readEvent event)
  refuse (bytes ≠ raw) (err "event_conflict" "Same event ID has different bytes")
  (Store.wireReceipt wire).forM recordReceipt
  return false

/-- A new event needs the hub's receipt. -/
def ingestNew (wire event : Value) (raw : String) : Action Bool := do
  let receipt ← okOr (Store.wireReceipt wire)
    (err "invalid_receipt" "Hub ingestion requires an acceptance receipt")
  query (·.admitReplica event raw receipt)
  let _ ← commitBytes event raw "replica" (some receipt)
  return true

/-- Ingest one wire event of the hub. Returns whether it was new. -/
def ingestOne (wire : Value) : Action Bool := do
  let raw ← check (required wire "event")
  let event ← query (·.validateReplicationEnvelope raw)
  let id ← check (required event "id")
  if (← get).hasEvent id then ingestKnown wire event raw else ingestNew wire event raw

/-- Ingest the wires of a page until one of them fails. -/
def ingestWires : List Value → Action (List Bool × Option ChatError)
  | [] => pure ([], none)
  | wire :: rest => do
    let result ← tryCatch (do return Except.ok (← ingestOne wire)) fun e => return .error e
    match result with
    | .error e => return ([], some e)
    | .ok new =>
      let (fresh, failure) ← ingestWires rest
      return (new :: fresh, failure)

/-- Ingest one hub page under a single durability barrier. What was ingested before an error
stays. -/
def ingestReplicaPage (wires : List Value) : Action (List Bool) := do
  refuse ((← get).ingestBatch.isSome) (err "invalid_state" "Nested replica ingest page")
  modify fun s => { s with ingestBatch := some [] }
  let (fresh, failure) ← ingestWires wires
  flushIngestBatch
  modify fun s => { s with ingestBatch := none }
  failure.forM throw
  return fresh

end

end ClaudeManager
