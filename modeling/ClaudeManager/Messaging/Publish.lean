import ClaudeManager.Messaging.Channels

/-!
# Publishing

How a daemon builds an event of its own and commits it, and how a client's request is tied
to at most one event.
-/

namespace ClaudeManager

open Json Containers Program

/-- What an operation publishes, before the daemon signs it with an ID and a time. -/
structure Draft where
  type : String
  conv : Option String := none
  body : String
  data : Value
  actor : String
  name : String
  kind : String
  key : String
  /-- The digest of the client's request; empty where the daemon acts on its own. -/
  digest : String := ""

/-- What the daemon itself publishes. -/
def systemDraft (type body : String) (data : Value) (key : String) : Draft :=
  { type, body, data, actor := "system", name := "System", kind := "system", key }

section

variable [Externals]

def Draft.requestDigest (d : Draft) : String :=
  if d.digest = "" then
    hash (Externals.compact (object [("type", d.type), ("actor", d.actor), ("data", d.data),
      ("body", d.body)]))
  else d.digest

/-- The event of a draft, under the given identifier, logical time and creation time. -/
def Store.eventOf (s : Store) (d : Draft) (id time created : String) : Value :=
  object [("protocol", .num 1), ("space_id", s.spaceId), ("id", s.daemonId ++ ":" ++ id),
    ("origin_daemon_id", s.daemonId), ("logical_time", time), ("type", d.type),
    ("created_at", created),
    ("actor", object [("id", d.actor), ("name", d.name), ("kind", d.kind)]),
    ("conversation_id", optStr d.conv), ("body", d.body), ("data", d.data),
    ("extensions", object []),
    ("request", object [("key", d.key), ("sha256", d.requestDigest),
      ("origin_daemon_id", if d.actor = "system" then s.daemonId else s.operationOrigin)])]

/-- Build an event at the next tick of the logical clock. -/
def event (d : Draft) : Action Value := do
  let time ← query fun s =>
    checkedAdd s.clock (err "clock_overflow" "Logical clock exhausted")
  modify fun s => { s with clock := time }
  let id ← uuid
  let created ← now
  let s ← get
  return s.eventOf d id (toString time) created

/-- Types that a replica publishes without its coordinator. -/
def localTypes : List String := ["message.create", "read.ack", "read.cursor", "reaction"]

def publish (d : Draft) : Action Value := do
  onlyIf (¬ localTypes.contains d.type) (query (·.sharedMutationAllowed))
  let e ← event d
  commit e

/-- The text under `key`, and none for any other value. -/
def textAt (p : Value) (key : String) : Option String := p[key].asStr

/-- The event of a request that was made before, if it was. -/
structure Request where
  key : String
  digest : String
  prior : Option Value

/-- Tie a client's request to its key; the same key with other content is refused. -/
def Store.request (s : Store) (actor : String) (p : Value) (operation : String) :
    Except ChatError Request := do
  refuse (¬ p.isObj) (err "invalid_params" "Expected an object")
  let key ← required p "request_id"
  refuse (s.personal[actor]?.any (·.operations.contains key))
    (err "idempotency_conflict" "This request_id belongs to a personal-state operation")
  refuse (key.utf8ByteSize > 160 ∨ key.toList.any isControl)
    (err "invalid_params" "Invalid request_id")
  refuse ((textAt p "origin_daemon_id").any (· ≠ s.operationOrigin))
    (err "retry_origin_unavailable" "Retry this operation through its original daemon")
  let intent := ((p.erase "ack_receipt").erase "norms_seen").erase "origin_daemon_id"
  let digest := hash (Externals.compact (object [("operation", operation), ("params", intent)]))
  match s.requests[requestKey actor key]? with
  | none => return { key, digest, prior := none }
  | some (id, old, _) =>
    refuse (old ≠ digest)
      (err "idempotency_conflict" "This request_id already has different content")
    return { key, digest, prior := (s.published id).map Published.event }

/-- A retained operation of the daemon itself for `key`. -/
def Store.priorSystemEvent (s : Store) (key : String) : Option Value := do
  let (id, _, _) ← s.requests[requestKey "system" key]?
  return (← s.published id).event

/-! ## Enrollment -/

/-- The channels that a participant joins on enrollment, in path order. -/
def Store.defaultChannels (s : Store) : List String :=
  (s.channels.byPath.toList.filter fun e =>
    (s.channelInfo e.1 e.2)["default_join"] = .bool true).map Prod.snd

def enrollParticipant (actor : String) : Action PUnit := do
  let s ← get
  onlyIf (¬ s.enrolled.contains actor) do
    query (·.sharedMutationAllowed)
    let _ ← publish (systemDraft "membership.enrollment"
      "Enrolled a participant in the default messaging channels"
      (object [("participant_id", actor), ("default_channels", strings s.defaultChannels)])
      ("membership-enrollment-v1:" ++ actor))

/-- A person who reads messages. -/
def readsMessages (p : Person) : Bool := p.kind ≠ "shell" && p.engine ≠ some "bash"

/-- Everyone the store knows of, with the given people and Owner. -/
def Store.knownActors (s : Store) (people : List Person) : List String :=
  let all := s.names.keys ++ s.personal.keys
    ++ s.memberships.values.flatMap (·.toList) ++ s.conversations.values.flatten
    ++ (people.filter readsMessages).map (·.id) ++ ["owner"]
  (Std.ExtTreeSet.ofList all compare : StrSet).toList

def enrollParticipants (people : List Person) : Action PUnit := do
  let s ← get
  onlyIf (s.degraded.isNone ∧ s.isCoordinator) ((s.knownActors people).forM enrollParticipant)

end

end ClaudeManager
