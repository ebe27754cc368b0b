import ClaudeManager.Messaging.ReadModel

/-!
# Reducers

What a retained event does to the derived state. The same reducers run when an event is
committed and when the journal is replayed. Each event type has the checks of its own
shape, shared by the reducer and by the preflight of a remote event.
-/

namespace ClaudeManager

open Json Containers Program

/-! ## Shape checks -/

namespace Store

/--
Authority is checked where a membership change originates. A replica may receive an old
change after newer access settings, so only the retained operation's shape is checked.
-/
def validateMembershipEvent (s : Store) (event : Value) : Except ChatError PUnit := do
  let id ← required event "conversation_id"
  let actor ← required event["actor"] "id"
  let member ← required event["data"] "participant_id"
  let data := event["data"]
  let add := data["action"] = .str "add_member"
  refuse (actor = "system" ∨ member = "system" ∨ ¬ data["joined"].isBool
      ∨ ¬ s.memberships.contains id ∨ (add ∧ data["joined"] ≠ .bool true) ∨ (¬ add
      ∧ actor ≠ member)) (err "invalid_record" "Invalid channel membership change")

end Store

/-- `host:event`, both of them UUIDs. -/
def eventIdentity [Externals] (id : String) (malformed invalid : ChatError) :
    Except ChatError PUnit :=
  match splitOnce id ':' with
  | none => throw malformed
  | some (host, event) => if isUuid host ∧ isUuid event then pure ⟨⟩ else throw invalid

/-- Owner's own event, outside every conversation. -/
def ownerOnly (e : Value) : Bool :=
  e["actor"]["id"] = .str "owner" && e["actor"]["kind"] = .str "owner"
    && e["conversation_id"] = .null

namespace Store

variable [Externals]

/-- A message that Owner may acknowledge. -/
def readTarget (s : Store) (id : String) : Except ChatError PUnit := do
  let event ← okOr (s.published id)
    (err "dependency_missing" "Acknowledged message has not reached the hub")
  refuse (event.event["type"] ≠ "message.create"
      ∨ ¬ s.visible "owner" (strv event.event "conversation_id"))
    (err "unauthorized" "Owner cannot acknowledge another participant's private messages")

def validateReadEvent (s : Store) (e : Value) (requireMessages : Bool) :
    Except ChatError (List String) := do
  refuse (¬ ownerOnly e) (err "unauthorized" "Only Owner can publish Owner read state")
  let ids ← fromValue Decode.strSet e["data"]["ids"]
  refuse (ids.isEmpty ∨ ids.size > 200) (err "invalid_receipt" "Invalid read acknowledgement size")
  ids.toList.forM fun id => do
    eventIdentity id (err "invalid_receipt" "Invalid message identity")
      (err "invalid_receipt" "Invalid message identity")
    onlyIf requireMessages (readTarget s id)
  return ids.toList

/-- A message that a cursor may point at. -/
def cursorTarget (s : Store) (cid : String) (cursor : ReadCursor) : Except ChatError PUnit := do
  let target ← okOr (s.published cursor.eventId)
    (err "dependency_missing" "Cursor message has not reached the hub")
  refuse (target.event["conversation_id"] ≠ .str cid ∨ ¬ readableEvent target.event
      ∨ ReadCursor.of target.event ≠ cursor ∨ ¬ s.visible "owner" cid)
    (err "unauthorized" "Cursor does not match a visible message")

def validateCursorEvent (s : Store) (e : Value) (requireMessages : Bool) :
    Except ChatError (List (String × ReadCursor)) := do
  refuse (¬ ownerOnly e) (err "unauthorized" "Only Owner can publish Owner read cursors")
  let cursors ← fromValue (Decode.map ReadCursor.decode) e["data"]["cursors"]
  refuse (cursors.isEmpty ∨ cursors.size > 200)
    (err "invalid_receipt" "Invalid cursor checkpoint size")
  cursors.toList.forM fun entry => do
    uuidOr entry.1 (err "invalid_receipt" "Invalid conversation ID")
    eventIdentity entry.2.eventId (err "invalid_receipt" "Invalid cursor message")
      (err "invalid_receipt" "Invalid cursor message")
    onlyIf requireMessages (cursorTarget s entry.1 entry.2)
  return cursors.toList

end Store

def emojis : List String := ["✅", "👀", "👍", "❌", "🎉"]

/-- The kind an actor's events must carry. -/
def kindOf (actor : String) : String := if actor = "owner" then "owner" else "agent"

def Store.validateReaction (s : Store) (e : Value) : Except ChatError PUnit := do
  let data := e["data"]
  let actor ← required e["actor"] "id"
  refuse (¬ emojis.contains (strv data "emoji") ∨ ¬ data["remove"].isBool
      ∨ e["actor"]["kind"] ≠ .str (kindOf actor))
    (err "invalid_reaction" "Use one of ✅ 👀 👍 ❌ 🎉 and a boolean remove")
  refuse (actor ≠ "owner" ∧ ¬ s.names.contains actor)
    (err "unauthorized" "Reaction actor has no retained identity")
  let messageId ← required data "message_id"
  let target ← okOr (s.published messageId)
    (err "dependency_missing" "Reaction message not retained")
  refuse (target.event["type"] ≠ "message.create"
      ∨ target.event["conversation_id"] ≠ e["conversation_id"]
      ∨ ¬ s.visible actor (strv target.event "conversation_id"))
    (err "unauthorized" "Reaction target is not visible in this conversation")

/-- `availability::valid_level`. -/
def validLevel : Value → Bool
  | .null => true
  | .str level => ["away", "around", "focused", "on-call"].contains level
  | _ => false

def validateOwnerAvailability (e : Value) : Except ChatError PUnit := do
  refuse (e["actor"]["id"] ≠ "owner" ∨ e["conversation_id"] ≠ .null)
    (err "invalid_record" "Owner availability is Owner-authored and conversation-free")
  refuse (¬ validLevel e["data"]["level"]) (err "invalid_record" "Unknown availability level")

def validateMaintenance (e : Value) : Except ChatError PUnit := do
  refuse (e["actor"]["id"] ≠ "system" ∨ e["conversation_id"] ≠ .null)
    (err "invalid_record" "A maintenance notice is system-authored and conversation-free")
  let d := e["data"]
  refuse (¬ d["active"].isBool ∨ ¬ d["changed_at"].isStr)
    (err "invalid_record" "A maintenance notice needs active and changed_at")

/-- The members of a DM, as a record creates it. -/
def dmMembersOk (s : Store) (actor id : String) (members : List String) : Bool :=
  2 ≤ members.length && members.length ≤ 32
    && decide (members.Pairwise (· < ·))
    && members.contains actor
    && members.all (fun m => m ≠ "" && m ≠ "system")
    && (s.conversations[id]?.all (· = members))

/-! ## Channels -/

def reduceChannel (item : Value) : Action PUnit := do
  let path ← check (required item "path")
  check (channelPath path)
  let id ← check (required item "id")
  modify fun s => { s with channels := s.channels.bind path id }

/-! ## Membership -/

section

variable [Externals]

/-- A participant joins one default channel on enrollment. -/
def enrollInto (event : Value) (actor id : String) : Action PUnit := do
  let members ← okOr (← get).memberships[id]? (err "invalid_record" "Unknown default channel")
  modify fun s => { s with memberships := s.memberships.insert id (members.insert actor) }
  let revision ← check (required event "id")
  modify fun s => { s with membershipRevisions := s.membershipRevisions.insert id revision }

def reduceEnrollment (event : Value) : Action PUnit := do
  let actor ← check (required event["data"] "participant_id")
  refuse (actor = "system" ∨ event["actor"]["id"] ≠ "system" ∨ (← get).enrolled.contains actor)
    (err "invalid_record" "Invalid participant enrollment")
  modify fun s => { s with enrolled := s.enrolled.insert actor }
  let channels ← check (fromValue Decode.strs event["data"]["default_channels"])
  channels.forM (enrollInto event actor)

/-- The creator of a channel is its first member. -/
def foundChannel (event channel : Value) : Action PUnit := do
  let id ← check (required channel "id")
  let actor := strv event["actor"] "id"
  modify fun s =>
    { s with
      memberships := upsert s.memberships id ∅ fun members =>
        if actor = "system" then members else members.insert actor }
  let revision ← check (required event "id")
  modify fun s => { s with membershipRevisions := s.membershipRevisions.insert id revision }

def reduceInitialize (event : Value) : Action PUnit := do
  let id ← check (required event["data"] "channel_id")
  let s ← get
  refuse (¬ s.hasChannel id ∨ s.memberships.contains id ∨ event["actor"]["id"] ≠ "system")
    (err "invalid_record" "Invalid channel membership initialization")
  let members ← check (fromValue Decode.strSet event["data"]["members"])
  refuse (members.toList.any (fun id => id = "" || id = "system"))
    (err "invalid_record" "Invalid channel member")
  modify fun s => { s with memberships := s.memberships.insert id members }
  let revision ← check (required event "id")
  modify fun s => { s with membershipRevisions := s.membershipRevisions.insert id revision }

def reduceMembershipChange (event : Value) : Action PUnit := do
  query (·.validateMembershipEvent event)
  let id ← check (required event "conversation_id")
  let member ← check (required event["data"] "participant_id")
  let joined ← okOr event["data"]["joined"].asBool
    (err "invalid_record" "Membership needs joined boolean")
  let members ← okOr (← get).memberships[id]?
    (err "invalid_record" "Channel membership is uninitialized")
  modify fun s =>
    { s with
      memberships := s.memberships.insert id
        (if joined then members.insert member else members.erase member) }
  let revision ← check (required event "id")
  modify fun s => { s with membershipRevisions := s.membershipRevisions.insert id revision }

def reduceMembership (event : Value) : Action PUnit := do
  onlyIf (event["type"] = "membership.enrollment") (reduceEnrollment event)
  onlyIf (event["type"] = "channel.create" ∧ event["data"]["membership_version"] = .num 1)
    (event["data"]["channels"].items.forM (foundChannel event))
  onlyIf (event["type"] = "channel.membership.initialize") (reduceInitialize event)
  onlyIf (event["type"] = "channel.membership") (reduceMembershipChange event)

/-! ## Hosts -/

/-- The participant prefix of a host. -/
def agentPrefix (host : String) : String := "agent:" ++ host ++ ":"

/-- A person that a host may list in its directory. -/
def ownPerson (host : String) (p : Person) : Bool :=
  p.id = agentPrefix host ++ p.sessionUid && p.sessionUid ≠ "" && p.kind = "agent"

/-- List one person of a host directory. -/
def listPerson (host : String) (active : Bool) (person : Person) : Action PUnit := do
  refuse (¬ ownPerson host person) (err "invalid_record" "Host directory has a foreign participant")
  modify fun s =>
    { s with
      replication.people :=
        s.replication.people.insert person.id { person with present := person.present && active } }

/-- Everyone of the host counts as absent until its directory lists them. -/
def Store.clearPresence (s : Store) (host : String) : Store :=
  { s with
    replication.people := s.replication.people.map fun _ p =>
      if hasPrefix p.id (agentPrefix host) then { p with present := false } else p }

/-- The enrollment of this daemon itself, where the directory is about it. -/
def Store.refreshEnrollment (s : Store) (host revision : String) : Store :=
  { s with enrollmentRevision := if host = s.daemonId then revision else s.enrollmentRevision }

def reduceReplication (event : Value) : Action PUnit := do
  if event["type"] = "host.update" then
    refuse (event["actor"]["id"] ≠ "system")
      (err "invalid_record" "Host enrollment is system-owned")
    let data := event["data"]
    let host ← check (required data "host_id")
    check (uuidOr host (err "invalid_record" "Invalid host ID"))
    let revision ← check (required data "enrollment_revision")
    check (uuidOr revision (err "invalid_record" "Invalid enrollment revision"))
    let people ← check (fromValue (Decode.list Person.decode) data["people"])
    modify (·.clearPresence host)
    people.forM (listPerson host (data["active"] = .bool true))
    modify (·.refreshEnrollment host revision)
    modify fun s => { s with replication.hosts := s.replication.hosts.insert host data }

/-! ## Read state and reactions -/

/-- Retain one of Owner's cursors. -/
def Store.retainCursor (s : Store) (entry : String × ReadCursor) : Store :=
  { s with
    readModel.ownerRetained :=
      upsert s.readModel.ownerRetained entry.1 .origin fun old =>
        if old < entry.2 then entry.2 else old }.mergeCursorMemory "owner" entry.1 entry.2

def reduceCursorEvent (e : Value) : Action PUnit := do
  let cursors ← query (·.validateCursorEvent e false)
  modify fun s => cursors.foldl Store.retainCursor s

def reducePrivateSync (e : Value) : Action PUnit := do
  if e["type"] = "read.ack" then
    let ids ← query (·.validateReadEvent e false)
    modify (·.mergeLegacyMemory "owner" ids)
  else if e["type"] = "read.cursor" then
    reduceCursorEvent e

/-- What no reaction has said yet. -/
def noReaction : Reaction := (.origin, false, "")

/-- Change what one actor says with one emoji about one message. -/
def Store.upsertReaction (s : Store) (message emoji actor : String) (f : Reaction → Reaction) :
    Store :=
  { s with
    readModel.reactions :=
      upsert s.readModel.reactions message ∅ fun m =>
        upsert m emoji ∅ fun m => upsert m actor noReaction f }

/-- What one actor says with one emoji about one message. -/
def Store.reaction (s : Store) (message emoji actor : String) : Reaction :=
  entryD (entryD (entryD s.readModel.reactions message ∅) emoji ∅) actor noReaction

def reduceReaction (e : Value) : Action PUnit := do
  if e["type"] = "reaction" then
    query (·.validateReaction e)
    let message ← check (required e["data"] "message_id")
    let emoji ← check (required e["data"] "emoji")
    let actor ← check (required e["actor"] "id")
    modify (·.upsertReaction message emoji actor id)
    let order := ReadCursor.of e
    if ((← get).reaction message emoji actor).1 < order then
      let name ← check (required e["actor"] "name")
      modify (·.upsertReaction message emoji actor
        fun _ => (order, decide (e["data"]["remove"] ≠ .bool true), name))

/-! ## Conversations, identities, norms and requests -/

/-- Record a DM's immutable membership. -/
def Store.insertDm (s : Store) (id : String) (members : List String) : Store :=
  { s with conversations := s.conversations.insert id members }

def reduceConversation (e : Value) : Action PUnit := do
  match e["data"].get? "conversation_create" with
  | none => pure ⟨⟩
  | some creation =>
    let id ← check (required creation "id")
    let members ← check (fromValue Decode.strs creation["members"])
    refuse (¬ dmMembersOk (← get) (strv e["actor"] "id") id members)
      (err "invalid_record" "DM needs 2–32 sorted, distinct, immutable members including its sender")
    modify (·.insertDm id members)

/-- The identity an event publishes, or the one its sender claims. -/
def identityField (e : Value) : Option Value :=
  if e["type"] = "identity.update" then e["data"].get? "identity"
  else e["data"].get? "identity_claim"

def reduceIdentity (e : Value) : Action PUnit := do
  match identityField e with
  | none => pure ⟨⟩
  | some n =>
    let id ← check (required n "participant_id")
    let v ← check (fromValue Name.decode n)
    let old := (← get).names[id]?
    refuse (old.any (fun old => old.revision = v.revision && old.name ≠ v.name))
      (err "identity_conflict" "Same revision with different name")
    if old.all (fun old => old.revision ≤ v.revision) then
      modify fun s => { s with names := s.names.insert id v }

def reduceOwnerAvailability (e : Value) : Action PUnit := do
  check (validateOwnerAvailability e)
  let record := (e["data"].set "changed_at" e["created_at"]).set "event_id" e["id"]
  modify fun s => { s with ownerAvailability := record }

def reduceNorms (e : Value) : Action PUnit := do
  if e["data"]["scope"] = "global" then
    modify fun s => { s with norms := e["data"] }
  else if hasPrefix (strv e["data"] "scope") "channel:" then
    let scope ← check (required e["data"] "scope")
    modify fun s => { s with channelNorms := s.channelNorms.insert scope e["data"] }

/-- The key under which an event's request is remembered. -/
def requestKey (actor key : String) : String := actor ++ "\n" ++ key

def reduceRequest (e : Value) : Action PUnit := do
  let key := requestKey (strv e["actor"] "id") (strv e["request"] "key")
  let id ← check (required e "id")
  let value := (id, strv e["request"] "sha256", strv e["request"] "origin_daemon_id")
  let old := (← get).requests[key]?
  modify fun s => { s with requests := s.requests.insert key value }
  refuse (old.any (· ≠ value)) (err "idempotency_conflict" "Duplicate request in retained history")

def availabilityType : String := "owner.availability"

def maintenanceType : String := "cm.maintenance"

/-- Everything a retained event changes, except the history itself. -/
def reduce (e : Value) : Action PUnit := do
  e["data"]["channels"].items.forM reduceChannel
  reduceMembership e
  reduceReplication e
  reducePrivateSync e
  reduceReaction e
  reduceConversation e
  reduceIdentity e
  onlyIf (e["type"] = .str availabilityType) (reduceOwnerAvailability e)
  onlyIf (e["type"] = .str maintenanceType) (check (validateMaintenance e))
  onlyIf (e["type"] = "norms.update") (reduceNorms e)
  reduceRequest e

end

end ClaudeManager
