import ClaudeManager.Messaging.Ingest

/-!
# Accepting uploads

What the hub does with an event that a replica saved locally. The hub checks it against its
own directory and against the membership at the revision the sender had seen.
-/

namespace ClaudeManager

open Json Containers Program

section

variable [Externals]

namespace Store

def hostAuthorized (s : Store) (host : String) (actor : Option String) : Bool :=
  match s.replication.hosts[host]? with
  | none => false
  | some h =>
    h["active"] = .bool true &&
      match actor with
      | none => true
      | some actor =>
        if actor = "owner" then h["owner_access"] = .bool true
        else hasPrefix actor (agentPrefix host)
          && (s.replication.people.contains actor || s.names.contains actor)

/-- The members of a channel after one more event, `none` where the event is not about them. -/
def stepMembers (channel : String) (members : StrSet) (e : Value) :
    Option (Except ChatError StrSet) :=
  let type := strv e "type"
  if type = "channel.create" ∧ e["data"]["channels"].items.any fun item => item["id"] = .str channel
  then
    if e["actor"]["id"] ≠ "system" then
      some do return members.insert (← required e["actor"] "id")
    else some (.ok members)
  else if type = "channel.membership.initialize" ∧ e["data"]["channel_id"] = .str channel then
    some (fromValue Decode.strSet e["data"]["members"])
  else if type = "membership.enrollment"
      ∧ e["data"]["default_channels"].items.any (· = .str channel) then
    some do return members.insert (← required e["data"] "participant_id")
  else if type = "channel.membership" ∧ e["conversation_id"] = .str channel then
    some do
      let actor ← required e["data"] "participant_id"
      return if e["data"]["joined"] = .bool true then members.insert actor else members.erase actor
  else none

/-- Replay the membership of a channel up to the event named by `revision`. -/
def membersUpTo (channel revision : String) : List Value → StrSet → Except ChatError StrSet
  | [], _ => throw (err "invalid_metadata" "Unknown channel membership revision")
  | e :: rest, members =>
    match stepMembers channel members e with
    | none => membersUpTo channel revision rest members
    | some (.error failure) => throw failure
    | some (.ok members) =>
      if e["id"] = .str revision then pure members else membersUpTo channel revision rest members

def membersAtRevision (s : Store) (channel revision : String) : Except ChatError StrSet :=
  membersUpTo channel revision (s.events.map Published.event) ∅

/-! ## Private events -/

/-- Types that an upload commits without the checks of a message. -/
def uploadTypes : List String := ["message.create", "read.ack", "read.cursor", "reaction"]

/-- Fields that only the coordinator writes. -/
def coordinatorFields : List String :=
  ["channels", "identity_claim", "identity_attestation", "conversation_create"]

/-- The checks of a private event's own type. -/
def admitPrivateType (s : Store) (e : Value) : Except ChatError PUnit :=
  if strv e "type" = "read.ack" then do let _ ← s.validateReadEvent e true
  else if strv e "type" = "read.cursor" then do let _ ← s.validateCursorEvent e true
  else s.validateReaction e

def admitPrivate (s : Store) (e : Value) (actor : String) : Except ChatError PUnit := do
  s.admitPrivateType e
  let key ← required e["request"] "key"
  refuse (s.requests.contains (requestKey actor key))
    (err "idempotency_conflict" "Read acknowledgement request was already used")

/-! ## Messages -/

/-- The sender's identity, as an earlier event of this history published it. -/
def knownIdentity (s : Store) (e : Value) (actor identity : String) : Except ChatError PUnit :=
  if actor = "owner" then
    refuse (identity ≠ s.ownerIdentityRevision)
      (err "invalid_metadata" "Unknown Owner identity revision")
  else
    refuse ((actor, identity, Externals.compact e["actor"]["name"]) ∉ s.lookups.identities)
      (err "invalid_metadata" "Unknown sender identity revision")

/-- Who sent the message, under which enrollment of its host. -/
def admitIdentity (s : Store) (e : Value) (host actor : String) : Except ChatError PUnit := do
  let identity ← required e["data"]["metadata_seen"] "identity"
  s.knownIdentity e actor identity
  let enrollment ← required e["data"]["metadata_seen"] "enrollment"
  refuse ((entryD s.replication.hosts host .null)["enrollment_revision"] ≠ .str enrollment)
    (err "enrollment_revoked" "An earlier host enrollment cannot submit new operations")
  refuse ((host, enrollment) ∉ s.lookups.hostEnrollments)
    (err "invalid_metadata" "Unknown host enrollment revision")

/-- Tags and links within their limits. -/
def admitFields (e : Value) : Except ChatError PUnit := do
  let tags ← fromValue Decode.strs e["data"]["tags"]
  let links ← fromValue (Decode.list some) e["data"]["links"]
  refuse (tags.length > 16 ∨ tags.any (fun t => t = "" || t.length > 32) ∨ links.length > 8
      ∨ links.any (fun l => strv l "uri" = "" || (strv l "uri").length > 2048 || (strv l "label").length > 120))
    (err "invalid_message" "Invalid tag or file-reference fields")

/-- The conversation's settings at a revision that a sender names. -/
def observedChannel (s : Store) (conv revision : String) : Option Value :=
  ((s.lookups.channelRevisions.lookup (conv, revision)).bind (s.events[·]?)).map
    fun p => p.event["data"]["channel"]

/-- The revision of its conversation that the sender names is one that this history has. -/
def knownConversation (s : Store) (conv revision : String) : Except ChatError PUnit :=
  if s.conversations.contains conv then
    refuse (revision ≠ conv) (err "invalid_metadata" "Invalid immutable DM revision")
  else
    refuse (revision ≠ conv ∧ (s.lookups.channelRevisions.lookup (conv, revision)).isNone)
      (err "invalid_metadata" "Unknown channel revision")

/-- The sender had not seen the channel archived. Returns whether it was archived later. -/
def staleArchive (s : Store) (conv revision : String) : Except ChatError Bool :=
  match s.channelOf conv with
  | none => return false
  | some (path, cid) => do
    let createdArchived := revision = conv ∧ s.lookups.channelListings[conv]?.any (·.2)
    refuse (createdArchived
        ∨ (s.observedChannel conv revision).any fun channel => channel["archived"] = .bool true)
      (err "conversation_archived" "Origin already observed the archive revision")
    let latest := s.channelInfo path cid
    return latest["archived"] = .bool true && latest["revision"] ≠ .str revision

/-- The settings that the sender had seen of its conversation. Returns whether the channel was
archived later. -/
def admitConversation (s : Store) (e : Value) (conv : String) : Except ChatError Bool := do
  let revision ← required e["data"]["metadata_seen"] "conversation"
  s.knownConversation conv revision
  s.staleArchive conv revision

/-- Everyone named as mentioned is known here. -/
def knownMention (s : Store) (m : String) : Bool :=
  m = "owner" || s.names.contains m || s.replication.people.contains m

/-- The audience that the mentions of a message have, recomputed: those mentioned, and for a
broadcast the members at the revision the sender had seen. -/
def mentionAudience (s : Store) (e : Value) (conv actor : String) (mentions : List String)
    (here : Bool) : Except ChatError StrSet :=
  match s.conversations[conv]? with
  | some members => do
    refuse (here ∨ mentions.any fun m => ¬ members.contains m)
      (err "invalid_mention" "Invalid DM mention audience")
    return .ofList mentions
  | none => do
    let revision ← required e["data"]["metadata_seen"] "membership"
    let members ← s.membersAtRevision conv revision
    refuse (¬ members.contains actor)
      (err "join_required" "Sender was not a member at the supplied revision")
    return if here then .ofList (mentions ++ members.toList) else .ofList mentions

def admitMentions (s : Store) (e : Value) (conv actor : String) : Except ChatError PUnit := do
  let mentions ← fromValue Decode.strs e["data"]["mentions"]
  let recipients ← fromValue Decode.strSet e["data"]["mention_recipients"]
  let here ← okOr e["data"]["mention_here"].asBool
    (err "invalid_mention" "Missing mention_here flag")
  let expected ← s.mentionAudience e conv actor mentions here
  refuse (expected ≠ recipients ∨ mentions.length > 32 ∨ mentions.any fun m => ¬ s.knownMention m)
    (err "invalid_mention" "Forged or unknown mention audience")

/-- Everything an uploaded message is checked for. Returns whether its channel was archived
after the sender saw it. -/
def admitMessage (s : Store) (e : Value) (host actor : String) : Except ChatError Bool := do
  let body := e["body"].asStr.getD ""
  refuse (body.length > 3000 ∨ blank body) (err "invalid_message" "Message exceeds the body policy")
  refuse (e["actor"]["kind"] ≠ .str (kindOf actor))
    (err "unauthorized" "Actor kind does not match its identity")
  let key ← required e["request"] "key"
  refuse (s.requests.contains (requestKey actor key))
    (err "idempotency_conflict" "Request already has another event ID")
  s.validateEventDependencies e
  refuse (e["data"]["reply_to"].asStr.any fun parent => ¬ s.replication.receipts.contains parent)
    (err "dependency_missing" "Parent has no hub acceptance")
  let conv ← required e "conversation_id"
  refuse (¬ s.visible actor conv) (err "unauthorized" "Sender cannot access this conversation")
  s.admitIdentity e host actor
  admitFields e
  let staleArchive ← s.admitConversation e conv
  s.admitMentions e conv actor
  return staleArchive

/-- The hub's acceptance of an event it has. -/
def hubReceipt (s : Store) (id : String) : Except ChatError Value :=
  okOr s.replication.receipts[id]? (err "outcome_unknown" "Hub receipt is pending")

/-- The acceptance of a message whose channel was archived after its sender saw it. -/
def staleReceipt (s : Store) (pos : Nat) (id raw : String) : Value :=
  (s.ownReceipt pos (object [("id", id)]) (hash raw)).set "accepted_from_stale_revision" (.bool true)

/-- Who may upload what. -/
def admitSender (s : Store) (e : Value) (host actor : String) : Except ChatError PUnit := do
  refuse (¬ s.hostAuthorized host (some actor))
    (err "host_revoked" "Host or participant is not enrolled")
  refuse (¬ e["type"].asStr.any uploadTypes.contains
      ∨ coordinatorFields.any fun k => (e["data"].get? k).isSome)
    (err "unauthorized" "Only ordinary messages may originate at a replica")

/-- The receipt of a message whose channel was archived after its sender saw it; a message of
the present gets the usual one. -/
def uploadReceipt (s : Store) (stale : Bool) (id raw : String) :
    Except ChatError (Option Value) :=
  if stale then do
    let pos ← checkedAdd s.position (err "position_overflow" "Journal exhausted")
    return some (s.staleReceipt pos id raw)
  else return none

end Store

/-- An accepted result stands, even if metadata has moved since. -/
def acceptKnown (e : Value) (id raw : String) : Action Value := do
  let bytes ← query (·.readEvent e)
  refuse (bytes ≠ raw) (err "event_conflict" "Same event ID has different bytes")
  query (·.hubReceipt id)

/-- Accept or refuse an event that the hub does not have. -/
def acceptNew (host : String) (e : Value) (id raw : String) : Action Value := do
  let actor ← check (required e["actor"] "id")
  query (·.admitSender e host actor)
  if strv e "type" ≠ "message.create" then
    query (·.admitPrivate e actor)
    let _ ← commitBytes e raw "replica" none
    query (·.hubReceipt id)
  else
    let stale ← query (·.admitMessage e host actor)
    let receipt ← query (·.uploadReceipt stale id raw)
    let _ ← commitBytes e raw "replica" receipt
    query (·.hubReceipt id)

/-- Accept or refuse an event that `host` uploads. Returns the hub's receipt. -/
def acceptUpload (host : String) (wire : Value) : Action Value := do
  query (·.sharedMutationAllowed)
  let raw ← check (required wire "event")
  let e ← query (·.validateReplicationEnvelope raw)
  let id ← check (required e "id")
  refuse (e["origin_daemon_id"] ≠ .str host ∨ e["request"]["origin_daemon_id"] ≠ .str host)
    (err "unauthorized" "Upload has a foreign origin")
  if (← get).hasEvent id then acceptKnown e id raw else acceptNew host e id raw

end

end ClaudeManager
