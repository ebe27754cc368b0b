import ClaudeManager.Messaging.Mentions

/-!
# Sending

A client's message: the request, the target, the reply parent, the mention audience and the
sender's identity are settled against this daemon's own state, and the message is saved here
before any hub has seen it.
-/

namespace ClaudeManager

open Json Containers Program

section

variable [Externals]

/-! ## The target -/

namespace Store

/-- The recipients a request lists. -/
def dmPeers (p : Value) : Except ChatError (List String) :=
  match p["dm"] with
  | .str peer => pure [peer]
  | .arr peers => peers.mapM fun v => okOr (v.asStr.filter (· ≠ ""))
      (err "invalid_target" "DM recipients must be participant IDs or names")
  | _ => throw (err "invalid_target" "dm must be a participant or a list of recipients")

/-- Add one recipient to the members of a DM. -/
def addMember (s : Store) (people : List Person) (members : List String) (peer : String) :
    Except ChatError (List String) := do
  let unknown := err "not_found" "Peer not found; use chat_people to resolve a participant ID"
  let peer ← (s.resolveParticipantRef peer people).orFail unknown unknown
  refuse (isShell people peer)
    (err "invalid_target" "agent_only: bash is a shell and cannot receive agent chat")
  refuse (members.contains peer)
    (err "invalid_target" "Choose distinct recipients and omit yourself")
  return members ++ [peer]

def dmMembers (s : Store) (actor : String) (p : Value) (people : List Person) :
    Except ChatError (List String) := do
  let peers ← dmPeers p
  refuse (peers.isEmpty ∨ peers.length > 31)
    (err "invalid_target" "Choose 1–31 DM recipients; the sender is included automatically")
  let members ← peers.foldlM (s.addMember people) [actor]
  return members.mergeSort

def selectors : List String := ["channel", "dm", "conversation"]

/-- An existing conversation that a request names, or the members of the DM it asks for. -/
def target (s : Store) (actor : String) (p : Value) (people : List Person) :
    Except ChatError (String ⊕ List String) := do
  refuse ((selectors.filter fun k => (p.get? k).any (· ≠ .null)).length ≠ 1)
    (err "invalid_target" "Choose exactly one channel, dm, or conversation")
  match textAt p "channel", textAt p "conversation" with
  | some path, _ =>
    let id ← okOr s.channels.byPath[path]?
      (err "not_found" "Channel not found; create it with chat_channels")
    return .inl id
  | none, some id =>
    refuse (¬ s.visible actor id) (err "not_found" "Conversation not found")
    return .inl id
  | none, none =>
    let members ← s.dmMembers actor p people
    match findEntry s.conversations fun _ m => m = members with
    | some (id, _) => return .inl id
    | none => return .inr members

end Store

/-- The conversation a request is about, and the DM it creates where it creates one. -/
def resolve (actor : String) (p : Value) (people : List Person) (createDm : Bool) :
    Action (String × Option (List String)) := do
  match ← query (·.target actor p people) with
  | .inl id => return (id, none)
  | .inr members =>
    if createDm then do
      let id ← uuid
      return (id, some members)
    else return ("", none)

/-! ## Checks of the request -/

/-- One of the list parameters: an array of at most `max` items, each of them a text of at most
`len` characters where `len` is positive. -/
def checkList (p : Value) (field : String) (max len : Nat) : Except ChatError PUnit :=
  match p.get? field with
  | none => pure ⟨⟩
  | some v => do
    let a ← okOr v.asArr (err "invalid_params" (field ++ " must be an array"))
    refuse (a.length > max) (err "invalid_params" ("Too many " ++ field))
    refuse (len > 0 ∧ a.any fun v => v.asStr.all fun x => x = "" || x.length > len)
      (err "invalid_params" ("Invalid " ++ field))

/-- The body a client sent, with Unix line ends. -/
def sendBody (p : Value) : Except ChatError String := do
  let raw ← required p "body"
  let body := String.ofList (unixLines raw.toList)
  refuse (blank body) (err "invalid_message" "Message must contain text")
  refuse (body.length > 3000)
    (err "message_too_long" (toString body.length ++ " characters exceeds 3000; send a short summary and reference a file. Quick replies are welcome."))
  checkList p "mentions" 32 256
  checkList p "tags" 16 32
  checkList p "links" 8 0
  return body

/-- A flag that must be a boolean where it is given. -/
def checkFlag (p : Value) (key message : String) : Except ChatError PUnit :=
  refuse ((p.get? key).any (¬ ·.isBool)) (err "invalid_params" message)

namespace Store

/-- This host's enrollment was revoked. -/
def hostRevoked (s : Store) : Bool :=
  !s.isCoordinator && s.replication.hosts[s.daemonId]?.any fun h => h["active"] = .bool false

/-- The channel's settings, where the conversation is a channel. -/
def channelSettings (s : Store) (conv : String) : Option Value :=
  (s.channelOf conv).map fun e => s.channelInfo e.1 e.2

/-- The sender may post in the conversation now. -/
def checkPosting (s : Store) (actor conv : String) : Except ChatError PUnit := do
  refuse (s.hasChannel conv ∧ ¬ s.joined actor conv)
    (err "join_required" "Join this channel before posting: chat_channels(action=\"join\", conversation=<channel_id>, request_id=<new_id>). Public history remains browsable.")
  refuse ((s.channelSettings conv).any fun channel => channel["archived"] = .bool true)
    (err "conversation_archived"
      "This channel is archived; retain the draft until an admin reopens it")

/-- A message of the conversation that may be replied to. -/
def replyParent (s : Store) (conv id : String) : Option Value :=
  (s.events.map Published.event).find? fun e =>
    e["id"] = .str id && e["type"] = .str "message.create" && e["conversation_id"] = .str conv

/-- The thread of a reply: that of its parent, or the parent itself. -/
def replyRoot (s : Store) (conv : String) : Option String → Except ChatError (Option String)
  | none => pure none
  | some id => do
    let parent ← okOr (s.replyParent conv id)
      (err "not_found" "Reply parent not found in this conversation")
    return some (parent["data"]["thread_root"].asStr.getD id)

end Store

/-- File references within their limits. -/
def checkLinks (links : List Value) : Except ChatError PUnit :=
  refuse (links.any fun l => (strv l "label").length > 120 || strv l "uri" = "" || (strv l "uri").length > 2048)
    (err "invalid_link" "Links need a URI (max 2048) and a short label (max 120)")

/-! ## The message -/

/-- What `send` has settled about a message before it builds the event. -/
structure Message where
  body : String
  conv : String
  create : Option (List String)
  reply : Option String
  root : Option String
  mentions : StrSet
  recipients : StrSet
  here : Bool
  tags : Value
  links : List Value
  normsSeen : Value
  chosen : Option Name

namespace Store

/-- The revision of the sender's identity. -/
def identityRevision (s : Store) (actor : String) (chosen : Option Name) : String :=
  match chosen, s.names[actor]? with
  | some n, _ => n.revisionId
  | none, some n => n.revisionId
  | none, none => s.ownerIdentityRevision

/-- The enrollment under which this operation runs. -/
def enrollmentSeen (s : Store) : String :=
  ((s.replication.hosts[s.operationOrigin]?.bind fun h => h["enrollment_revision"].asStr)).getD
    s.enrollmentRevision

/-- The revision of the conversation's settings. -/
def conversationRevision (s : Store) (conv : String) : Value :=
  match s.channelSettings conv with
  | some channel => channel["revision"]
  | none => conv

/-- The data of a message, without the claims that a new name or a new DM adds. -/
def messageData (s : Store) (actor : String) (m : Message) (attribution : Option Value) : Value :=
  let seen := object [("identity", s.identityRevision actor m.chosen),
    ("conversation", s.conversationRevision m.conv), ("enrollment", s.enrollmentSeen),
    ("membership", optStr s.membershipRevisions[m.conv]?)]
  let data := object [("reply_to", optStr m.reply), ("thread_root", optStr m.root),
    ("mentions", strings m.mentions.toList), ("tags", m.tags), ("links", .arr m.links),
    ("norms_seen", m.normsSeen), ("metadata_seen", seen), ("mention_here", .bool m.here),
    ("mention_recipients", strings m.recipients.toList)]
  let data := match attribution with
    | some claim => data.set "actor_attribution" claim
    | none => data
  match m.create with
  | some members => data.set "conversation_create"
      (object [("id", m.conv), ("kind", "dm"), ("members", strings members)])
  | none => data

/-- The name under which the message appears. -/
def senderName (s : Store) (actor : String) (chosen : Option Name) : String :=
  match chosen, s.names[actor]? with
  | some n, _ => n.name
  | none, some n => n.name
  | none, none => "Owner"

end Store

/-- Commit one attestation, unless the history has it. -/
def repairAttestation (event : Value) : Action PUnit := do
  onlyIf (¬ (← get).hasEvent (strv event "id")) do
    let _ ← commit event

/-- Commit the attestations that retained messages carry and the history lacks. -/
def repairAttestations : Action PUnit := do
  let missing ← query fun s =>
    (s.events.filterMap fun p => p.event["data"]["identity_attestation"].asStr).mapM fromSlice
  missing.forM repairAttestation

/-- The optional evidence is dropped where it would make the event too large. -/
def fitAttribution (attribution : Option Value) (e : Value) : Value :=
  if attribution.isSome ∧ (Externals.pretty e).utf8ByteSize > 65536 then
    e.set "data" (e["data"].erase "actor_attribution")
  else e

/-- The event in which a participant's first name is attested. -/
def attestationDraft (name : String) (claim : Value) (key : String) : Draft :=
  systemDraft "identity.update" (name ++ " joined messaging")
    (object [("record_kind", "attestation"), ("identity", claim)]) key

/-- The name of a sender that has none yet. -/
def claimName (actor uid : String) (p : Value) : Action (Option Name) := do
  if actor = "owner" ∨ (← get).names.contains actor then return none
  else
    let name ← check (required p "name")
    let n ← allocate actor name uid
    return some n

/-- Everyone a message is for: those mentioned, and for a broadcast the channel's members. -/
def Store.recipients (s : Store) (conv : String) (mentions : StrSet) (here : Bool) : StrSet :=
  if here then .ofList (mentions.toList ++ (entryD s.memberships conv ∅).toList) else mentions

/-- Everything a send checks, up to the sender's name. -/
def compose (actor uid body : String) (p : Value) (people : List Person) : Action Message := do
  let (conv, create) ← resolve actor p people true
  let s ← get
  onlyIf (create.isSome ∨ actor ≠ "owner" ∧ ¬ s.names.contains actor)
    (query (·.sharedMutationAllowed))
  check (checkFlag p "mention_here" "mention_here must be a boolean")
  enrollParticipant actor
  query (·.checkPosting actor conv)
  let s ← get
  let reply := textAt p "reply_to"
  let root ← check (s.replyRoot conv reply)
  let members := create.or s.conversations[conv]?
  let plan ← check (s.planMentions actor conv members p body people)
  let here := decide (p["mention_here"] = .bool true)
  refuse (here ∧ members.isSome)
    (err "invalid_mention" "@here is available in channels; DMs already notify their members")
  let links := p["links"].items
  check (checkLinks links)
  let chosen ← claimName actor uid p
  refuse ((p.get? "norms_seen").any (¬ ·.isObj))
    (err "invalid_params" "norms_seen must be an object")
  return {
    body, conv, create, reply, root, mentions := plan.mentions
    recipients := s.recipients conv plan.mentions here
    here, tags := (p.get? "tags").getD (.arr []), links
    normsSeen := (p.get? "norms_seen").getD (object []), chosen }

/-- The data of a message, with the claim and the attestation of a new name. -/
def claimedData (actor name : String) (data : Value) : Option Name → Action Value
  | none => pure data
  | some n => do
    let claim := identityOf n actor
    let key ← uuid
    let attestation ← event (attestationDraft name claim key)
    return (data.set "identity_claim" claim).set "identity_attestation"
      (.str (Externals.compact attestation))

/-- The message event. -/
def messageEvent (actor kind : String) (request : Request) (m : Message)
    (attribution : Option Value) : Action Value := do
  let s ← get
  let name := s.senderName actor m.chosen
  let data ← claimedData actor name (s.messageData actor m attribution) m.chosen
  let e ← event
    { type := "message.create", conv := some m.conv, body := m.body, data, actor, name, kind
      key := request.key, digest := request.digest }
  return fitAttribution attribution e

/-- Save a client's message. Returns its event. -/
def sendWithAttribution (actor uid kind : String) (p : Value) (people : List Person)
    (attribution : Option Value) : Action Value := do
  let request ← query (·.request actor p "message.create")
  match request.prior with
  | some e => return e
  | none =>
    let s ← get
    refuse s.hostRevoked
      (err "host_revoked" "This host's messaging enrollment was revoked; retain the draft")
    let body ← check (sendBody p)
    let m ← compose actor uid body p people
    let e ← messageEvent actor kind request m attribution
    let e ← commit e
    -- A failed repair is reported with the saved message, and does not undo it.
    tryCatch repairAttestations fun _ => pure ⟨⟩
    return e

def send (actor uid kind : String) (p : Value) (people : List Person) : Action Value :=
  sendWithAttribution actor uid kind p people none

end

end ClaudeManager
