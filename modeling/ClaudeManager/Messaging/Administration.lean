import ClaudeManager.Messaging.Send

/-!
# Administration

Channels and their membership, pins, norms, availability, maintenance notices and the host
directory: the metadata that only a coordinator publishes.
-/

namespace ClaudeManager

open Json Containers Program

section

variable [Externals]

/-! ## Channel settings -/

/-- A text field of a channel. -/
def textField (p : Value) (key : String) (max : Nat) (fields : Value) : Except ChatError Value :=
  match p.get? key with
  | none => pure fields
  | some value => do
    let text ← okOr value.asStr (err "invalid_params" (key ++ " must be text"))
    refuse (text.length > max ∨ (key = "name" ∧ (blank text ∨ text.toList.any isControl)))
      (err "invalid_params" (key ++ " exceeds " ++ toString max ++ " characters or is invalid"))
    return fields.set key (if key = "name" then trimmed text else text)

/-- A flag of a channel. -/
def flagField (p : Value) (key : String) (fields : Value) : Except ChatError Value :=
  match p.get? key with
  | none => pure fields
  | some value => do
    refuse (¬ value.isBool) (err "invalid_params" (key ++ " must be a boolean"))
    return fields.set key value

namespace Store

/-- One named admin; Owner needs no name on the list. -/
def adminId (s : Store) (creator : String) (people : List Person) (existing : List Value)
    (value : Value) : Except ChatError (Option String) := do
  let id ← okOr value.asStr (err "invalid_params" "admins must be participant IDs")
  refuse (id ≠ "owner" ∧ id ≠ creator ∧ ¬ s.names.contains id ∧ ¬ people.any (·.id = id)
      ∧ ¬ existing.contains (.str id))
    (err "not_found" "Admin not found; resolve participant IDs with chat_people")
  return (if id = "owner" then none else some id)

def adminsField (s : Store) (p : Value) (creator : String) (people : List Person)
    (existing : List Value) (fields : Value) : Except ChatError Value :=
  match p.get? "admins" with
  | none => pure fields
  | some value => do
    let admins ← okOr value.asArr (err "invalid_params" "admins must be participant IDs")
    refuse (admins.length > 32) (err "invalid_params" "At most 32 named channel admins")
    let ids ← admins.mapM (s.adminId creator people existing)
    let ids : StrSet := .ofList ids.reduceOption
    return fields.set "admins" (strings ids.toList)

def validateChannelFields (s : Store) (p : Value) (creator : String) (people : List Person)
    (existing : List Value) : Except ChatError Value := do
  let fields ← textField p "name" 100 (object [])
  let fields ← textField p "description" 1000 fields
  let fields ← flagField p "allow_agent_edits" fields
  let fields ← flagField p "default_join" fields
  let fields ← flagField p "archived" fields
  s.adminsField p creator people existing fields

def channelActorName (s : Store) (actor : String) : String :=
  match s.names[actor]? with
  | some n => n.name
  | none => if actor = "owner" then "Owner" else "Agent"

def channelAdmin (actor : String) (channel : Value) : Bool :=
  actor = "owner" || channel["admins"].items.contains (.str actor)

end Store

/-- Write every member of `fields` into `v`. -/
def mergeFields (v fields : Value) : Value :=
  match fields with
  | .obj members => members.foldl (fun v m => v.set m.1 m.2) v
  | _ => v

/-! ## Creating channels -/

/-- The prefixes of a channel path, shortest first. -/
def pathPrefixes (path : String) : List String :=
  let segments := splitChars '/' path.toList
  (List.range segments.length).map fun n =>
    String.ofList (List.intercalate ['/'] (segments.take (n + 1)))

/-- The creation entry of one channel. The creator is one of its admins. -/
def itemOf (actor path part id : String) (fields : Value) : Value :=
  let item := object [("path", part), ("id", id), ("name", part), ("description", ""),
    ("admins", if actor = "owner" then .arr [] else .arr [.str actor]),
    ("allow_agent_edits", .bool false)]
  let item := if part = path then mergeFields item fields else item
  if actor ≠ "owner" ∧ ¬ item["admins"].items.contains (.str actor) then
    item.set "admins" (.arr (item["admins"].items ++ [.str actor]))
  else item

def creationItem (actor path part id : String) (fields : Value) : Except ChatError Value := do
  let item := itemOf actor path part id fields
  refuse (item["admins"].items.length > 32)
    (err "invalid_params" "At most 32 named admins including the creator on creation")
  return item

def creationItems (actor path : String) (fields : Value) : List String → Action (List Value)
  | [] => pure []
  | part :: rest => do
    if (← get).channels.byPath.contains part then
      creationItems actor path fields rest
    else
      let id ← uuid
      let item ← check (creationItem actor path part id fields)
      let items ← creationItems actor path fields rest
      return item :: items

def createChannel (actor : String) (p : Value) (people : List Person) : Action Value := do
  let request ← query (·.request actor p "channel.create")
  match request.prior with
  | some e => return e
  | none =>
    let path ← check (required p "path")
    check (channelPath path)
    refuse ((← get).channels.byPath.contains path) (err "channel_exists" "Channel already exists")
    let fields ← query (·.validateChannelFields p actor people [])
    let items ← creationItems actor path fields (pathPrefixes path)
    publish
      { type := "channel.create"
        body := "Created #" ++ path
        data := object [("channels", .arr items), ("membership_version", .num 1)]
        actor
        name := (← get).channelActorName actor
        kind := kindOf actor
        key := request.key
        digest := request.digest }

/-! ## Updating channels -/

/-- The channel a request selects by path or by ID. -/
def selectChannel (actor : String) (p : Value) (people : List Person) :
    Action (String × String) := do
  let selector := match p.get? "path" with
    | some path => (object []).set "channel" path
    | none => object []
  let selector := match p.get? "conversation" with
    | some id => selector.set "conversation" id
    | none => selector
  let (id, _) ← resolve actor selector people false
  let s ← get
  okOr (s.channelOf id) (err "not_found" "Channel not found")

/-- Fields that only an admin of the channel may change. -/
def accessFields : List String := ["admins", "allow_agent_edits", "default_join", "archived"]

/-- The fields an update merges into a channel's settings. -/
def Store.mergedChannel (s : Store) (p current : Value) (people : List Person) :
    Except ChatError (Option Value) := do
  let fields ← s.validateChannelFields p (strv current "created_by") people
    current["admins"].items
  refuse (fields = object [])
    (err "invalid_params" "Supply name, description, admins, allow_agent_edits, default_join or archived")
  let merged := mergeFields current fields
  return some (["can_edit", "can_manage", "joined", "member_count", "membership_revision"].foldl
    (fun v key => v.erase key) merged)

/-- The settings an update would give the channel, without a revision. -/
def Store.updatedChannel (s : Store) (actor : String) (p current : Value)
    (people : List Person) : Except ChatError (Option Value) := do
  let admin := Store.channelAdmin actor current
  refuse (¬ (admin ∨ current["allow_agent_edits"] = .bool true)
      ∨ (accessFields.any fun k => (p.get? k).isSome) ∧ ¬ admin)
    (err "unauthorized" "Only channel admins can change access; channel editing is restricted by its policy")
  let expected ← required p "expected_revision"
  if current["revision"] ≠ .str expected then return none
  else s.mergedChannel p current people

/-- Update a channel's settings; `none` where the expected revision is not the current one. -/
def updateChannel (actor : String) (p : Value) (people : List Person) : Action (Option Value) := do
  let request ← query (·.request actor p "channel.update")
  match request.prior with
  | some e => return some e
  | none =>
    let (path, id) ← selectChannel actor p people
    let current := (← get).channelInfo path id
    match ← query (·.updatedChannel actor p current people) with
    | none => return none
    | some channel =>
      let revision ← uuid
      let channel := channel.set "revision" revision
      let e ← publish
        { type := "channel.update"
          body := "Updated #" ++ strv channel "path" ++ ": " ++ strv channel "name"
          data := object [("channel", channel), ("expected_revision", current["revision"])]
          actor
          name := (← get).channelActorName actor
          kind := kindOf actor
          key := request.key
          digest := request.digest }
      return some e

/-! ## Membership -/

namespace Store

/-- The name under which an actor appears, by the directory and the given people. -/
def personName (s : Store) (people : List Person) (id fallback : String) : String :=
  match s.names[id]?, people.find? (·.id = id) with
  | some n, _ => n.name
  | none, some p => p.name
  | none, none => fallback

/-- Whom a membership request is about. -/
def membershipTarget (s : Store) (actor : String) (p : Value) (people : List Person)
    (path id : String) : Except ChatError String := do
  if p["action"] = "add_member" then
    refuse (¬ Store.channelAdmin actor (s.channelInfo path id))
      (err "unauthorized" "Only channel admins and Owner can add members")
    let member ← required p "participant_id"
    refuse (member ≠ "owner" ∧ ¬ s.names.contains member ∧ ¬ people.any (·.id = member))
      (err "not_found" "Participant not found; resolve an ID with chat_people")
    return member
  else
    refuse ((p.get? "participant_id").any (· ≠ .str actor))
      (err "invalid_params" "Join/leave are self-only; admins can use add_member")
    return actor

/-- The line that announces a membership change. -/
def membershipBody (s : Store) (actor member : String) (people : List Person) (path : String)
    (add joined : Bool) : String :=
  let name := s.personName people actor (if actor = "owner" then "Owner" else "Agent")
  if add then
    name ++ " added "
      ++ s.personName people member (if member = "owner" then "Owner" else member)
      ++ " to #" ++ path
  else name ++ " " ++ (if joined then "joined" else "left") ++ " #" ++ path

end Store

def changeMembership (actor : String) (p : Value) (people : List Person) : Action Value := do
  let request ← query (·.request actor p "channel.membership")
  match request.prior with
  | some e => return e
  | none =>
    let (path, id) ← selectChannel actor p people
    let member ← query (·.membershipTarget actor p people path id)
    let add := decide (p["action"] = .str "add_member")
    let joined := add || p["action"] = .str "join"
    let data := object [("participant_id", member), ("joined", .bool joined)]
    let s ← get
    publish
      { type := "channel.membership"
        conv := some id
        body := s.membershipBody actor member people path add joined
        data := if add then data.set "action" "add_member" else data
        actor
        name := s.personName people actor (if actor = "owner" then "Owner" else "Agent")
        kind := kindOf actor
        key := request.key
        digest := request.digest }

/-! ## Initial memberships -/

/-- A rule that follows the channel. -/
def followsChannel (path id : String) (rule : FollowRule) : Bool :=
  (rule.inbox || rule.wake) && rule.thread.isNone
    && (rule.channel.any (fun base => base = "*" || base = path
        || rule.includeChildren && hasPrefix path (base ++ "/"))
      || rule.conversation = some id)

/-- The creator, the posters and the followers of a channel. -/
def Store.initialMembers (s : Store) (path id : String) : Except ChatError StrSet := do
  let events := s.events.map Published.event
  let creator := (events.find? fun e =>
      e["data"]["channels"].items.any fun item => item["id"] = .str id).map
    fun created => strv created["actor"] "id"
  let posters ← (events.filter fun e =>
      e["type"] = .str "message.create" && e["conversation_id"] = .str id).mapM
    fun e => required e["actor"] "id"
  let followers := (s.personal.toList.filter fun e => e.2.rules.any (followsChannel path id)).map
    Prod.fst
  return .ofList ((creator.filter (· ≠ "system")).toList ++ posters ++ followers)

/-- Give a legacy channel its membership, once. -/
def initializeMembership (channel : String × String) : Action PUnit := do
  let (path, id) := channel
  let s ← get
  onlyIf (¬ s.memberships.contains id) do
    let members ← query (·.initialMembers path id)
    let _ ← publish (systemDraft "channel.membership.initialize"
      ("Initialized membership for #" ++ path ++ " from creators, posters and explicit follows")
      (object [("channel_id", id), ("members", strings members.toList), ("version", .num 1),
        ("default_join", .bool (path = "general" || path = "cm-general"))])
      ("membership-v1:" ++ id))

def initializeMemberships : Action PUnit := do
  let s ← get
  s.channels.byPath.toList.forM initializeMembership

/-! ## Pins -/

/-- The latest pin event of a conversation. -/
def Store.pinsRevision (s : Store) (cid : String) : String :=
  let pins := (s.readModel.pins.reverse.filterMap (s.events[·]?)).filter (·.position ≤ s.position)
  match pins.find? fun p =>
      p.event["conversation_id"] = .str cid && p.event["type"] = .str "conversation.pin" with
  | some p => strv p.event "id"
  | none => cid

/-- The messages that are pinned now. -/
def Store.pinned (s : Store) : StrSet :=
  ((s.readModel.pins.filterMap (s.events[·]?)).filter (·.position ≤ s.position)).foldl
    (fun pins p =>
      let id := strv p.event["data"] "target_id"
      if p.event["data"]["pinned"] = .bool true then pins.insert id else pins.erase id) ∅

/-- The actor may pin in the conversation. -/
def Store.checkPinner (s : Store) (actor cid : String) : Except ChatError PUnit :=
  match s.channelOf cid with
  | none => pure ⟨⟩
  | some (path, _) =>
    let channel := s.channelInfo path cid
    refuse (¬ Store.channelAdmin actor channel ∧ channel["allow_agent_edits"] ≠ .bool true)
      (err "unauthorized" "Only channel admins can pin messages unless agent editing is enabled")

/-- The actor may pin in the conversation, and the message is one of it. -/
def Store.checkPin (s : Store) (actor cid target : String) : Except ChatError PUnit := do
  s.checkPinner actor cid
  refuse (target = "") (err "invalid_params" "message_id is required")
  refuse (¬ (s.events.map Published.event).any fun e => e["id"] = .str target && e["type"] = .str "message.create" && e["conversation_id"] = .str cid)
    (err "not_found" "Message not found in this conversation")

/-- No more than a hundred messages of a conversation are pinned. -/
def Store.checkPinLimit (s : Store) (action cid target : String) : Except ChatError PUnit :=
  let active := s.pinned
  refuse (action = "set" ∧ ¬ active.contains target
      ∧ ((s.events.map Published.event).filter fun e => e["conversation_id"] = .str cid && active.contains (strv e "id")).length ≥ 100)
    (err "pin_limit" "At most 100 pinned messages per conversation; unpin one first")

/-- What pinning or unpinning a message publishes. -/
def Store.pinDraft (s : Store) (actor action cid target : String) (request : Request) : Draft where
  type := "conversation.pin"
  conv := some cid
  body := (if action = "set" then "Pinned" else "Unpinned") ++ " message " ++ target
  data := object [("target_id", target), ("pinned", .bool (action = "set")),
    ("expected_revision", s.pinsRevision cid)]
  actor
  name := s.channelActorName actor
  kind := kindOf actor
  key := request.key
  digest := request.digest

/-- Pin or unpin a message; `none` where the expected revision is not the current one. -/
def pins (actor : String) (p : Value) (people : List Person) : Action (Option Value) := do
  let action := strv p "action"
  refuse (action ≠ "set" ∧ action ≠ "remove")
    (err "unsupported_feature" "Pin actions: list, set, remove")
  let request ← query (·.request actor p "conversation.pin")
  match request.prior with
  | some e => return some e
  | none =>
    let (cid, _) ← resolve actor p people false
    let target := strv p "message_id"
    query (·.checkPin actor cid target)
    let s ← get
    let expected ← check (required p "expected_revision")
    if expected ≠ s.pinsRevision cid then return none
    else
      check (s.checkPinLimit action cid target)
      let e ← publish (s.pinDraft actor action cid target request)
      return some e

/-! ## Norms -/

namespace Store

/-- `channel.trim_start_matches('#')`. -/
def channelPathOf (path : String) : String := String.ofList (path.toList.dropWhile (· = '#'))

/-- The document a norms request is about. -/
def normsScope (s : Store) (p : Value) : Except ChatError String := do
  refuse ((p.get? "scope").any fun v => v ≠ .null && !v.isStr)
    (err "invalid_scope" "scope must be a string")
  let scope := (textAt p "scope").getD "global"
  match (p.get? "channel").filter (· ≠ .null) with
  | some path =>
    let path ← okOr path.asStr (err "invalid_scope" "channel must be a path")
    let id ← okOr s.channels.byPath[channelPathOf path]? (err "not_found" "Channel not found")
    let resolved := "channel:" ++ id
    refuse (scope ≠ "global" ∧ scope ≠ resolved)
      (err "invalid_scope" "scope and channel refer to different documents")
    return resolved
  | none =>
    if scope = "global" ∨ (stripPrefix? scope "channel:").any s.hasChannel then return scope
    else throw (err "invalid_scope"
      "Use global, channel:<channel-id>, or the channel path parameter")

/-- The current document of a scope. A channel's ID stands for its initial empty one. -/
def currentNorms (s : Store) (scope : String) : Value :=
  if scope = "global" then s.norms
  else match s.channelNorms[scope]? with
    | some doc => doc
    | none => object [("scope", scope),
        ("revision", optStr (stripPrefix? scope "channel:")), ("text", ""),
        ("parent_revision", .null)]

/-- The text of a retained revision of a document. -/
def normRevisionText (s : Store) (scope revision : String) : Except ChatError String :=
  match ((s.readModel.metadata.filterMap (s.events[·]?)).map Published.event).find? fun e =>
      e["type"] = .str "norms.update" && e["data"]["scope"] = .str scope
        && e["data"]["revision"] = .str revision with
  | some e => pure (strv e["data"] "text")
  | none =>
    if stripPrefix? scope "channel:" = some revision then pure ""
    else throw (err "not_found" "Norms revision not found in this scope")

/-- The text a norms request names: that of an older revision, or its own. -/
def requestedNorms (s : Store) (p : Value) (scope action : String) : Except ChatError String :=
  if action = "revert" then do
    let revision ← required p "revision"
    s.normRevisionText scope revision
  else do
    let text ← okOr (textAt p "text") (err "invalid_params" "text must be a string")
    return String.ofList (unixLines text.toList)

/-- The text a norms request publishes, within its limits. -/
def normsText (s : Store) (p : Value) (scope action : String) : Except ChatError String := do
  let text ← s.requestedNorms p scope action
  refuse (text.utf8ByteSize > 32768)
    (err "norms_too_long" "Norms are limited to 32 KiB UTF-8; retain the draft and reference a longer file")
  return text

/-- The actor may edit the document. -/
def checkNormsEditor (s : Store) (actor scope : String) : Except ChatError PUnit :=
  match (stripPrefix? scope "channel:").bind s.channelOf with
  | none => pure ⟨⟩
  | some (path, id) =>
    let channel := s.channelInfo path id
    refuse (¬ (Store.channelAdmin actor channel ∨ channel["allow_agent_edits"] = .bool true))
      (err "unauthorized" "Only channel admins can edit norms unless agent editing is enabled")

end Store

/-- What a new revision of a norms document publishes. -/
def Store.normsDraft (s : Store) (actor kind name action scope expected text summary revision : String)
    (p : Value) (request : Request) : Draft :=
  let channel := stripPrefix? scope "channel:"
  let label := match channel.bind s.channelOf with
    | some (path, _) => "#" ++ path
    | none => "global"
  { type := "norms.update"
    conv := channel
    body := name ++ " updated " ++ label ++ " norms: " ++ summary
    data := object [("scope", scope), ("revision", revision),
      ("parent_revision", expected), ("text", text), ("summary", summary),
      ("reverted_from", if action = "revert" then p["revision"] else .null)]
    actor, name, kind
    key := request.key
    digest := request.digest }

/-- Publish a new revision of a norms document; `none` where the expected revision is not the
current one. -/
def changeNorms (actor kind name : String) (p : Value) : Action (Option Value) := do
  let action ← check (required p "action")
  refuse (action ≠ "publish" ∧ action ≠ "revert")
    (err "invalid_params" "Expected publish or revert")
  let request ← query (·.request actor p ("norms." ++ action))
  match request.prior with
  | some e => return some e
  | none =>
    let scope ← query (·.normsScope p)
    let s ← get
    check (s.checkNormsEditor actor scope)
    let expected ← check (required p "expected_revision")
    let summary ← check (required p "summary")
    refuse (blank summary ∨ summary.length > 500)
      (err "invalid_params" "Give a summary of 1–500 characters")
    let text ← query (·.normsText p scope action)
    if (s.currentNorms scope)["revision"] ≠ .str expected then return none
    else
      let revision ← uuid
      let e ← publish
        (s.normsDraft actor kind name action scope expected text summary revision p request)
      return some e

/-! ## Notices -/

/-- `{action:"set"}` of Owner's availability. -/
def setAvailability (actor : String) (p : Value) : Action Value := do
  refuse (actor ≠ "owner") (err "unauthorized" "Only Owner sets availability")
  let request ← query (·.request actor p availabilityType)
  match request.prior with
  | some e => return e
  | none =>
    let raw ← check (required p "level")
    refuse (raw ≠ "unset" ∧ ¬ validLevel (.str raw))
      (err "invalid_params" "level must be away, around, focused, on-call or unset")
    let note := trimmed ((textAt p "note").getD "")
    refuse (note.length > 200 ∨ note.toList.any isControl)
      (err "invalid_params" "note must be one line of at most 200 characters")
    let source := (textAt p "source").getD "cli"
    refuse (source ≠ "tui" ∧ source ≠ "cli") (err "invalid_params" "source must be tui or cli")
    let level : Value := if raw = "unset" then .null else raw
    publish
      { type := availabilityType
        body := "Owner availability: " ++ raw
        data := object [("level", level),
          ("previous", (← get).ownerAvailability["level"]), ("source", source), ("note", note)]
        actor := "owner"
        name := "Owner"
        kind := "owner"
        key := request.key
        digest := request.digest }

/-- A maintenance record, as the daemon writes it. -/
structure MaintenanceNotice where
  id : String
  active : Bool
  changedAt : String
  reason : String

def MaintenanceNotice.encode (n : MaintenanceNotice) : Value :=
  object [("id", n.id), ("active", .bool n.active), ("changed_at", n.changedAt),
    ("reason", n.reason)]

/-- The request key of a notice. -/
def MaintenanceNotice.key (n : MaintenanceNotice) : String :=
  "maintenance-v1:" ++ n.id ++ ":" ++ n.changedAt

def MaintenanceNotice.draft (n : MaintenanceNotice) : Draft :=
  systemDraft maintenanceType
    (if n.active then "CM maintenance: " ++ n.reason else "CM maintenance cleared") n.encode n.key

/-- Replicate a maintenance notice to every host. A replica publishes none. -/
def publishMaintenance (notice : MaintenanceNotice) : Action Bool := do
  let s ← get
  if ¬ s.isCoordinator then return false
  else
    onlyIf (s.priorSystemEvent notice.key).isNone do
      let _ ← publish notice.draft
    return true

/-- A notice of the daemon in a channel. -/
def noticeDraft (channelId body key : String) : Draft :=
  { systemDraft "message.create" body
      (object [("reply_to", .null), ("thread_root", .null), ("mentions", .arr []),
        ("tags", strings ["system"]), ("links", .arr []), ("norms_seen", object []),
        ("metadata_seen", object []), ("mention_here", .bool false),
        ("mention_recipients", .arr [])]) key with
    conv := some channelId }

def postSystemNotice (channelId body key : String) : Action Value := do
  let s ← get
  refuse (¬ s.hasChannel channelId) (err "not_found" "Channel not found")
  match s.priorSystemEvent key with
  | some e => return e
  | none => publish (noticeDraft channelId body key)

/-! ## Hosts -/

/-- A person that `host` may register. -/
def registrable (host : String) (p : Person) : Bool := ownPerson host p && p.name.length ≤ 256

/-- The enrollment revision of a host: the one it has, unless its standing changes. -/
def Store.hostRevision (s : Store) (host : String) (active ownerAccess : Bool) : Option String :=
  (s.replication.hosts[host]?.filter fun v =>
    v["active"] = .bool active && v["owner_access"] = .bool ownerAccess).bind
    fun v => v["enrollment_revision"].asStr

/-- The directory entry of a host. -/
def hostData (host : String) (active ownerAccess : Bool) (revision : String)
    (people : List Person) : Value :=
  object [("host_id", host), ("active", .bool active), ("owner_access", .bool ownerAccess),
    ("enrollment_revision", revision),
    ("people", .arr ((people.mergeSort (fun a b => a.id ≤ b.id)).map Person.encode))]

/-- A revision for a host whose standing changes is a new one. -/
def hostRevisionOrNew (host : String) (active ownerAccess : Bool) : Action String := do
  let s ← get
  match s.hostRevision host active ownerAccess with
  | some revision => return revision
  | none => uuid

def registerHost (host : String) (active ownerAccess : Bool) (people : List Person) :
    Action Value := do
  query (·.sharedMutationAllowed)
  check (uuidOr host (err "invalid_params" "Invalid host ID"))
  refuse (people.any fun p => ¬ registrable host p)
    (err "unauthorized" "A host may register only its own participants")
  let revision ← hostRevisionOrNew host active ownerAccess
  let data := hostData host active ownerAccess revision people
  let s ← get
  onlyIf (s.replication.hosts[host]? ≠ some data) do
    let key ← uuid
    let _ ← publish (systemDraft "host.update"
      ("System " ++ (if active then "enrolled/refreshed" else "revoked") ++ " messaging host "
        ++ host) data key)
  onlyIf (active = true) (enrollParticipants people)
  return data

/-! ## Read cursors -/

/-- What Owner's cursors publish. -/
def cursorDraft (fresh : List (String × ReadCursor)) (key : String) : Draft where
  type := "read.cursor"
  body := "Owner read conversations"
  data := object [("cursors", object (fresh.map fun e => (e.1, e.2.encode)))]
  actor := "owner"
  name := "Owner"
  kind := "owner"
  key

/-- Retain cursors that have advanced. Owner's travel as an event between hosts. -/
def retainCursors (actor : String) (fresh : List (String × ReadCursor)) : Action PUnit := do
  let s ← get
  if actor = "owner" ∧ s.replication.enabled then
    let key ← uuid
    let _ ← publish (cursorDraft fresh key)
  else
    -- Cursors that cannot be saved are taken back.
    query (·.notDegraded)
    modify fun s => fresh.foldl (fun s e => s.mergeCursorMemory actor e.1 e.2) s

/-- Advance a participant's cursors. -/
def advanceCursors (actor : String) (cursors : List (String × ReadCursor)) : Action Bool := do
  let s ← get
  let fresh := cursors.filter fun e =>
    (s.reads[actor]?.bind (·.cursors[e.1]?)).all fun old => old < e.2
  if fresh.isEmpty then return false
  else
    query (·.ensureMessagingWritable)
    retainCursors actor fresh
    return true

/-- Owner's cursors that no retained event has, in chunks that one event holds. -/
def Store.unretainedReads (s : Store) : List (List (String × ReadCursor)) :=
  ((entryD s.reads "owner" {}).cursors.toList.filter fun e =>
    s.readModel.ownerRetained[e.1]?.all (· < e.2)).toChunks 200

/-- Publish Owner's cursors from before they travelled as events. -/
def retainLegacyOwnerReads : Action PUnit := do
  let s ← get
  s.unretainedReads.forM fun chunk => do
    let key ← uuid
    let _ ← publish { cursorDraft chunk key with body := "Migrated Owner read cursors" }

/-- A participant's saved cursors, and the acknowledgements that wait for their messages. -/
structure Checkpoint where
  cursors : Map ReadCursor := ∅
  legacyPending : StrSet := ∅

/-- What a participant's files say: its checkpoint, else the acknowledgements of an older release. -/
def Store.loadedRead (s : Store) (actor : String) (file : Option Checkpoint)
    (legacy : Option StrSet) : Store :=
  match file with
  | some c => c.cursors.toList.foldl (fun s e => s.mergeCursorMemory actor e.1 e.2)
      (s.mergeLegacyMemory actor c.legacyPending.toList)
  | none => s.mergeLegacyMemory actor ((legacy.getD ∅).toList)

/-- Load a participant's read state, once. -/
def loadRead (actor : String) (file : Option Checkpoint) (legacy : Option StrSet) :
    Action PUnit := do
  let s ← get
  onlyIf (¬ s.readModel.loaded.contains actor) do
    modify fun s => { s with reads := upsert s.reads actor {} id }
    modify (·.loadedRead actor file legacy)
    modify fun s => { s with readModel.loaded := s.readModel.loaded.insert actor }

/-! ## Reactions -/

/-- The name under which a participant reacts. -/
def Store.reactorName (s : Store) (actor : String) : Except ChatError String :=
  if actor = "owner" then pure "Owner"
  else okOr (s.names[actor]?.map (·.name))
    (err "name_required" "Claim a name with chat_send first")

/-- The event of a reaction: the one of an earlier request, or a new one. -/
def publishReaction (actor id emoji : String) (p target : Value) (request : Request) :
    Action Value :=
  match request.prior with
  | some e => return e
  | none => do
    let name ← query (·.reactorName actor)
    publish
      { type := "reaction"
        conv := textAt target "conversation_id"
        body := "Reaction updated"
        data := object [("message_id", id), ("emoji", emoji),
          ("remove", .bool (p["remove"] = .bool true))]
        actor, name
        kind := kindOf actor
        key := request.key
        digest := request.digest }

/-- A message that the actor can see. -/
def Store.reactionTarget (s : Store) (actor id : String) : Option Value :=
  ((s.published id).filter fun e => e.event["type"] = .str "message.create"
    && s.visible actor (strv e.event "conversation_id")).map Published.event

/-- React to a message that the actor can see, which also reads it where it mentions the actor.
Returns the event. -/
def react (actor : String) (p : Value) : Action Value := do
  let id ← check (required p "message_id")
  let emoji ← check (required p "emoji")
  refuse (¬ emojis.contains emoji ∨ (p.get? "remove").any (¬ ·.isBool))
    (err "invalid_reaction" "Use one of ✅ 👀 👍 ❌ 🎉 and a boolean remove")
  let s ← get
  let target ← okOr (s.reactionTarget actor id) (err "not_found" "Reaction message not found")
  let request ← query (·.request actor p "reaction")
  let e ← publishReaction actor id emoji p target request
  onlyIf (p["remove"] ≠ .bool true ∧ (mentionRecipients target).contains actor) do
    let cid ← check (required target "conversation_id")
    let _ ← advanceCursors actor [(cid, .of target)]
  return e

/-! ## Opening -/

/-- The publications that have neither a receipt nor a rejection. -/
def Store.undecided (s : Store) : List Published :=
  s.events.filter fun e =>
    !s.replication.receipts.contains (strv e.event "id")
      && !s.replication.rejections.contains (strv e.event "id")

def retainLegacyReceipt (e : Published) : Action PUnit := do
  let s ← get
  refuse (e.event["origin_daemon_id"] ≠ .str s.daemonId)
    (err "invalid_receipt" "Foreign publication has no retained acceptance")
  recordReceipt (s.ownReceipt e.position e.event e.eventSha256)

/-- Attest, as the original coordinator, publications from before receipts existed. -/
def retainLegacyReceipts : Action PUnit := do
  let s ← get
  onlyIf (s.isCoordinator = true) (s.undecided.forM retainLegacyReceipt)

/-- Channels that every space has. -/
def bootstrapChannels : List (String × String) :=
  [("general", "Shared discussion"),
    ("cm-general", "Claude Manager usage, coordination, upcoming changes and release notes")]

def bootstrapChannel (channel : String × String) : Action PUnit := do
  let (path, description) := channel
  let s ← get
  onlyIf (¬ s.channels.byPath.contains path) do
    let id ← uuid
    let _ ← publish (systemDraft "channel.create" ("System created #" ++ path)
      (object [("membership_version", .num 1), ("channels", .arr [object [("path", path),
        ("id", id), ("description", description), ("default_join", .bool true)]])])
      ("bootstrap-" ++ path))

/-- The first norms of a space. -/
def bootstrapNorms (norms : String) : Action PUnit := do
  let s ← get
  onlyIf (s.norms["revision"] = .null) do
    let revision ← uuid
    let _ ← publish (systemDraft "norms.update" "System initialized shared norms"
      (object [("scope", "global"), ("revision", revision), ("text", norms)])
      "bootstrap-norms")

/-- What a coordinator derives from the retained history. -/
def recoverProjection : Action PUnit := do
  initializeMemberships
  retainLegacyReceipts
  enrollParticipants []
  repairAttestations
  normalizeExistingNames

/-- What an open does after the replay: a coordinator completes the shared metadata. -/
def recover (norms : String) : Action PUnit := do
  let s ← get
  onlyIf (s.degraded.isNone ∧ s.isCoordinator ∧ ¬ s.frozen) do
    bootstrapChannels.forM bootstrapChannel
    bootstrapNorms norms
    tryCatch recoverProjection fun e => modify fun s =>
      { s with degraded := some ("Projection recovery failed: " ++ e.display) }

end

end ClaudeManager
