import ClaudeManager.Messaging.ChannelIndex

/-!
# The state of a messaging store

The in-memory store of one daemon, with the part of its disk that a restart reads back:
the event files and the journal directory.

Left out are projections, search, monitors, notifications and connection status, which no
operation of this development reads.
-/

namespace ClaudeManager

open Json Containers
open Program (refuse okOr)

/-! ## Participants -/

structure Name where
  name : String
  revision : Nat
  revisionId : String
  aliases : List String
  sessionUid : String
  released : Bool
  deriving DecidableEq

namespace Name

/-- `serde_json::from_value::<Name>`. Its callers have found a named field in the value, so it
is an object. -/
def decode (v : Value) : Option Name := do
  let name ← (← v.get? "name").asStr
  let revision ← (← v.get? "revision").asU64
  let revisionId ← Decode.withDefault Value.asStr "" (v.get? "revision_id")
  let aliases ← Decode.strs (← v.get? "aliases")
  let sessionUid ← (← v.get? "session_uid").asStr
  let released ← Decode.withDefault Value.asBool false (v.get? "released")
  return { name, revision, revisionId, aliases, sessionUid, released }

/-- `serde_json::to_value`. -/
def encode (n : Name) : Value :=
  object [("name", n.name), ("revision", .num n.revision), ("revision_id", n.revisionId),
    ("aliases", strings n.aliases), ("session_uid", n.sessionUid), ("released", .bool n.released)]

end Name

structure Person where
  id : String
  name : String
  sessionUid : String
  task : Option String
  present : Bool
  kind : String
  engine : Option String
  deriving DecidableEq

namespace Person

/-- `serde_json::from_value::<Person>`: an object of fields, or an array of them in order. -/
def decode : Value → Option Person
  | .arr items => do
    let id ← (← items[0]?).asStr
    let name ← (← items[1]?).asStr
    let sessionUid ← (← items[2]?).asStr
    let task ← Decode.option Value.asStr (some (← items[3]?))
    let present ← (← items[4]?).asBool
    let kind ← (← items[5]?).asStr
    let engine ← Decode.option Value.asStr items[6]?
    if items.length > 7 then none
    else return { id, name, sessionUid, task, present, kind, engine }
  | v => do
    let id ← (← v.get? "id").asStr
    let name ← (← v.get? "name").asStr
    let sessionUid ← (← v.get? "session_uid").asStr
    let task ← Decode.option Value.asStr (v.get? "task")
    let present ← (← v.get? "present").asBool
    let kind ← (← v.get? "kind").asStr
    let engine ← Decode.option Value.asStr (v.get? "engine")
    return { id, name, sessionUid, task, present, kind, engine }

/-- `serde_json::to_value`; an unknown engine is not written. -/
def encode (p : Person) : Value :=
  let fields := object [("id", p.id), ("name", p.name), ("session_uid", p.sessionUid),
    ("task", optStr p.task), ("present", .bool p.present), ("kind", p.kind)]
  match p.engine with
  | some engine => fields.set "engine" engine
  | none => fields

end Person

/-! ## Read cursors -/

/-- A place in a conversation, ordered by logical time and then by event ID. -/
structure ReadCursor where
  logicalTime : Nat
  eventId : String
  deriving DecidableEq, Inhabited

namespace ReadCursor

instance : LT ReadCursor :=
  ⟨fun a b => a.logicalTime < b.logicalTime ∨ a.logicalTime = b.logicalTime ∧ a.eventId < b.eventId⟩

instance : DecidableLT ReadCursor := fun a b =>
  inferInstanceAs (Decidable (a.logicalTime < b.logicalTime ∨ _ ∧ a.eventId < b.eventId))

instance : LE ReadCursor := ⟨fun a b => ¬ b < a⟩

instance : DecidableLE ReadCursor := fun a b => inferInstanceAs (Decidable (¬ b < a))

/-- The cursor `or_default` starts from. -/
def origin : ReadCursor := ⟨0, ""⟩

def «of» (e : Value) : ReadCursor :=
  ⟨(parseU64 (strv e "logical_time")).getD 0, strv e "id"⟩

/-- `serde_json::from_value::<ReadCursor>`; the time is a decimal text. -/
def decode : Value → Option ReadCursor
  | .arr [time, id] => do
    return ⟨← parseU64 (← time.asStr), ← id.asStr⟩
  | .arr _ => none
  | v => do
    return ⟨← parseU64 (← (← v.get? "logical_time").asStr), ← (← v.get? "event_id").asStr⟩

def encode (c : ReadCursor) : Value :=
  object [("logical_time", toString c.logicalTime), ("event_id", c.eventId)]

end ReadCursor

structure ReadState where
  cursors : Map ReadCursor := ∅

/-! ## The read model -/

structure ConversationIndex where
  messages : List (ReadCursor × Nat) := []
  arrivals : List (Nat × Nat) := []
  timeline : List (ReadCursor × Nat) := []
  authors : Map (List ReadCursor) := ∅
  mentions : Map (List ReadCursor) := ∅

/-- What one participant last said with one emoji: when, whether it stands, and the name then. -/
abbrev Reaction := ReadCursor × Bool × String

structure ReadModel where
  conversations : Map ConversationIndex := ∅
  metadata : List Nat := []
  pendingLocal : List Nat := []
  pins : List Nat := []
  loaded : StrSet := ∅
  pendingLegacy : Map StrSet := ∅
  ownerRetained : Map ReadCursor := ∅
  reactions : Map (Map (Map Reaction)) := ∅

/-! ## Retained events -/

structure Published where
  event : Value
  position : Nat
  receivedAt : String
  eventSha256 : String
  deriving DecidableEq

/-- Entries of the lookups are compared member by member. -/
instance lawfulEntry : LawfulBEq (String × String) := inferInstance

instance lawfulIdentity : LawfulBEq (String × String × String) := inferInstance

/-- First-match answers over the retained events. -/
structure EventLookups where
  conversationCreations : Map Nat := ∅
  channelListings : Map (Nat × Bool) := ∅
  channelRevisions : List ((String × String) × Nat) := []
  identities : List (String × String × String) := []
  hostEnrollments : List (String × String) := []

/-- The directory an event file lies in, under the store's root. -/
inductive Folder where
  | root
  | channel (path : String)
  | direct (id : String)
  deriving DecidableEq

/-- The path `folder/_events/origin--event.json`. -/
structure EventPath where
  folder : Folder
  origin : String
  event : String
  deriving DecidableEq

namespace Folder

def encode : Folder → Value
  | .root => .null
  | .channel path => object [("channel", path)]
  | .direct id => object [("direct", id)]

def decode (v : Value) : Option Folder :=
  match v with
  | .null => some .root
  | v =>
    match (v.get? "channel").bind Value.asStr, (v.get? "direct").bind Value.asStr with
    | some path, _ => some (.channel path)
    | _, some id => some (.direct id)
    | _, _ => none

theorem decode_encode (f : Folder) : decode f.encode = some f := by
  cases f <;> rfl

end Folder

namespace EventPath

/-- A record names the path of its event. It is kept in its parts here. -/
def encode (p : EventPath) : Value :=
  .arr [p.folder.encode, p.origin, p.event]

def decode : Value → Option EventPath
  | .arr [folder, origin, event] => do
    return ⟨← Folder.decode folder, ← origin.asStr, ← event.asStr⟩
  | _ => none

theorem decode_encode (p : EventPath) : decode p.encode = some p := by
  simp [encode, decode, Folder.decode_encode]

end EventPath

/-! ## Replication -/

structure Replication where
  coordinatorId : String
  coordinatorLineage : StrSet := ∅
  enabled : Bool := false
  operationOrigin : Option String := none
  receipts : Map Value := ∅
  rejections : Map Value := ∅
  coverage : Map Value := ∅
  hosts : Map Value := ∅
  people : Map Person := ∅

/-! ## Participant-owned state -/

/-- One notification rule, as far as membership initialisation reads it. -/
structure FollowRule where
  inbox : Bool
  wake : Bool
  thread : Option String
  channel : Option String
  conversation : Option String
  includeChildren : Bool

structure Personal where
  operations : StrSet := ∅
  rules : List FollowRule := []

/-- A continuous task's channel subscription, as far as naming reads it. -/
structure TaskBinding where
  id : String
  taskId : String
  channelId : String
  actor : String
  revision : Nat
  active : Bool
  deriving DecidableEq

/-! ## The store -/

/-- `space.json`: which space this store belongs to, and who coordinates it. -/
structure Space where
  spaceId : String
  coordinatorId : String
  coordinatorLineage : StrSet := ∅
  generation : String
  enrollmentRevision : String
  ownerIdentityRevision : String
  deriving Inhabited

structure Store where
  space : Space
  daemonId : String
  spaceId : String
  generation : String
  names : Map Name := ∅
  degraded : Option String := none
  replication : Replication
  taskBindings : Map TaskBinding := ∅
  /-- The subscriptions whose authority is current, where an authority view is installed. -/
  taskAuthority : Option StrSet := none
  events : List Published := []
  eventIndex : Map Nat := ∅
  lookups : EventLookups := {}
  /-- The journal records of the ingest page in progress. -/
  ingestBatch : Option (List (Nat × String)) := none
  channels : ChannelIndex := .empty
  memberships : Map StrSet := ∅
  membershipRevisions : Map String := ∅
  enrolled : StrSet := ∅
  conversations : Map (List String) := ∅
  requests : Map (String × String × String) := ∅
  position : Nat := 0
  clock : Nat := 0
  reads : Map ReadState := ∅
  readModel : ReadModel := {}
  personal : Map Personal := ∅
  norms : Value := object []
  ownerAvailability : Value := .null
  channelNorms : Map Value := ∅
  enrollmentRevision : String
  ownerIdentityRevision : String
  /-- `messaging-handoff.json` exists. -/
  frozen : Bool := false
  /-- The event files, newest first. -/
  files : List (EventPath × String) := []
  /-- The journal directory in name order: position and text of each record. -/
  journal : List (Nat × String) := []
  /-- How many identifiers this daemon has minted. -/
  minted : Nat := 0
  /-- How many times this daemon has read the clock. -/
  readings : Nat := 0

/-- An operation on the store. What it did before it failed stays done. -/
abbrev Action (α : Type) := EStateM ChatError Store α

namespace Store

/-- One more identifier is minted. -/
def mint (s : Store) : Store := { s with minted := s.minted + 1 }

/-- The clock is read once more. -/
def readClock (s : Store) : Store := { s with readings := s.readings + 1 }

end Store

section

variable [Externals]

/-- `uuid()`. -/
def uuid : Action String := fun s => .ok (Externals.uuid s.daemonId s.minted) s.mint

/-- `now()`. -/
def now : Action String := fun s => .ok (Externals.now s.readings) s.readClock

end

namespace Store

/-! ## Lookups -/

def hasEvent (s : Store) (id : String) : Bool := s.eventIndex.contains id

/-- The retained publication with this ID. -/
def published (s : Store) (id : String) : Option Published :=
  s.eventIndex[id]?.bind (s.events[·]?)

def isCoordinator (s : Store) : Bool := s.replication.coordinatorId = s.daemonId

def operationOrigin (s : Store) : String := s.replication.operationOrigin.getD s.daemonId

def participantId (s : Store) (uid : String) : String := "agent:" ++ s.daemonId ++ ":" ++ uid

/-- Some channel has this ID. -/
def hasChannel (s : Store) (id : String) : Bool := anyValue s.channels.byPath (· = id)

/-- The first channel, by path, with this ID. -/
def channelOf (s : Store) (id : String) : Option (String × String) :=
  findEntry s.channels.byPath fun _ cid => cid = id

/-- The conversation is a channel, or a DM that lists the actor. -/
def visible (s : Store) (actor conv : String) : Bool :=
  s.channels.paths.contains conv || (s.conversations[conv]?.any (·.contains actor))

def joined (s : Store) (actor channel : String) : Bool :=
  s.memberships[channel]?.any (·.contains actor)

def isTaskSubscriptionActor (s : Store) (actor : String) : Bool :=
  anyValue s.taskBindings fun b =>
    b.active && b.actor = actor && s.taskAuthority.all (·.contains b.id)

def sharedMutationAllowed (s : Store) : Except ChatError PUnit :=
  refuse (¬ s.isCoordinator)
    (err "coordinator_required" "This change needs the messaging coordinator; retain the draft and retry when connected")

def ensureMessagingWritable (s : Store) : Except ChatError PUnit :=
  refuse s.frozen
    (err "handoff_in_progress" "Messaging writes are paused for coordinator handoff; retain drafts and request IDs")

/-- A publication that the store has given up on, until an operator reconciles it. -/
def notDegraded (s : Store) : Except ChatError PUnit :=
  match s.degraded with
  | some reason => throw (err "store_read_only" reason)
  | none => pure ⟨⟩

/-- The empty store that an open fills from the journal. -/
def «open» (daemonId : String) (space : Space) (enabled : Bool) : Store where
  space
  daemonId
  spaceId := space.spaceId
  generation := space.generation
  replication :=
    { coordinatorId := space.coordinatorId
      coordinatorLineage := space.coordinatorLineage
      enabled }
  enrollmentRevision := space.enrollmentRevision
  ownerIdentityRevision := space.ownerIdentityRevision

theorem hasChannel_iff {s : Store} {id : String} :
    s.hasChannel id = true ↔ ∃ path : String, s.channels.byPath[path]? = some id := by
  rw [hasChannel, anyValue_iff]
  constructor
  · rintro ⟨path, cid, hp, hc⟩
    have : cid = id := by simpa using hc
    exact ⟨path, this ▸ hp⟩
  · rintro ⟨path, hp⟩
    exact ⟨path, id, hp, by simp⟩

end Store

end ClaudeManager
