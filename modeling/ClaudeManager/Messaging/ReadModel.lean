import ClaudeManager.Messaging.Store

/-!
# The read model

Conversation cursors and the indexes derived from the retained events, kept in step with
appends. They use one total order of messages, whatever order a replica received them in.
-/

namespace ClaudeManager

open Json Containers

/-- The mention audience an event carries. An older message has only its direct mentions. -/
def mentionRecipients (event : Value) : List String :=
  let data := event["data"]
  ((data.get? "mention_recipients").getD data["mentions"]).items.filterMap Value.asStr

/-- The order of index entries: by cursor, then by place in the history. -/
def EntryLt (a b : ReadCursor × Nat) : Prop := a.1 < b.1 ∨ a.1 = b.1 ∧ a.2 < b.2

instance : DecidableRel EntryLt := fun a b =>
  inferInstanceAs (Decidable (a.1 < b.1 ∨ a.1 = b.1 ∧ a.2 < b.2))

/-- Types that no conversation shows as history. -/
def unreadableTypes : List String :=
  ["conversation.pin", "channel.membership", "read.ack", "read.cursor", "reaction"]

/-- Types that carry private state or pins, and no shared metadata. -/
def privateTypes : List String := ["read.ack", "read.cursor", "reaction"]

def readableEvent (event : Value) : Bool :=
  event["conversation_id"].isStr && !unreadableTypes.contains (strv event "type")

namespace Store

/-! ## Cursors -/

/-- Advance a participant's cursor in one conversation; an older cursor changes nothing. -/
def mergeCursorMemory (s : Store) (actor cid : String) (cursor : ReadCursor) : Store :=
  { s with
    reads := upsert s.reads actor {} fun r =>
      { r with
        cursors := upsert r.cursors cid .origin fun current =>
          if current < cursor then cursor else current } }

/-- Acknowledge messages by ID. One that has not arrived waits for its message. -/
def mergeLegacyMemory (s : Store) (actor : String) (ids : List String) : Store :=
  ids.foldl (fun s id =>
    match s.published id with
    | some e => s.mergeCursorMemory actor (strv e.event "conversation_id") (.of e.event)
    | none =>
      { s with
        readModel.pendingLegacy :=
          upsert s.readModel.pendingLegacy id ∅ fun actors => actors.insert actor }) s

/-! ## Indexing -/

/-- Put an event of this daemon that the hub has not decided into the outbox. -/
def indexPending (s : Store) (e : Published) (index : Nat) : Store :=
  if e.event["origin_daemon_id"] = s.daemonId
      ∧ ¬ s.replication.receipts.contains (strv e.event "id")
      ∧ ¬ s.replication.rejections.contains (strv e.event "id") then
    { s with readModel.pendingLocal := s.readModel.pendingLocal ++ [index] }
  else s

/-- Put a readable event into its conversation's timeline. -/
def indexTimeline (s : Store) (e : Published) (index : Nat) : Store :=
  if readableEvent e.event then
    { s with
      readModel.conversations :=
        upsert s.readModel.conversations (strv e.event "conversation_id") {} fun c =>
          { c with timeline := insertSorted EntryLt (.of e.event, index) c.timeline } }
  else s

/-- A conversation's indexes with one more message. -/
def indexMessage (e : Published) (index : Nat) (c : ConversationIndex) : ConversationIndex :=
  let key := ReadCursor.of e.event
  let actor := strv e.event["actor"] "id"
  { c with
    messages := insertSorted EntryLt (key, index) c.messages
    arrivals := c.arrivals ++ [(e.position, index)]
    authors := upsert c.authors actor [] (insertSorted (· < ·) key)
    mentions := (mentionRecipients e.event).foldl (fun m actor =>
      if e.event["actor"]["id"] = .str actor then m
      else upsert m actor [] (insertSorted (· < ·) key)) c.mentions }

/-- Advance the cursors of those who acknowledged the message before it arrived. -/
def settleLegacy (s : Store) (e : Value) : Store :=
  match s.readModel.pendingLegacy[strv e "id"]? with
  | some actors =>
    actors.toList.foldl (fun s actor =>
      s.mergeCursorMemory actor (strv e "conversation_id") (.of e))
      { s with readModel.pendingLegacy := s.readModel.pendingLegacy.erase (strv e "id") }
  | none => s

def indexReadModel (s : Store) (e : Published) (index : Nat) : Store :=
  let s := (s.indexPending e index).indexTimeline e index
  if e.event["type"] = "message.create" then
    let cid := strv e.event "conversation_id"
    settleLegacy
      { s with
        readModel.conversations :=
          upsert s.readModel.conversations cid {} (indexMessage e index) }
      e.event
  else if e.event["type"] = "conversation.pin" then
    { s with readModel.pins := s.readModel.pins ++ [index] }
  else if ¬ privateTypes.contains (strv e.event "type") then
    { s with readModel.metadata := s.readModel.metadata ++ [index] }
  else s

/-! ## Counts -/

/-- How many sorted entries lie after the cursor. -/
def entriesAfter {α : Type} (key : α → ReadCursor) (cursor : Option ReadCursor) (v : List α) :
    Nat :=
  v.length - (cursor.elim 0 fun r => (v.takeWhile fun k => key k ≤ r).length)

/-- Unread messages and mentions of one participant in one conversation. -/
def unreadCounts (s : Store) (actor cid : String) : Nat × Nat :=
  match s.readModel.conversations[cid]? with
  | none => (0, 0)
  | some c =>
    let cursor := s.reads[actor]?.bind (·.cursors[cid]?)
    (entriesAfter Prod.fst cursor c.messages - entriesAfter id cursor (entryD c.authors actor []),
      entriesAfter id cursor (entryD c.mentions actor []))

end Store

/-! ## First-match lookups -/

namespace EventLookups

/-- Keep the first value given for a key. -/
def orInsert {α β : Type} [DecidableEq α] (l : List (α × β)) (key : α) (value : β) : List (α × β) :=
  if (l.lookup key).isSome then l else l ++ [(key, value)]

/-- A channel's first listing keeps its position; any listing can mark it archived. -/
def observeListing (position : Nat) (m : Map (Nat × Bool)) (item : Value) :
    Map (Nat × Bool) :=
  match item["id"].asStr with
  | some id =>
    upsert m id (position, false) fun entry => (entry.1, entry.2 || item["archived"] = .bool true)
  | none => m

section

variable [Externals]

/-- The identity an event publishes or claims: participant, revision, and text of the name. -/
def identityOf (e : Value) : Option (String × String × String) := do
  let n := if e["type"] = "identity.update" then e["data"]["identity"]
    else e["data"]["identity_claim"]
  let id ← n["participant_id"].asStr
  let rev ← n["revision_id"].asStr
  return (id, rev, Externals.compact n["name"])

def observe (l : EventLookups) (e : Value) (position index : Nat) : EventLookups :=
  let data := e["data"]
  let channel := data["channel"]
  { conversationCreations :=
      match data["conversation_create"]["id"].asStr with
      | some id =>
        if l.conversationCreations.contains id then l.conversationCreations
        else l.conversationCreations.insert id index
      | none => l.conversationCreations
    channelListings :=
      data["channels"].items.foldl (observeListing position) l.channelListings
    channelRevisions :=
      if e["type"] = "channel.update" then
        match channel["id"].asStr, channel["revision"].asStr with
        | some id, some rev => orInsert l.channelRevisions (id, rev) index
        | _, _ => l.channelRevisions
      else l.channelRevisions
    identities :=
      match identityOf e with
      | some entry => if entry ∈ l.identities then l.identities else entry :: l.identities
      | none => l.identities
    hostEnrollments :=
      if e["type"] = "host.update" ∧ data["active"] = .bool true then
        match data["host_id"].asStr, data["enrollment_revision"].asStr with
        | some host, some rev =>
          if (host, rev) ∈ l.hostEnrollments then l.hostEnrollments
          else (host, rev) :: l.hostEnrollments
        | _, _ => l.hostEnrollments
      else l.hostEnrollments }

end

end EventLookups

/-- Append a publication to the history and its indexes. -/
def Store.pushPublished [Externals] (s : Store) (published : Published) : Store :=
  let index := s.events.length
  let s := s.indexReadModel published index
  { s with
    lookups := s.lookups.observe published.event published.position index
    eventIndex := s.eventIndex.insert (strv published.event "id") index
    events := s.events ++ [published] }

end ClaudeManager
