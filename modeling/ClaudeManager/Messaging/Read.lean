import ClaudeManager.Messaging.WakeIntents

/-!
# Reading

What one query supplies of the history: by the indexes of the conversations, in the order of the
messages, or by a scan of the arrivals after a position.
-/

namespace ClaudeManager

open Json Containers

/-- RFC 3339 times, as instants. -/
class Instants where
  instant : String → Option Int

/-- What a query asks for. A query for what arrived after a position is answered by arrival, also
where it gives no position. -/
structure Query where
  conversation : Option String := none
  everyChannel : Bool := false
  inbox : Bool := false
  dms : Bool := false
  mentionsOnly : Bool := false
  unreadOnly : Bool := false
  newestFirst : Bool := false
  pinnedOnly : Bool := false
  thread : Option String := none
  tags : List String := []
  received : Bool := false
  start : Option Int := none
  stop : Option Int := none
  after : Option (Option Nat) := none

namespace Query

/-- The query is about what comes in, wherever it does. -/
def broad (q : Query) : Bool := q.dms || q.inbox

/-- The position after which the query begins. -/
def floor (q : Query) : Nat := (q.after.bind id).getD 0

/-- Newest first is an order of messages, not of arrivals. -/
def newest (q : Query) : Bool := q.newestFirst && q.after.isNone

end Query

namespace Store

/-! ## The filter -/

/-- The messages that are pinned, as of a position. -/
def pinStates (s : Store) (high : Nat) : StrSet :=
  ((s.readModel.pins.filterMap (s.events[·]?)).filter (·.position ≤ high)).foldl
    (fun pins p =>
      let id := strv p.event["data"] "target_id"
      if p.event["data"]["pinned"] = .bool true then pins.insert id else pins.erase id) ∅

/-- A message of others that the query is about, or one that a watch holds. -/
def incoming (s : Store) (w : Watchers) (actor : String) (q : Query) (e : Published) : Bool :=
  let v := e.event
  let eligible :=
    if q.mentionsOnly then (mentionRecipients v).contains actor
    else if q.inbox then (s.preferenceForEvent w actor e).inbox || s.monitorInbox w actor e
    else s.conversations.contains (strv v "conversation_id")
  (v["actor"]["id"] ≠ .str actor || q.inbox && s.monitorInbox w actor e) && eligible

def inThread (q : Query) (v : Value) : Bool :=
  q.thread.all fun thread => v["id"] = .str thread || v["data"]["thread_root"] = .str thread

def tagged (q : Query) (v : Value) : Bool :=
  q.tags.all fun t => v["data"]["tags"].items.contains (.str t)

/-- The event's time lies in the query's window. -/
def inWindow [Instants] (q : Query) (e : Published) : Bool :=
  (Instants.instant (if q.received then e.receivedAt else strv e.event "created_at")).any fun t =>
    q.start.all (· ≤ t) && q.stop.all (t < ·)

/-- The filter of a query, over a snapshot of the history. -/
def accepts [Instants] (s : Store) (w : Watchers) (actor : String) (q : Query) (high : Nat)
    (e : Published) : Bool :=
  let v := e.event
  let cid := strv v "conversation_id"
  v["type"] ≠ "conversation.pin" && v["type"] ≠ "channel.membership"
    && (!q.pinnedOnly || (s.pinStates high).contains (strv v "id"))
    && v["conversation_id"] ≠ .null && e.position ≤ high && q.floor < e.position
    && s.visible actor cid && q.conversation.all (· = cid)
    && (!q.everyChannel || s.channels.byPath.values.contains cid)
    && (!q.mentionsOnly || (mentionRecipients v).contains actor)
    && (!q.broad || s.incoming w actor q e)
    && (!q.unreadOnly || !s.isRead actor v && v["actor"]["id"] ≠ .str actor)
    && inThread q v && tagged q v && inWindow q e

/-! ## Candidates -/

/-- The part of a sorted vector after one cursor and before another. -/
def between {α : Type} (key : α → ReadCursor) (v : List α) (lower upper : Option ReadCursor) :
    List α :=
  let lo := lower.elim 0 fun k => (v.takeWhile fun x => key x ≤ k).length
  let hi := upper.elim v.length fun k => (v.takeWhile fun x => key x < k).length
  (v.take hi).drop (min lo hi)

/-- The later of two cursors. -/
def later (a b : Option ReadCursor) : Option ReadCursor :=
  match a, b with
  | none, b => b
  | a, none => a
  | some a, some b => some (max a b)

/-- The candidates of a conversation, in the order of its messages, beyond the last one supplied. -/
def messageCandidates (s : Store) (actor cid : String) (anchor : Option ReadCursor)
    (newest unread mentions : Bool) : List Published :=
  match s.readModel.conversations[cid]? with
  | none => []
  | some c =>
    let read := if unread then s.cursor actor cid else none
    let lower := if newest then read else later read anchor
    let upper := if newest then anchor else none
    let directed := fun {α : Type} (v : List α) => if newest then v.reverse else v
    if mentions then
      (directed (between id (entryD c.mentions actor []) lower upper)).filterMap fun k =>
        s.published k.eventId
    else (directed (between Prod.fst c.timeline lower upper)).filterMap fun x => s.events[x.2]?

/-- The events that arrived after one position, up to another. -/
def eventsBetween (s : Store) (after high : Nat) : List Published :=
  let lo := (s.events.takeWhile fun e => e.position ≤ after).length
  let hi := (s.events.takeWhile fun e => e.position ≤ high).length
  (s.events.take hi).drop (min lo hi)

/-! ## Items -/

/-- The inbox of someone without rules and watches holds DMs and mentions. -/
def defaultInboxOnly (w : Watchers) (actor : String) (q : Query) : Bool :=
  q.inbox && w.personal[actor]?.all fun p => p.preferences.rules.isEmpty && p.monitors.isEmpty

/-- The conversation is read through the mentions of the actor. -/
def readsMentions (s : Store) (w : Watchers) (actor cid : String) (q : Query) : Bool :=
  q.mentionsOnly || defaultInboxOnly w actor q && !s.conversations.contains cid

/-- What a query finds by arrival. -/
def byArrival [Instants] (s : Store) (w : Watchers) (actor : String) (q : Query) (high : Nat)
    (last : Option Published) (limit : Nat) : List Published :=
  (((s.eventsBetween (last.elim q.floor fun e => max q.floor e.position) high).filter fun e =>
    readableEvent e.event).filter (s.accepts w actor q high)).take (limit + 1)

/-- What a query finds in one conversation by its indexes. -/
def byIndex [Instants] (s : Store) (w : Watchers) (actor : String) (q : Query) (high : Nat)
    (anchor : Option ReadCursor) (limit : Nat) (cid : String) : List Published :=
  ((s.messageCandidates actor cid anchor q.newest q.unreadOnly (s.readsMentions w actor cid q)).filter
    (s.accepts w actor q high)).take (limit + 1)

/-- The items of a page, and one more where there is one. -/
def items [Instants] (s : Store) (w : Watchers) (actor : String) (q : Query) (high : Nat)
    (last : Option Published) (limit : Nat) : List Published :=
  let found :=
    if q.after.isSome then sortByKey Published.position (s.byArrival w actor q high last limit)
    else sortByKey Published.cursor
      ((s.readModel.conversations.keys.filter fun cid =>
        q.conversation.all (· = cid) && s.visible actor cid).flatMap
          (s.byIndex w actor q high (last.map Published.cursor) limit))
  (if q.newest then found.reverse else found).take (limit + 1)

end Store

end ClaudeManager
