import ClaudeManager.Messaging.Read
import ClaudeManager.Messaging.Upload

/-!
# Exporting history

What a hub sends to a host: the events that concern it, in pages, each event after those that it
depends on.
-/

namespace ClaudeManager

open Json Containers Program

/-- The event that another one replies to. -/
def replyTo (e : Value) : Option String := e["data"]["reply_to"].asStr

/-- The event that another one is about. -/
def dependency (e : Value) : Option String :=
  (e["data"]["message_id"].asStr.filter fun _ => e["type"] = "reaction").or
    ((replyTo e).or (if e["type"] = "conversation.pin" then e["data"]["target_id"].asStr else none))

/-- One page, and where the next one starts. -/
structure ExportPage where
  items : List Value
  cursor : Nat
  dependencyOffset : Nat
  through : Nat
  complete : Bool
  generation : String
  spaceId : String

/-- A page in the making. -/
structure Filling where
  items : List Value := []
  bytes : Nat := 0
  visited : StrSet := ∅

section

variable [Externals]

namespace Store

/-! ## What concerns a host -/

def ownerAccess (s : Store) (host : String) : Bool :=
  s.replication.hosts[host]?.any fun h => h["owner_access"] = .bool true

/-- A participant of the host. -/
def owns (s : Store) (host actor : String) : Bool :=
  hasPrefix actor (agentPrefix host) || (actor = "owner" && s.ownerAccess host)

def eligibleForHost (s : Store) (host : String) (interests : StrSet) (e : Value) : Bool :=
  if strv e "type" = "read.ack" ∨ strv e "type" = "read.cursor" then s.ownerAccess host
  else
    match e["conversation_id"].asStr with
    | none => true
    | some conv =>
      match s.conversations[conv]? with
      | some members => members.any (s.owns host)
      | none =>
        if !s.hasChannel conv then false
        else if e["type"] ≠ "message.create" then true
        else interests.contains conv || interests.contains "*"
          || s.memberships[conv]?.any (fun members => members.toList.any (s.owns host))
          || (mentionRecipients e).any (s.owns host)

/-! ## Dependencies -/

/-- The chain of parents, nearest first. A chain never has more members than events are indexed. -/
def parents (s : Store) (e : Value) : Nat → List String → Option String →
    Except ChatError (List String)
  | _, _, none => pure []
  | 0, _, some _ => throw (err "invalid_reply" "Cyclic reply dependency")
  | fuel + 1, seen, some id => do
    refuse (id ∈ seen) (err "invalid_reply" "Cyclic reply dependency")
    let p ← okOr (s.published id) (err "dependency_missing" "Missing retained parent")
    refuse (p.event["conversation_id"] ≠ e["conversation_id"])
      (err "invalid_reply" "Cross-conversation dependency")
    return id :: (← s.parents e fuel (id :: seen) (replyTo p.event))

/-- What must be sent before an event, first things first. -/
def dependencyIds (s : Store) (e : Value) : Except ChatError (List String) := do
  return (← s.parents e (s.eventIndex.size + 1) [] (dependency e)).reverse

/-- An event as it is sent. -/
def wireEvent (s : Store) (id : String) : Except ChatError Value := do
  let e ← okOr (s.published id) (err "not_found" "Event not found")
  let body ← s.readEvent e.event
  return object [("event", .str body),
    ("receipt", (s.replication.receipts[id]?).getD .null), ("position", .num e.position)]

/-! ## Pages -/

/-- Put events on a page. Where it is full, the place of the first one left out is returned. -/
def pushIds (s : Store) (limit : Nat × Nat) :
    List (String × Nat) → Filling → Except ChatError (Filling × Option Nat)
  | [], f => pure (f, none)
  | (id, offset) :: rest, f =>
    if f.visited.contains id then s.pushIds limit rest f
    else do
      let wire ← s.wireEvent id
      let size := (Externals.compact wire).utf8ByteSize
      if f.items ≠ [] ∧ (limit.1 ≤ f.items.length ∨ limit.2 < f.bytes + size) then
        return (f, some offset)
      else
        s.pushIds limit rest
          { items := f.items ++ [wire]
            bytes := f.bytes + size
            visited := f.visited.insert id }

/-- The events that a publication brings with it, itself at the end. -/
def chain (s : Store) (p : Published) : Except ChatError (List String) := do
  let ids ← s.dependencyIds p.event
  let id ← required p.event "id"
  return ids ++ [id]

def page (s : Store) (f : Filling) (cursor dependencyOffset through : Nat) (complete : Bool) :
    ExportPage where
  items := f.items
  cursor
  dependencyOffset
  through
  complete
  generation := s.generation
  spaceId := s.spaceId

/-- Fill a page from publications; the first eligible one resumes at the offset. -/
def fillPage (s : Store) (limit : Nat × Nat) (eligible : Published → Bool) (through : Nat) :
    List Published → Nat → Nat → Filling → Except ChatError ExportPage
  | [], _, _, f => pure (s.page f through 0 through true)
  | p :: rest, cursor, offset, f =>
    if eligible p then do
      let ids ← s.chain p
      refuse (ids.length ≤ offset)
        (err "invalid_cursor" "Dependency offset is outside the publication")
      let (f, full) ← s.pushIds limit (ids.zipIdx.drop offset) f
      match full with
      | some stopped => return s.page f cursor stopped through false
      | none => s.fillPage limit eligible through rest p.position 0 f
    else s.fillPage limit eligible through rest p.position offset f

def exportSliceBy (s : Store) (host : String) (after through dependencyOffset : Nat)
    (limit : Nat × Nat) (eligible : Published → Bool) : Except ChatError ExportPage := do
  refuse (¬ s.hostAuthorized host none) (err "host_revoked" "Messaging host is not enrolled")
  refuse (s.position < through ∨ through < after)
    (err "resync_required" "Invalid replication boundary")
  s.fillPage limit eligible through (s.eventsBetween after through) after dependencyOffset {}

/-- The most items and bytes of a page outside scoped backfills: `LEGACY_PAGE`. -/
def legacyPage : Nat × Nat := (64, 256 * 1024)

def exportSlice (s : Store) (host : String) (interests : StrSet)
    (after through dependencyOffset : Nat) : Except ChatError ExportPage :=
  s.exportSliceBy host after through dependencyOffset legacyPage fun p =>
    s.eligibleForHost host interests p.event

/-- The main stream of a scoped subscription: a scope that joined streams from its position on. -/
def scopedEligible (s : Store) (host : String) (covered : StrSet) (joined : Map Nat)
    (p : Published) : Bool :=
  s.eligibleForHost host covered p.event ||
    let conv := strv p.event "conversation_id"
    joined[conv]?.any fun start =>
      decide (start < p.position) && s.eligibleForHost host (.ofList [conv]) p.event

def exportScopedSlice (s : Store) (host : String) (covered : StrSet) (joined : Map Nat)
    (after through dependencyOffset : Nat) (limit : Nat × Nat) : Except ChatError ExportPage :=
  s.exportSliceBy host after through dependencyOffset limit (s.scopedEligible host covered joined)

def backfillMember (scope : String) (e : Value) : Bool :=
  (strv e "type" = "message.create" || strv e "type" = "reaction")
    && strv e "conversation_id" = scope

def exportBackfill (s : Store) (host scope : String) (after through dependencyOffset : Nat)
    (limit : Nat × Nat) : Except ChatError ExportPage :=
  s.exportSliceBy host after through dependencyOffset limit fun p =>
    backfillMember scope p.event && s.eligibleForHost host (.ofList [scope]) p.event

/-- The pages that a peer asks for one after the other, at most `n`. -/
def exportPages (s : Store) (host : String) (through : Nat) (limit : Nat × Nat)
    (eligible : Published → Bool) : Nat → Nat → Nat → Except ChatError (List ExportPage)
  | 0, _, _ => pure []
  | n + 1, after, offset => do
    let page ← s.exportSliceBy host after through offset limit eligible
    if page.complete then return [page]
    else
      return page :: (← s.exportPages host through limit eligible n page.cursor
        page.dependencyOffset)

end Store

end

end ClaudeManager
