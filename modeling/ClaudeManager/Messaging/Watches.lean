import ClaudeManager.Messaging.Unread
import ClaudeManager.Program.Stable

/-!
# Follows and monitors

What a participant follows, what it watches for a while, and what the two say of an event:
whether it belongs in the inbox, and whether it wakes the participant.
-/

namespace ClaudeManager

open Json Containers

/-- Which messages a rule is about. -/
structure Scope where
  channel : Option String := none
  conversation : Option String := none
  peer : Option String := none
  dms : Bool := false
  thread : Option String := none
  includeChildren : Bool := false
  deriving DecidableEq

/-- How specific a scope is: threads before conversations, before channels, before the rest. -/
def Scope.specificity (scope : Scope) : Nat ×ₗ Nat :=
  if scope.thread.isSome then toLex (4, 0)
  else if scope.peer.isSome ∨ scope.conversation.isSome then toLex (3, 0)
  else match scope.channel with
    | some path =>
      toLex (2, if path = "*" then 0 else (splitChars '/' path.toList).length)
    | none => toLex (1, 0)

/-- A rule of a participant about the messages of a scope. -/
structure Follow where
  scope : Scope
  inbox : Bool
  wake : Bool
  muted : Bool
  since : Nat
  hubSince : Option Nat := none
  wakeSince : Option Nat := none

/-- The arrival after which a rule wakes. -/
def Follow.boundary (rule : Follow) : Nat := rule.wakeSince.getD rule.since

structure Preferences where
  dnd : Bool := false
  rules : Map Follow := ∅

inductive MonitorMode where
  | once
  | continuous
  deriving DecidableEq

inductive Notify where
  | wake
  | badge
  | none
  deriving DecidableEq

inductive MonitorState where
  | active
  | matched
  | expired
  | cancelled
  | dismissed
  deriving DecidableEq

/-- A watch on the messages of a scope, over an interval of arrivals. -/
structure Monitor where
  id : String
  taskSubscription : Option String := none
  scope : Scope
  mode : MonitorMode
  notify : Notify
  includeSelf : Bool
  expiresAt : Option String := none
  state : MonitorState := .active
  start : Nat
  scanned : Nat
  hitHigh : Nat
  hits : Nat := 0
  acknowledged : Nat
  closingFence : Option Nat := none

/-- What a participant keeps of its own, as far as reading and waking go. -/
structure Watcher where
  preferences : Preferences := {}
  monitors : Map Monitor := ∅

/-- Everyone's watches, and what each task subscription has acknowledged. -/
structure Watchers where
  personal : Map Watcher := ∅
  acknowledged : Map StrSet := ∅

namespace Store

/-! ## Scopes -/

/-- The first path of a channel. -/
def pathOf (s : Store) (id : String) : Option String :=
  s.channels.paths[id]?.bind (·.toList.head?)

/-- The conversation is one of the scope; its visibility is settled elsewhere. -/
def scopeMatchesConversation (s : Store) (actor : String) (scope : Scope) (cid : String) : Bool :=
  (scope.channel.all fun path => (s.pathOf cid).any fun actual =>
      path = "*" || actual = path || scope.includeChildren && hasPrefix actual (path ++ "/"))
    && scope.conversation.all (· = cid)
    && (!scope.dms || s.conversations.contains cid)
    && scope.peer.all fun peer => s.conversations[cid]?.any fun members =>
        members.length = 2 && members.contains peer && members.contains actor

def scopeMatches (s : Store) (actor : String) (scope : Scope) (event : Value) : Bool :=
  let cid := strv event "conversation_id"
  s.visible actor cid && s.scopeMatchesConversation actor scope cid
    && scope.thread.all fun root =>
        event["id"] = .str root || event["data"]["thread_root"] = .str root

/-! ## Monitors -/

/-- A task's watch is this participant's, and the scheduler stands behind it. -/
def taskMonitorCurrent (s : Store) (actor : String) (m : Monitor) : Bool :=
  m.taskSubscription.all fun id => s.taskAuthority.all (·.contains id)
    && s.taskBindings[id]?.any fun b =>
        b.active && b.actor = actor && m.id = "task-" ++ b.id ++ "-" ++ toString b.revision

/-- The task has not acknowledged the event. -/
def taskMonitorMatches (s : Store) (w : Watchers) (actor : String) (m : Monitor) (id : String) :
    Bool :=
  s.taskMonitorCurrent actor m && m.taskSubscription.all fun task =>
    s.taskBindings[task]?.any fun b => b.active && b.actor = actor
      && m.id = "task-" ++ b.id ++ "-" ++ toString b.revision
      && !(entryD w.acknowledged task ∅).contains id

def monitorMatches (s : Store) (w : Watchers) (actor : String) (m : Monitor) (e : Published) :
    Bool :=
  e.event["type"] = "message.create" && s.taskMonitorMatches w actor m (strv e.event "id")
    && (m.includeSelf || e.event["actor"]["id"] ≠ .str actor)
    && s.scopeMatches actor m.scope e.event

/-- Some watch of the participant has the event among its open hits. -/
def monitorInbox (s : Store) (w : Watchers) (actor : String) (e : Published) : Bool :=
  w.personal[actor]?.any fun p => p.monitors.values.any fun m =>
    m.notify ≠ .none && m.state ≠ .dismissed && m.acknowledged < e.position
      && e.position ≤ m.hitHigh && s.monitorMatches w actor m e

end Store

/-! ## Preferences -/

/-- What a participant wants of a message. -/
structure Wanted where
  inbox : Bool
  wake : Bool
  muted : Bool

namespace Store

/-- Where the hub accepted the event. -/
def hubPosition (s : Store) (e : Value) : Option Nat :=
  s.replication.receipts[strv e "id"]?.bind fun r => r["position"].asStr.bind parseU64

/-- The event came after a rule that follows new messages only. -/
def afterFollow (s : Store) (e : Published) (rule : Follow) : Bool :=
  (rule.hubSince.bind fun boundary => (s.hubPosition e.event).map fun p => decide (boundary < p)).getD
    (decide (rule.since < e.position))

/-- One rule after the less specific ones. Mutes add up. -/
def applyFollow (s : Store) (e : Published) (wanted : Wanted) (rule : Follow) : Wanted where
  inbox := if s.afterFollow e rule ∨ ¬ rule.inbox then rule.inbox else wanted.inbox
  wake := if rule.boundary < e.position ∨ ¬ rule.wake then rule.wake else wanted.wake
  muted := wanted.muted || rule.muted

/-- DMs and mentions belong in the inbox. -/
def defaultInbox (s : Store) (actor : String) (e : Value) : Bool :=
  s.conversations.contains (strv e "conversation_id") || (mentionRecipients e).contains actor

/-- They wake everyone but Owner. -/
def defaultWake (s : Store) (actor : String) (e : Value) : Bool :=
  actor ≠ "owner" && s.defaultInbox actor e

/-- What a message is to a participant without rules. -/
def defaultWanted (s : Store) (actor : String) (e : Value) (dnd : Bool) : Wanted :=
  ⟨s.defaultInbox actor e, s.defaultWake actor e, dnd⟩

/-- The participant's rules about an event, the most specific ones last. -/
def rulesFor (s : Store) (p : Watcher) (actor : String) (e : Value) : List Follow :=
  sortByKey (fun rule : Follow => rule.scope.specificity)
    (p.preferences.rules.values.filter fun rule => s.scopeMatches actor rule.scope e)

def preferenceForEvent (s : Store) (w : Watchers) (actor : String) (e : Published) : Wanted :=
  let v := e.event
  if v["type"] ≠ "message.create" ∨ ¬ s.visible actor (strv v "conversation_id") then
    ⟨false, false, false⟩
  else
    let wanted := match w.personal[actor]? with
      | none => s.defaultWanted actor v false
      | some p => (s.rulesFor p actor v).foldl (s.applyFollow e)
          (s.defaultWanted actor v p.preferences.dnd)
    let incoming := decide (v["actor"]["id"] ≠ .str actor)
    ⟨wanted.inbox && incoming, wanted.wake && !wanted.muted && incoming, wanted.muted⟩

end Store

/-! ## Wakes -/

/-- A reason to wake a participant: a message, or a watch that it hit. -/
structure WakeIntent where
  key : String
  eventId : String
  monitor : Option String
  deriving DecidableEq

/-- A watch that wakes, with what its task has acknowledged. -/
structure WakeMonitor where
  monitor : Monitor
  acknowledged : Option StrSet

/-- A participant's rules and watches, prepared once. -/
structure WakeRules where
  rules : List Follow
  monitors : List WakeMonitor

namespace Store

/-- The watch, where its task still stands behind it. -/
def wakeMonitor (s : Store) (w : Watchers) (actor : String) (m : Monitor) : Option WakeMonitor :=
  match m.taskSubscription with
  | none => some ⟨m, none⟩
  | some task =>
    match s.taskBindings[task]? with
    | none => none
    | some b =>
      if ¬ b.active ∨ b.actor ≠ actor ∨ m.id ≠ "task-" ++ b.id ++ "-" ++ toString b.revision then none
      else some ⟨m, some (entryD w.acknowledged task ∅)⟩

/-- The watch has open hits that may wake its owner. -/
def mayWake (s : Store) (actor : String) (m : Monitor) : Bool :=
  m.notify = .wake && s.taskMonitorCurrent actor m && m.state ≠ .cancelled && m.state ≠ .dismissed
    && m.acknowledged < m.hitHigh

/-- `WakeRules::new`. -/
def wakeRules (s : Store) (w : Watchers) (actor : String) (personal : Option Watcher) : WakeRules where
  rules := sortByKey (fun rule : Follow => rule.scope.specificity)
    (personal.elim [] fun p => p.preferences.rules.values)
  monitors := ((personal.elim [] fun p => p.monitors.values).filter (s.mayWake actor)).filterMap
    (s.wakeMonitor w actor)

/-- `WakeRules::conversation`. -/
def conversationWake (s : Store) (actor cid : String) (plan : WakeRules) : WakeRules where
  rules := plan.rules.filter fun rule => s.scopeMatchesConversation actor rule.scope cid
  monitors := plan.monitors.filter fun m => s.scopeMatchesConversation actor m.monitor.scope cid

end Store

def threadMatches (scope : Scope) (id : String) (root : Option String) : Bool :=
  scope.thread.all fun wanted => wanted = id || root = some wanted

/-- One rule after the less specific ones; nothing is left of a muted message. -/
def wakeStep (e : Published) (id : String) (root : Option String) (wake : Bool) (rule : Follow) :
    Option Bool :=
  if threadMatches rule.scope id root then
    if rule.muted then none
    else if rule.boundary < e.position ∨ ¬ rule.wake then some rule.wake
    else some wake
  else some wake

/-- The event is an open hit of the watch. -/
def opensHit (e : Published) (id : String) (root : Option String) (m : WakeMonitor) : Bool :=
  m.monitor.acknowledged < e.position && e.position ≤ m.monitor.hitHigh
    && threadMatches m.monitor.scope id root && !m.acknowledged.any (·.contains id)

def directIntent (id : String) : WakeIntent := ⟨id, id, none⟩

def monitorIntent (id : String) (m : WakeMonitor) : WakeIntent :=
  ⟨"monitor:" ++ m.monitor.id ++ ":" ++ id, id, some m.monitor.id⟩

namespace Store

/-- Own, rejected and read messages wake nobody. -/
def quiet (s : Store) (actor : String) (e : Value) (read : Option ReadCursor) : Bool :=
  e["actor"]["id"] = .str actor || s.replication.rejections.contains (strv e "id")
    || read.any fun r => ReadCursor.of e ≤ r

/-- `ConversationWake::evaluate`. -/
def evaluate (s : Store) (actor : String) (c : WakeRules) (e : Published) (read : Option ReadCursor)
    (defaultWake : Bool) : List WakeIntent :=
  let id := strv e.event "id"
  let root := e.event["data"]["thread_root"].asStr
  if s.quiet actor e.event read then []
  else match c.rules.foldlM (wakeStep e id root) defaultWake with
    | none => []
    | some wake => (if wake then [directIntent id] else [])
        ++ (c.monitors.filter (opensHit e id root)).map (monitorIntent id)

/-- The plain evaluation of one event. -/
def eventWakeIntents (s : Store) (w : Watchers) (actor : String) (e : Published) : List WakeIntent :=
  let cid := strv e.event "conversation_id"
  let personal := w.personal[actor]?
  if e.event["type"] ≠ "message.create" ∨ ¬ s.visible actor cid
      ∨ personal.any (·.preferences.dnd) then []
  else s.evaluate actor (s.conversationWake actor cid (s.wakeRules w actor personal)) e
    (s.cursor actor cid) (s.defaultWake actor e.event)

/-! ### Candidates -/

/-- The DMs that list the actor. -/
def memberDms (s : Store) (actor : String) : List String :=
  (s.conversations.toList.filter fun e => e.2.contains actor).map Prod.fst

/-- The conversations that the actor can see and that have events, in the order of their IDs. -/
def visibleConversations (s : Store) (actor : String) : List (String × ConversationIndex) :=
  sortByKey Prod.fst ((s.channels.paths.keys
      ++ (s.memberDms actor).filter fun cid => ¬ s.channels.paths.contains cid).filterMap
    fun cid => s.readModel.conversations[cid]?.map fun index => (cid, index))

/-- The part of a sorted vector after `lo` and up to `hi`. -/
def slice {α : Type} (key : α → Nat) (v : List α) (lo hi : Nat) : List α :=
  (v.take (v.takeWhile fun x => key x ≤ hi).length).drop (v.takeWhile fun x => key x ≤ lo).length

/-- The part of a sorted vector after a cursor. -/
def suffix {α : Type} (key : α → ReadCursor) (v : List α) (read : Option ReadCursor) : List α :=
  v.drop (read.elim 0 fun r => (v.takeWhile fun k => key k ≤ r).length)

/-- Events that may wake the actor, by place, and whether they do without any rule. -/
abbrev Candidates := Std.ExtTreeMap Nat Bool compare

/-- Unread DMs and mentions. -/
def defaultCandidates (s : Store) (actor cid : String) (index : ConversationIndex)
    (read : Option ReadCursor) : List Nat :=
  if actor = "owner" then []
  else if s.conversations.contains cid then (suffix Prod.fst index.messages read).map Prod.snd
  else (suffix id (entryD index.mentions actor []) read).filterMap fun k => s.eventIndex[k.eventId]?

/-- The intervals of arrivals that rules and watches can wake for. -/
def wakeRanges (s : Store) (c : WakeRules) : List (Nat × Nat) :=
  sortByKey toLex ((((c.rules.filter (·.wake)).map fun rule => (rule.boundary, s.position))
    ++ c.monitors.map fun m => (m.monitor.acknowledged, m.monitor.hitHigh)).filter fun r => r.1 < r.2)

/-- The events of one interval, by the narrower of two indexes. -/
def rangeCandidates (s : Store) (index : ConversationIndex) (unread : List (ReadCursor × Nat))
    (after high : Nat) : List Nat :=
  let arrived := slice Prod.fst index.arrivals after high
  if unread.length < arrived.length then
    (unread.map Prod.snd).filter fun i =>
      s.events[i]?.any fun e => after < e.position && e.position ≤ high
  else arrived.map Prod.snd

/-- One interval after those that start no later. -/
def sweepRange (s : Store) (index : ConversationIndex) (unread : List (ReadCursor × Nat))
    (state : Candidates × Nat) (range : Nat × Nat) : Candidates × Nat :=
  let after := max range.1 state.2
  if range.2 ≤ after then state
  else ((s.rangeCandidates index unread after range.2).foldl (fun m i => m.insertIfNew i false) state.1,
    range.2)

def candidates (s : Store) (actor cid : String) (index : ConversationIndex)
    (read : Option ReadCursor) (c : WakeRules) : Candidates :=
  let default := (s.defaultCandidates actor cid index read).foldl (fun m i => m.insert i true) ∅
  ((s.wakeRanges c).foldl (s.sweepRange index (suffix Prod.fst index.messages read)) (default, 0)).1

/-- The intents of one conversation, with the arrivals of their events. -/
def conversationIntents (s : Store) (actor cid : String) (index : ConversationIndex)
    (plan : WakeRules) : List (Nat × WakeIntent) :=
  let read := s.cursor actor cid
  let c := s.conversationWake actor cid plan
  (s.candidates actor cid index read c).toList.flatMap fun entry =>
    s.events[entry.1]?.toList.flatMap fun e =>
      (s.evaluate actor c e read entry.2).map fun intent => (e.position, intent)

/-- The evaluation by the indexes. -/
def wakeIntentsForActor (s : Store) (w : Watchers) (actor : String) : List WakeIntent :=
  let personal := w.personal[actor]?
  if personal.any (·.preferences.dnd) then []
  else
    let plan := s.wakeRules w actor personal
    (sortByKey Prod.fst ((s.visibleConversations actor).flatMap fun e =>
      s.conversationIntents actor e.1 e.2 plan)).map Prod.snd

end Store

end ClaudeManager
