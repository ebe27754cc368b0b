import ClaudeManager.Messaging.Intervals
import ClaudeManager.Messaging.Names
import ClaudeManager.Messaging.Unread

/-!
# The search index

Each conversation that was searched has an index of its readable events by sender and by word. It is built
while the store goes on, from batches copied under the store's lock, and kept up with every publication.

* `Posting`, `ConversationSearch` — the index of one conversation
* `Build` — the construction of an index, a batch at a time
* `Searching`, `Searching.Step` — a store with its indexes, and the worker that builds them
-/

namespace ClaudeManager

open Json Containers Program

/-- The word boundaries of Unicode text. -/
class Segments where
  unicodeWords : String → List String

namespace Search

/-! ## Postings -/

/-- The documents that hold a term, by the order of the conversation and by arrival. -/
structure Posting where
  canonical : List Nat := []
  arrivals : List Nat := []

/-- The key of an event, and its place in the history. -/
abbrev Document := ReadCursor × Nat

/-- The document of an ID. -/
def documentAt (documents : List Document) (i : Nat) : Document := (documents[i]?).getD (.origin, 0)

namespace Posting

/-- Put a document in its places. -/
def insert (p : Posting) (index : Nat) (documents : List Document) : Posting where
  canonical := place (fun i => (documentAt documents i).1 < (documentAt documents index).1) index p.canonical
  arrivals := place (fun i => (documentAt documents i).2 < (documentAt documents index).2) index p.arrivals

/-- Put a document at the end, to be sorted later. -/
def push (p : Posting) (index : Nat) : Posting where
  canonical := p.canonical ++ [index]
  arrivals := p.arrivals ++ [index]

def sort (p : Posting) (documents : List Document) : Posting where
  canonical := sortByKey (fun i => (documentAt documents i).1) p.canonical
  arrivals := sortByKey (fun i => (documentAt documents i).2) p.arrivals

end Posting

/-! ## The index of a conversation -/

structure ConversationSearch where
  documents : List Document := []
  senders : Map Posting := ∅
  words : Map Posting := ∅

section

variable [Externals] [Segments]

/-- The words of a text, in order. -/
def words (text : String) : List String := Segments.unicodeWords (normalize text)

/-- The words of a text, each once. -/
def terms (text : String) : List String := (.ofList (words text) : StrSet).toList

namespace ConversationSearch

def document (c : ConversationSearch) (key : ReadCursor) (eventIndex : Nat) (sender body : String)
    (sorted : Bool) : ConversationSearch :=
  let index := c.documents.length
  let documents := c.documents ++ [(key, eventIndex)]
  let insert := fun posting : Posting =>
    if sorted then posting.insert index documents else posting.push index
  { documents
    senders := upsert c.senders sender {} insert
    words := (terms body).foldl (fun m word => upsert m word {} insert) c.words }

/-- A document of a published event. -/
def copied (c : ConversationSearch) (e : Published) (eventIndex : Nat) (sorted : Bool) : ConversationSearch :=
  c.document (.of e.event) eventIndex (strv e.event["actor"] "id") (strv e.event "body") sorted

/-- A published event joins an index that is in use. -/
def index (c : ConversationSearch) (e : Published) (eventIndex : Nat) : ConversationSearch :=
  c.copied e eventIndex true

omit [Externals] [Segments] in
def sort (c : ConversationSearch) : ConversationSearch :=
  { c with
    senders := c.senders.map fun _ p => p.sort c.documents
    words := c.words.map fun _ p => p.sort c.documents }

end ConversationSearch

/-! ## Building -/

/-- An index under construction: of the `fence` events there were at first, those up to `after` have been
copied, and later those before `delta`. -/
structure Build where
  cid : String
  fence : Nat
  upper : Option ReadCursor
  after : Option ReadCursor := none
  delta : Nat
  index : ConversationSearch := {}

/-- The most messages that one batch copies. -/
def batchMessages : Nat := 128

namespace Build

omit [Externals] [Segments] in
/-- Start to build the index of a conversation. -/
def new (s : Store) (cid : String) : Build where
  cid := cid
  fence := s.events.length
  upper := (entryD s.readModel.conversations cid {}).timeline.getLast?.map Prod.fst
  delta := s.events.length

omit [Externals] [Segments] in
/-- Copy entries of a timeline, up to the last one there was at first, or the end of the batch. `stop` says
where its bytes or its time are used up. An entry that has come since is left to the second phase. -/
def batch (fence : Nat) (upper : Option ReadCursor) (stop : Nat → Bool) :
    Nat → Option ReadCursor → List Nat → List Document → Option ReadCursor × List Nat × Bool
  | _, after, copied, [] => (after, copied, true)
  | visited, after, copied, (key, i) :: rest =>
    -- what lies further came later
    if upper.all (· < key) then (after, copied, true)
    else if visited = batchMessages ∨ 0 < visited ∧ stop visited = true then (after, copied, false)
    else batch fence upper stop (visited + 1) (some key) (if i < fence then copied ++ [i] else copied) rest

/-- Index copied events. -/
def indexed (b : Build) (s : Store) (copied : List Nat) (sorted : Bool) : Build :=
  { b with
    index := copied.foldl (fun c i => (s.events[i]?).elim c fun e => c.copied e i sorted) b.index }

/-- Copy a batch of the events that were there at first, and say whether it was the last. -/
def snapshot (b : Build) (s : Store) (stop : Nat → Bool) : Build × Bool :=
  let timeline := (entryD s.readModel.conversations b.cid {}).timeline
  let lo := b.after.elim 0 fun key => partitionPoint (fun x => decide (x.1 ≤ key)) timeline
  let result := batch b.fence b.upper stop 0 b.after [] (timeline.drop lo)
  ({ b with after := result.1 }.indexed s result.2.1 false, result.2.2)

omit [Externals] [Segments] in
/-- How many later events a batch comes past. -/
def reach (stop : Nat → Bool) : Nat → Nat → Nat
  | 0, visited => visited
  | fuel + 1, visited =>
    if 0 < visited ∧ stop visited = true then visited else reach stop fuel (visited + 1)

/-- Copy a batch of the events that have come since, in the order they came. -/
def follow (b : Build) (s : Store) (stop : Nat → Bool) : Build :=
  -- the budget ends a batch, but never before its first event
  let n := reach stop (min batchMessages (s.events.length - b.delta)) 0
  let copied := (List.range' b.delta n).filter fun i =>
    (s.events[i]?).any fun e => decide (strv e.event "conversation_id" = b.cid) && readableEvent e.event
  { b with delta := b.delta + n }.indexed s copied true

end Build

/-! ## The store and its indexes -/

/-- A store, the indexes in use, and the one under construction: copied under its order, or following. -/
structure Searching where
  store : Store
  warm : Map ConversationSearch := ∅
  building : Option (Build × Bool) := none

/-- A publication joins the index of its conversation, where that is in use. -/
def indexEvent (warm : Map ConversationSearch) (e : Published) (eventIndex : Nat) : Map ConversationSearch :=
  let cid := strv e.event "conversation_id"
  match warm[cid]? with
  | some c => if readableEvent e.event then warm.insert cid (c.index e eventIndex) else warm
  | none => warm

/-- Publications join the indexes as they come. -/
def indexEvents (warm : Map ConversationSearch) : Nat → List Published → Map ConversationSearch
  | _, [] => warm
  | i, e :: rest => indexEvents (indexEvent warm e i) (i + 1) rest

/-- The store goes on, and what it publishes joins the indexes in use. -/
def Searching.moved (w : Searching) (t : Store) : Searching :=
  { w with
    store := t
    warm := indexEvents w.warm w.store.events.length (t.events.drop w.store.events.length) }

/-- What happens to a store and its indexes: a call of the store, the worker's turns under its lock, and the
budget that drops indexes and constructions. -/
inductive Searching.Step (w : Searching) : Searching → Prop
  | call {t : Store} : Store.Call w.store t → Step w (w.moved t)
  | begin (cid : String) : Step w { w with building := some (.new w.store cid, false) }
  | snapshot {b b' : Build} (stop : Nat → Bool) : w.building = some (b, false) →
    b.snapshot w.store stop = (b', false) → Step w { w with building := some (b', false) }
  | sorted {b b' : Build} (stop : Nat → Bool) : w.building = some (b, false) →
    b.snapshot w.store stop = (b', true) →
    Step w { w with building := some ({ b' with index := b'.index.sort }, true) }
  | follow {b : Build} (stop : Nat → Bool) : w.building = some (b, true) →
    b.delta ≠ w.store.events.length →
    Step w { w with building := some (b.follow w.store stop, true) }
  | install {b : Build} : w.building = some (b, true) → b.delta = w.store.events.length →
    Step w { w with warm := w.warm.insert b.cid b.index, building := none }
  | abandon : Step w { w with building := none }
  | evict (cid : String) : Step w { w with warm := w.warm.erase cid }

end

end Search

end ClaudeManager
