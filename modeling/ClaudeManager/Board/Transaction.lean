import Mathlib
import ClaudeManager.Board.Items

/-!
# A board's transaction

`BoardTx` is one locked board with what a write recorded for the database. Its primitive
effects cannot fail:

* `event`, `push` — history, and a message to a holder's session
* `raiseFlag`, `resolveFlag` — an item's open flags, each change recorded
* `clearBlockerDropped` — the flag of a dropped blocker goes with the last such blocker
-/

namespace Board

open Json Python Containers

structure Event where
  n : Option Nat
  type : String
  prev : Value
  new : Value
  reason : Option String
  holderAttributions : List (String × Value)

structure Push where
  n : Nat
  pid : String
  daemonId : Value
  sessionUid : Value
  kind : String
  text : String
  dedupe : String

/-- A flag raised, or one with a new detail. -/
structure FlagMark where
  n : Nat
  kind : String
  detail : Value
  deriving DecidableEq

structure FlagSettled where
  n : Nat
  kind : String
  resolution : String
  snoozeUntil : Option Instant
  deriving DecidableEq

/-- The fields of a placed item's task to write in the same transaction. -/
structure TaskWrite where
  name : Option String
  description : Option (Option String)

/-- One locked board's write, recorded for the database to apply. `uuid` are the ids its
new groups get, in turn. -/
structure BoardTx where
  board : BoardRow
  items : Items
  groups : List Group
  groupsCreated : List String
  taskWrites : NatMap TaskWrite
  ownerChanges : List (Nat × Option String × Option Holder)
  actor : Actor
  now : Instant
  created : List Nat
  dirty : NatSet
  holdersChanged : NatSet
  depsChanged : NatSet
  events : List Event
  flagsRaised : List FlagMark
  flagsDetail : List FlagMark
  flagsResolved : List FlagSettled
  pushes : List Push
  unblocked : List Nat
  warnings : List String
  boardChanged : Bool
  ownerTransitions : List (Nat × Bool)
  assignNotes : Map String
  uuid : Nat → String

/-- A transaction over a loaded board, by an actor that names itself. -/
def BoardTx.start (board : BoardRow) (items : Items) (actor : Actor) (now : Instant)
    (groups : List Group) (uuid : Nat → String) : Except Fault BoardTx :=
  if actor.pid = "" then .error (invalidField "actor.pid is required" "actor")
  else
    let evidence := actor.attribution.map fun v =>
      (attribution v actor.pid (ofText actor.daemonId) (ofText actor.sessionUid)).getD .null
    .ok ⟨board, items, groups, [], ∅, [], { actor with attribution := evidence }, now, [], ∅, ∅,
      ∅, [], [], [], [], [], [], [], false, [], ∅, uuid⟩

namespace BoardTx

/-! ## Lookups -/

/-- `item`. -/
def item (tx : BoardTx) (n : Nat) : Except Fault Item :=
  match tx.items[n]? with
  | some it => .ok it
  | none => .error (.refused 404 "not_found" s!"no item #{n} on board {tx.board.slug}"
      [("n", .num n)])

/-- `_dependents`: the items blocked by `n`, in order. -/
def dependents (tx : BoardTx) (n : Nat) : List Nat :=
  (tx.items.toList.filter fun e => n ∈ e.2.blockedBy).map Prod.fst

/-- `_prefix`. -/
def tag (tx : BoardTx) : String := s!"[cm-board {tx.board.slug}]"

/-- Is the item dropped? -/
def isDropped (tx : BoardTx) (n : Nat) : Bool :=
  tx.items[n]?.any fun it => it.status = .dropped

/-! ## Writes -/

/-- Change an item in place. -/
def modifyItem (tx : BoardTx) (n : Nat) (f : Item → Item) : BoardTx :=
  { tx with items := match tx.items[n]? with
      | some it => tx.items.insert n (f it)
      | none => tx.items }

def setItem (tx : BoardTx) (n : Nat) (it : Item) : BoardTx :=
  { tx with items := tx.items.insert n it }

def markDirty (tx : BoardTx) (n : Nat) : BoardTx := { tx with dirty := tx.dirty.insert n }

def markDeps (tx : BoardTx) (n : Nat) : BoardTx :=
  { tx with depsChanged := tx.depsChanged.insert n }

def markHolders (tx : BoardTx) (n : Nat) : BoardTx :=
  { tx with holdersChanged := tx.holdersChanged.insert n }

def warnAll (tx : BoardTx) (texts : List String) : BoardTx :=
  { tx with warnings := tx.warnings ++ texts }

def warn (tx : BoardTx) (text : String) : BoardTx := tx.warnAll [text]

/-- `_event`. -/
def event (tx : BoardTx) (n : Nat) (type : String) (prev new : Value) (reason : Option String) :
    BoardTx :=
  let holders := match tx.items[n]? with
    | some it => it.holders
    | none => []
  let evidence := holders.filterMap fun h =>
    match h.attribution with
    | some .null | none => none
    | some v => some (h.pid, v)
  { tx with events := tx.events ++ [⟨some n, type, prev, new, reason, evidence⟩] }

section

variable [Runtime]

/-- `_push`: nothing for Owner, or for a holder recorded without a session. -/
def push (tx : BoardTx) (n : Nat) (h : Holder) (kind text : String) : BoardTx :=
  if truthy h.daemonId && truthy h.sessionUid then
    let time := Runtime.isoformat tx.now
    let dedupe := s!"{kind}:{tx.board.id}:{n}:{h.pid}:{time}"
    { tx with pushes := tx.pushes ++ [⟨n, h.pid, h.daemonId, h.sessionUid, kind, text, dedupe⟩] }
  else tx

/-- The same push to several holders. -/
def pushAll (tx : BoardTx) (n : Nat) (holders : List Holder) (kind text : String) : BoardTx :=
  holders.foldl (fun tx h => tx.push n h kind text) tx

/-! ## Flags -/

/-- The item's open flags. -/
def flagsOf (tx : BoardTx) (n : Nat) : Map Flag :=
  match tx.items[n]? with
  | some it => it.openFlags
  | none => ∅

/-- Put a flag on an item. -/
def openFlag (tx : BoardTx) (n : Nat) (kind : String) (flag : Flag) : BoardTx :=
  tx.modifyItem n fun it => { it with openFlags := it.openFlags.insert kind flag }

/-- Take a flag off an item. -/
def closeFlag (tx : BoardTx) (n : Nat) (kind : String) : BoardTx :=
  tx.modifyItem n fun it => { it with openFlags := it.openFlags.erase kind }

/-- Record a flag for the database to raise. -/
def recordRaised (tx : BoardTx) (mark : FlagMark) : BoardTx :=
  { tx with flagsRaised := tx.flagsRaised ++ [mark] }

/-- Record a new detail of an open flag. -/
def recordDetail (tx : BoardTx) (mark : FlagMark) : BoardTx :=
  { tx with flagsDetail := tx.flagsDetail ++ [mark] }

/-- Record a flag for the database to resolve. -/
def recordResolved (tx : BoardTx) (mark : FlagSettled) : BoardTx :=
  { tx with flagsResolved := tx.flagsResolved ++ [mark] }

/-- `raise_flag`: an open flag only takes a new detail. -/
def raiseFlag (tx : BoardTx) (n : Nat) (kind : String) (detail : Value) : BoardTx :=
  let told := Value.obj [("detail", detail), ("kind", .str kind)]
  match (tx.flagsOf n)[kind]? with
  | some flag =>
    if detail ≠ .null ∧ flag.detail ≠ detail then
      ((tx.openFlag n kind { flag with detail := detail }).recordDetail ⟨n, kind, detail⟩).event n
        "flag_updated" .null told none
    else tx
  | none =>
    ((tx.openFlag n kind ⟨tx.now, detail⟩).recordRaised ⟨n, kind, detail⟩).event n "flag_raised"
      .null told none

/-- `resolve_flag`. -/
def resolveFlag (tx : BoardTx) (n : Nat) (kind resolution : String)
    (snoozeUntil : Option Instant) : BoardTx :=
  match (tx.flagsOf n)[kind]? with
  | some _ =>
    ((tx.closeFlag n kind).recordResolved ⟨n, kind, resolution, snoozeUntil⟩).event n
      "flag_resolved" .null
      (.obj [("kind", .str kind), ("resolution", .str resolution),
        ("snooze_until", iso snoozeUntil)]) none
  | none => tx

/-- `_clear_blocker_dropped`. -/
def clearBlockerDropped (tx : BoardTx) (n : Nat) : BoardTx :=
  match tx.items[n]? with
  | some it =>
    if it.blockedBy.toList.any tx.isDropped then tx
    else tx.resolveFlag n blockerDropped "cleared" none
  | none => tx

end

end BoardTx

end Board
