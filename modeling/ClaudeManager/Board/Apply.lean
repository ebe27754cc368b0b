import Mathlib
import ClaudeManager.Board.Rules

/-!
# Applying a write

The second half of `apply`, from the moment the item is on the board again: flags, closing
and reopening, the items it blocks, history.
-/

namespace Board

open Json Python Containers Program

/-- `blocked_by` in a history entry. -/
def blockersValue (s : NatSet) : Value := .obj [("blocked_by", .arr (s.toList.map fun b => .num b))]

/-- A dependent nothing blocks any more. -/
def Item.unblocked (it : Item) (status : Status) (now : Instant) : Item :=
  { it with
    status := status
    clockResetAt := some now
    actionableAt := if status = .active then some now else it.actionableAt }

section

variable [Runtime]

namespace BoardTx

/-- Launch grants follow the owner, and none outlives the work. -/
def recordOwner (tx : BoardTx) (n : Nat) (prevOwner : Option String) (prev : Option Status)
    (it : Item) : BoardTx :=
  let now := it.holders.find? Holder.owns
  if it.status.closed = true ∧ isSet prevOwner = true ∧ some it.status ≠ prev then
    { tx with ownerChanges := tx.ownerChanges ++ [(n, prevOwner, none)] }
  else if now.map Holder.pid ≠ prevOwner ∧ it.status.closed = false then
    { tx with ownerChanges := tx.ownerChanges ++ [(n, prevOwner, now)] }
  else tx

/-- Naming an owner settles the question who it is. -/
def clearPickOwner (tx : BoardTx) (n : Nat) (holders : List Holder) : BoardTx :=
  if holders.any Holder.owns && holders.all Holder.settled then
    tx.resolveFlag n "pick_owner" "cleared" none
  else tx

/-- A strict board warns of what does not fit it. -/
def warnStrict (tx : BoardTx) (n : Nat) (it : Item) : BoardTx :=
  match if strict tx.board then strictViolation it tx.board tx.now else none with
  | some reason =>
    let fix := triageFix reason
    tx.warn s!"#{n} does not fit board {tx.board.slug} ({reason}): {fix}"
  | none => tx

/-- A move into or out of `blocked_on_owner`. -/
def recordTransition (tx : BoardTx) (n : Nat) (prev : Option Status) (status : Status) : BoardTx :=
  let enters := decide (status = .blockedOnOwner)
  if enters = decide (prev = some .blockedOnOwner) then tx
  else { tx with ownerTransitions := tx.ownerTransitions ++ [(n, enters)] }

/-- Resolve flags one after the other. -/
def resolveFlags (tx : BoardTx) (n : Nat) (kinds : List String) (resolution : String) : BoardTx :=
  kinds.foldl (fun tx kind => tx.resolveFlag n kind resolution none) tx

/-- `sorted(it.open_flags)`. -/
def openKinds (tx : BoardTx) (n : Nat) : List String := (tx.flagsOf n).keys

/-! ## The items it blocks -/

/-- A dependent loses a blocker that is done. -/
def dropBlocker (tx : BoardTx) (n dep : Nat) : BoardTx :=
  (((tx.modifyItem dep fun it => { it with blockedBy := it.blockedBy.erase n }).markDeps
    dep).markDirty dep).clearBlockerDropped dep

/-- The status a dependent goes on with. -/
def freedStatus (tx : BoardTx) (it : Item) : Status :=
  if it.holders ≠ [] ∨ strict tx.board then .active else .open

/-- Record an item that goes on. -/
def recordUnblocked (tx : BoardTx) (n : Nat) : BoardTx :=
  { tx with unblocked := tx.unblocked ++ [n] }

/-- A dependent that waited for nothing else goes on, and its holders hear of it. -/
def free (tx : BoardTx) (n : Nat) (title : String) (dep : Nat) (it : Item) : BoardTx :=
  let status := tx.freedStatus it
  let tx := (tx.modifyItem dep fun it => it.unblocked status tx.now).recordUnblocked dep
  let tx := tx.event dep "unblocked"
    (.obj [("blocked_by", .arr [.num n]), ("status", "blocked")])
    (.obj [("blocked_by", .arr []), ("status", .str status.name)]) (some s!"#{n} done")
  tx.pushAll dep it.holders "unblocked"
    (s!"{tx.tag} #{dep} \"{it.title}\" is unblocked: #{n} \"{title}\" is done. "
      ++ "It is active again.")

/-- A dependent of an item that is done: it waits for its other blockers, or goes on. -/
def unblock (tx : BoardTx) (n : Nat) (title : String) (dep : Nat) : BoardTx :=
  let tx := tx.dropBlocker n dep
  match tx.items[dep]? with
  | none => tx
  | some it =>
    if it.blockedBy.isEmpty = false ∨ it.status ≠ .blocked ∨ isSet it.blockedOn then
      tx.event dep "updated" (blockersValue (it.blockedBy.insert n)) (blockersValue it.blockedBy)
        (some s!"#{n} done")
    else tx.free n title dep it

/-- `_cascade_done`. -/
def cascadeDone (tx : BoardTx) (n : Nat) (title : String) : BoardTx :=
  (tx.dependents n).foldl (fun tx dep => tx.unblock n title dep) tx

/-- A dependent of an item that is dropped: it hears of its dropped blockers. -/
def flagDependent (tx : BoardTx) (dep : Nat) : BoardTx :=
  match tx.items[dep]? with
  | none => tx
  | some it =>
    if it.status.closed then tx
    else
      let dropped := it.blockedBy.toList.filter tx.isDropped
      (tx.raiseFlag dep blockerDropped
        (.obj [("blockers", .arr (dropped.map fun b => .num b))])).markDirty dep

/-- `_flag_dependents_dropped`. -/
def flagDependentsDropped (tx : BoardTx) (n : Nat) : BoardTx :=
  (tx.dependents n).foldl flagDependent tx

/-! ## Closing and reopening -/

/-- An item closes: its flags close with it. -/
def close (tx : BoardTx) (n : Nat) : BoardTx :=
  let tx := tx.modifyItem n fun it =>
    { it with closedAt := some tx.now, closedBy := some tx.actor.who }
  tx.resolveFlags n (tx.openKinds n) "closed"

/-- An item reopens: it no longer counts as a dropped blocker. -/
def reopen (tx : BoardTx) (n : Nat) : BoardTx :=
  let tx := tx.modifyItem n fun it => { it with closedAt := none, archivedAt := none }
  (tx.dependents n).foldl clearBlockerDropped tx

/-- What the new status means for the item's marks. -/
def closeOrReopen (tx : BoardTx) (n : Nat) (prev : Option Status) (status : Status) : BoardTx :=
  let wasClosed := prev.any Status.closed
  if status.closed = true ∧ wasClosed = false then tx.close n
  else if status.closed = false ∧ wasClosed = true then tx.reopen n
  else tx

/-- What the new status means for the items it blocks. -/
def tellDependents (tx : BoardTx) (n : Nat) (title : String) (prev : Option Status)
    (status : Status) : BoardTx :=
  if status = .done ∧ prev ≠ some .done then tx.cascadeDone n title
  else if status = .dropped ∧ prev.any Status.closed = false then tx.flagDependentsDropped n
  else tx

/-! ## History -/

/-- Each new holder hears of its assignment. -/
def pushAssigned (tx : BoardTx) (n : Nat) (it : Item) (prevPids : List String) : BoardTx :=
  (it.holders.filter fun h => h.pid ∉ prevPids ∧ h.pid ≠ tx.actor.pid).foldl (fun tx h =>
    let note := match tx.assignNotes[h.pid]? with
      | some note => if note = "" then "" else " " ++ note
      | none => ""
    tx.push n h "assigned"
      (s!"{tx.tag} you were assigned #{n} \"{it.title}\" by {tx.actor.who}.{note} Update it with "
        ++ s!"item_set({n}, ...); hand it back with item_set({n}, holder=\"none\").")) tx

/-- The history entry of a write, from the item before and after it. -/
def recordWrite (tx : BoardTx) (w : Write) (before after : Item) : BoardTx :=
  let new := after.snapshot
  if w.creating then tx.event w.n "created" .null (.obj new) w.reason
  else
    let changed := new.filter fun e => before.snapshot.lookup e.1 ≠ some e.2
    if changed = [] then tx.event w.n "touched" .null (.obj [("via", "item_set")]) w.reason
    else
      -- Recorded: which writes reopened finished work, and how.
      let reopened := before.status = .done ∧ after.status ≠ .done
      let how := if tx.actor.pid = ownerPid ∧ w.reopen = false then "owner" else "reopen=true"
      let marks := if reopened then [("reopened", Value.str how)] else []
      tx.event w.n "updated"
        (.obj (before.snapshot.filter fun e => (changed.map Prod.fst).contains e.1))
        (.obj (changed ++ marks)) w.reason

end BoardTx

/-! ## The write -/

/-- The item with its fields, holders, blockers and status settled, not yet on the board. -/
structure Settled where
  tx : BoardTx
  it : Item
  status : Status

/-- The first half: the item's own fields, up to the status they lead to. -/
def settle (w : Write) (d : Draft) : Except Fault Settled := do
  checkWritable w d
  let prev := w.prevStatus d.it
  let prevPids := w.prevPids d.it
  let explicit ← explicitStatus w
  let d ← setFields w d
  let changed := holdersChange w d.it
  let held := newHolders w d.it ≠ []
  let d := setHolders w d
  let d ← setBlockers w d
  let (status, warnings) := deriveStatus w d.tx d.it explicit held changed
  let d := { d with tx := d.tx.warnAll warnings }
  onlyIf (strict d.tx.board) (checkStrict w d.tx d.it explicit prev held status)
  checkReopen w d.tx d.it prev status
  checkOwnerBlocked w d.tx d.it prev prevPids status
  let d ← settleBlocked w status d
  let d ← settleEta w prev status d
  let d ← settleJob w status d
  let d := startClocks w prev changed status d
  checkOwner w.n status d.it.holders
  return ⟨d.tx, { d.it with status := status }, status⟩

namespace BoardTx

/-- What a settled item's owner and status mean for the transaction. -/
def announce (tx : BoardTx) (w : Write) (before it : Item) : BoardTx :=
  let tx := tx.recordOwner w.n (ownerOf before.holders) (w.prevStatus before) it
  let tx := tx.clearPickOwner w.n it.holders
  let tx := tx.warnStrict w.n it
  tx.recordTransition w.n (w.prevStatus before) it.status

/-- New blockers may not close a cycle. -/
def recheckDeps (tx : BoardTx) (n : Nat) (it : Item) : Except Fault BoardTx :=
  if n ∈ tx.depsChanged then do
    checkCycles tx n it.blockedBy.toList
    return tx.clearBlockerDropped n
  else .ok tx

/-- Any status change settles a pending suggestion: it was acted on. -/
def settleSuggestion (tx : BoardTx) (w : Write) (before it : Item) : BoardTx :=
  if it.status ≠ before.status ∧ w.creating = false then
    tx.resolveFlag w.n suggested "cleared" none
  else tx

/-- Any member's write is a check-in, and history. -/
def finish (tx : BoardTx) (w : Write) (before : Item) : BoardTx :=
  let tx := tx.modifyItem w.n fun it => { it with touchedAt := some tx.now }
  match tx.items[w.n]? with
  | none => tx
  | some it =>
    let tx := tx.pushAssigned w.n it (w.prevPids before)
    (tx.markDirty w.n).recordWrite w before it

/-- The second half: the settled item on the board, and what follows from it. -/
def commit (w : Write) (before : Item) (s : Settled) : Except Fault BoardTx := do
  let tx := s.tx.setItem w.n s.it
  let tx := tx.announce w before s.it
  let tx ← tx.recheckDeps w.n s.it
  let tx := tx.settleSuggestion w before s.it
  let tx := tx.closeOrReopen w.n (w.prevStatus before) s.it.status
  let tx := tx.tellDependents w.n s.it.title (w.prevStatus before) s.it.status
  return tx.finish w before

/-- `apply`: one item's field changes and every rule that follows from them. -/
def apply (tx : BoardTx) (w : Write) : Except Fault BoardTx := do
  let it ← tx.item w.n
  let s ← settle w ⟨tx, it⟩
  commit w it s

end BoardTx

end

end Board
