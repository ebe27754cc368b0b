import Mathlib
import ClaudeManager.Board.Apply

/-!
# The operations of a board

`create`, `update`, `touch` and `resolve`: the calls a transaction runs.
-/

namespace Board

open Json Python Containers Program

/-- `fields` without one key. -/
def Fields.without (fields : Fields) (key : String) : Fields := fields.filter fun e => e.1 ≠ key

section

variable [Runtime]

/-- The holders of a list. -/
def holderList : Value → Except Fault (List Holder)
  | .arr items => items.mapM holder
  | _ => .error (invalidField "each holder needs a pid" "holders")

namespace BoardTx

/-! ## Creating -/

/-- The actor's record, as a request would send it. -/
def actorValue (a : Actor) : Value :=
  let evidence := match a.attribution with
    | some v => [("attribution", v)]
    | none => []
  .obj (evidence ++ [("daemon_id", ofText a.daemonId), ("name", ofText a.name),
    ("pid", .str a.pid), ("session_uid", ofText a.sessionUid)])

/-- `_actor_holder`: an actor with a session holds what it creates. -/
def actorHolder (tx : BoardTx) : Except Fault (List Holder) :=
  if isSet tx.actor.sessionUid && isSet tx.actor.daemonId then do
    return [← holder (actorValue tx.actor)]
  else .ok []

/-- A new item, before its fields are applied. -/
def newItem (n : Nat) (title : String) (now : Instant) (by_ : String) : Item :=
  ⟨n, title, .open, none, none, none, none, none, none, none, none, none, none, none, none, none,
    0, none, none, [], some now, none, none, none, none, some by_, some now, none, ∅, .null, [],
    ∅, ∅⟩

/-- Put a new item on the board under the next number. -/
def addItem (tx : BoardTx) (title : String) : BoardTx :=
  let n := tx.board.nextNumber
  { tx with
    board := { tx.board with nextNumber := n + 1 }
    boardChanged := true
    items := tx.items.insert n (newItem n title tx.now tx.actor.pid)
    created := tx.created ++ [n] }

/-- The holders of a new item: those it names, else who creates it. -/
def specHolders (tx : BoardTx) (spec : Fields) : Except Fault (List Holder) :=
  match (spec.lookup "holders").getD .null with
  | .null => tx.actorHolder
  | v => holderList v

/-- Create one item. -/
def createOne (tx : BoardTx) (spec : Fields) : Except Fault BoardTx := do
  let title := (← text ((spec.lookup "title").getD .null) maxTitle "title" true).getD ""
  let n := tx.board.nextNumber
  let tx := tx.addItem title
  let holders ← tx.specHolders spec
  tx.apply ⟨n, Fields.without (Fields.without spec "title") "holders", some holders, [], [], none,
    true, false, false, none⟩

/-- `create`. -/
def create (tx : BoardTx) (specs : List Fields) : Except Fault BoardTx := do
  refuse (specs = []) (invalidField "items must not be empty" "items")
  refuse (maxItemsPerCall < specs.length)
    (invalidField s!"at most {maxItemsPerCall} items per call" "items")
  specs.foldlM createOne tx

/-! ## Updating -/

/-- The arguments of `update`. -/
structure Update where
  ns : List Nat
  fields : Fields
  addHolders : List Value
  removeHolders : List Value
  reason : Option String
  reopen : Bool
  expectStatus : Option String
  owner : Option Value
  role : Option String

/-- A holder to add, with the call's role where it has none of its own. -/
def addedHolder (role : Option String) (v : Value) : Except Fault Holder :=
  if v.isObj then
    holder (v.set "role" (if truthy (v.idx "role") then v.idx "role" else ofText role))
  else holder v

/-- A holder to remove, by its pid. -/
def removedPid : Value → Except Fault String
  | .str pid => .ok pid
  | v => do return (← holder v).pid

/-- The holders a `holders` field puts in place of the old ones. -/
def replacement (fields : Fields) : Except Fault (Option (List Holder)) :=
  match fields.lookup "holders" with
  | none => .ok none
  | some v => do
    if truthy v then return some (← holderList v) else return some []

/-- The write an update makes on each of its items. -/
def Update.write (u : Update) : Except Fault (Nat → Write) := do
  let replace ← replacement u.fields
  let _ ← roleOf (ofText u.role)
  let adds ← u.addHolders.mapM (addedHolder u.role)
  let owner ← u.owner.mapM holder
  let removes ← u.removeHolders.mapM removedPid
  refuse (u.expectStatus.any fun s => (Status.ofName s).isNone)
    (invalid "invalid_status" s!"expect_status must be one of {statusNames}"
      [("field", "expect_status")])
  return fun n =>
    ⟨n, u.fields.without "holders", replace, adds, removes, u.reason, false, false, u.reopen, owner⟩

/-- Update one item. The expected status is compared under the lock the write holds. -/
def updateOne (u : Update) (write : Nat → Write) (tx : BoardTx) (n : Nat) :
    Except Fault BoardTx := do
  let it ← tx.item n
  let status := it.status.name
  let expected := u.expectStatus.getD ""
  refuse (u.expectStatus ≠ none ∧ u.expectStatus ≠ some status)
    (.refused 409 "status_changed"
      (s!"#{n} is {status} now, not {expected}: re-read it (board(query=...)) before writing")
      [("n", .num n), ("current_status", .str status), ("expected", .str expected)])
  tx.apply (write n)

/-- `update`. -/
def update (tx : BoardTx) (u : Update) : Except Fault BoardTx := do
  refuse (u.ns = []) (invalidField "ns must not be empty" "ns")
  refuse (maxItemsPerCall < u.ns.length)
    (invalidField s!"at most {maxItemsPerCall} items per call" "ns")
  let write ← u.write
  (fromKeys u.ns).foldlM (updateOne u write) tx

/-! ## Touching -/

/-- The arguments of `touch`. -/
structure Touch where
  ns : List Nat
  source : String
  messageId : Option String
  excerpt : Option String
  anyItem : Bool
  suggest : Option Value

/-- Who hears of a suggestion: the holders and the steward. -/
def audience (tx : BoardTx) (it : Item) : List Holder :=
  match tx.board.stewardPid with
  | some steward =>
    if steward = "" ∨ steward ∈ it.holders.map Holder.pid then it.holders
    else
      match splitOnChar ':' steward with
      | ["agent", daemon, uid] =>
        it.holders ++ [⟨steward, .null, .str uid, .str daemon, none, none, none, none, none⟩]
      | _ => it.holders
  | none => it.holders

/-- A target that was dismissed is not suggested again until the item's status or head
moves. -/
def isDismissed (it : Item) (target : String) : Bool :=
  match it.flagPushed[suggested ++ ":dismissed:" ++ target]? with
  | some mark => truthy mark && mark.idx "status" = .str it.status.name
      && mark.idx "head" = it.gateHead
  | none => false

/-- `_suggest`: raise a suggested transition from a keyword in a progress post. A new target
settles the old suggestion and is raised afresh. -/
def suggest (tx : BoardTx) (n : Nat) (it : Item) (request : Value) (messageId : Option String) :
    BoardTx :=
  let goal := request.idx "status"
  let keyword := firstChars 20
    (if truthy (request.idx "keyword") then str (request.idx "keyword") else "")
  if ¬ (goal = .str "done" ∨ goal = .str "blocked") ∨ .str it.status.name = goal ∨ keyword = "" then tx
  else if it.status = .blockedOnOwner then tx
  else if isDismissed it (str goal) then tx
  else
    let superseded := it.openFlags[suggested]?.any fun flag => flag.detail.idx "to" ≠ goal
    let again := it.openFlags[suggested]?.isSome && !superseded
    let tx := if superseded then tx.resolveFlag n suggested "superseded" none else tx
    let tx := tx.raiseFlag n suggested (.obj [("by", .str tx.actor.who), ("keyword", .str keyword),
      ("message_id", ofText messageId), ("to", goal)])
    if again then tx
    else
      let target := str goal
      tx.pushAll n ((tx.audience it).filter fun h => h.pid ≠ tx.actor.pid) suggested
        (s!"{tx.tag} #{n} \"{it.title}\": {tx.actor.who} posted {keyword}. Mark it {target}? "
          ++ s!"item_resolve({n}, \"apply\", to=\"{target}\") or item_resolve({n}, \"dismiss\").")

/-- A touch by a holder resets the item's clocks. -/
def checkIn (tx : BoardTx) (n : Nat) : BoardTx :=
  (tx.modifyItem n fun it =>
    { it with touchedAt := some tx.now, launchedAt := some tx.now }).markDirty n

/-- Why a touch leaves an item alone. -/
def skipReason (tx : BoardTx) (t : Touch) (n : Nat) : Option String :=
  match tx.items[n]?.filter fun it => it.archivedAt = none with
  | none => some "not_found"
  | some it =>
    if it.status.closed then some "closed"
    else if t.anyItem = false ∧ tx.actor.pid ∉ it.holders.map Holder.pid then some "not_holder"
    else none

/-- Touch one item. -/
def touchOne (t : Touch) (tx : BoardTx) (n : Nat) : BoardTx :=
  match tx.skipReason t n, tx.items[n]? with
  | none, some it =>
    let tx := if tx.actor.pid ∈ it.holders.map Holder.pid then tx.checkIn n else tx
    let excerpt := firstChars 200 (t.excerpt.getD "")
    let tx := tx.event n (t.source ++ "_ref") .null
      (.obj [("excerpt", if excerpt = "" then .null else .str excerpt),
        ("message_id", ofText t.messageId)]) none
    match t.suggest with
    | some request => if truthy request then tx.suggest n it request t.messageId else tx
    | none => tx
  | _, _ => tx

/-- `touch`: the items touched and those skipped are told apart by `skipReason`. -/
def touch (tx : BoardTx) (t : Touch) : BoardTx := (fromKeys t.ns).foldl (touchOne t) tx

/-! ## Resolving -/

/-- The arguments of `resolve`. -/
structure Resolve where
  n : Nat
  action : String
  kind : Option String
  holders : Value
  blockedBy : Value
  blockedOn : Option String
  checkBack : Option String
  reason : Option String
  message : Option String
  toStatus : Option String

def resolveActions : List String :=
  ["nudge", "reassign", "launch", "block", "drop", "answer", "apply", "dismiss"]

/-- `SNOOZE_SETTING`: for how long a nudge snoozes a flag, in seconds. -/
def snoozeSeconds (board : BoardRow) (kind : String) : Nat :=
  match kind with
  | "holder_idle" => board.idleS
  | "stale" => board.staleS
  | "unassigned" => board.unassignedS
  | "unlaunched" => board.launchS
  | _ => board.repushS

/-- The kinds a call resolves: the one it names, else all that are open. -/
def kindsOf (tx : BoardTx) (r : Resolve) : List String :=
  if isSet r.kind then r.kind.toList else tx.openKinds r.n

/-- The history entry of a resolution. -/
def recordResolution (tx : BoardTx) (n : Nat) (action : String) (kinds : List String)
    (reason : Option String) : BoardTx :=
  tx.event n "resolved" .null
    (.obj [("action", .str action), ("flags", .arr (kinds.map .str))]) reason

/-- The kinds of the item's open flags among some. -/
def openAmong (tx : BoardTx) (n : Nat) (kinds : List String) : List String :=
  kinds.filter fun k => (tx.flagsOf n).contains k

/-- Record Owner's answer. -/
def answer (tx : BoardTx) (r : Resolve) (it : Item) : Except Fault BoardTx := do
  refuse (it.status ≠ .blockedOnOwner)
    (invalidField s!"#{r.n} is not blocked on Owner" "action")
  let said := (← text (ofText r.message) maxNote "message" true).getD ""
  let kinds := tx.openKinds r.n
  let tx := tx.resolveFlags r.n kinds "answer"
  let status := if it.holders ≠ [] ∨ strict tx.board then Status.active else .open
  let reason := some s!"answer: {said}"
  let tx ← tx.apply { Write.plain r.n [("status", .str status.name),
    ("note", .str s!"Owner: {said}")] reason with answered := true }
  return tx.recordResolution r.n "answer" kinds reason

/-- A dismissed target is remembered with the status and head it was dismissed at. -/
def dismiss (tx : BoardTx) (n : Nat) (target : Value) : BoardTx :=
  (tx.modifyItem n fun it => { it with
    flagPushed := it.flagPushed.insert (suggested ++ ":dismissed:" ++ str target)
      (.obj [("at", iso (some tx.now)), ("head", it.gateHead),
        ("status", .str it.status.name)]) }).markDirty n

/-- Confirm a suggestion, or dismiss it. A suggestion that changed since the caller was shown
it is refused. -/
def confirm (tx : BoardTx) (r : Resolve) (it : Item) : Except Fault BoardTx := do
  let flag ← okOr it.openFlags[suggested]?
    (invalidField s!"#{r.n} has no suggested transition" "action")
  let target := flag.detail.idx "to"
  let shown := str target
  let given := r.toStatus.getD ""
  refuse (r.action = "apply" ∧ isSet r.toStatus = false)
    (invalidField s!"apply needs to=\"{shown}\" (the suggestion you are confirming)" "to")
  refuse (r.action = "apply" ∧ .str given ≠ target)
    (.refused 409 "suggestion_changed" s!"#{r.n}'s suggestion is now {shown}, not {given}"
      [("n", .num r.n), ("to", target)])
  let tx := tx.resolveFlag r.n suggested r.action none
  let keyword := str (flag.detail.idx "keyword")
  let reason := if isSet r.reason then r.reason else some s!"confirmed suggestion ({keyword})"
  let tx ← if r.action = "dismiss" then pure (tx.dismiss r.n target)
    else tx.apply (Write.plain r.n [("status", target)] reason)
  return tx.recordResolution r.n r.action [suggested] r.reason

/-- Tell the holders to look at the item, and snooze its flags. -/
def nudge (tx : BoardTx) (r : Resolve) (it : Item) : Except Fault BoardTx := do
  refuse (it.holders = [])
    (invalid "no_holders" s!"#{r.n} has no holder to nudge; reassign it instead" [])
  let kinds := tx.kindsOf r
  let resolved := tx.openAmong r.n kinds
  let tx := kinds.foldl (fun tx k => tx.resolveFlag r.n k "nudge"
    (some (tx.now + snoozeSeconds tx.board k * 10 ^ 6))) tx
  let what := if kinds = [] then "in need of an update" else commas kinds
  let extra := orElse r.message (r.reason.getD "")
  let note := if extra = "" then "" else s!" {tx.actor.who}: {extra}"
  let tx := tx.pushAll r.n it.holders "nudge"
    (s!"{tx.tag} #{r.n} \"{it.title}\" looks {what}: update it, close it "
      ++ s!"(item_set({r.n}, \"done\")) or hand it back (item_set({r.n}, holder=\"none\")).{note}")
  let tx := tx.modifyItem r.n fun it => { it with touchedAt := some tx.now }
  return (tx.recordResolution r.n r.action resolved r.reason).markDirty r.n

/-- The fields by which a call blocks an item. -/
def blockFields (r : Resolve) : Except Fault Fields := do
  let onText := isSet r.blockedOn
  refuse (onText = true ∧ isSet r.checkBack = false)
    (invalid "check_back_required" "blocking on free text needs a check_back time"
      [("field", "check_back")])
  refuse (truthy r.blockedBy = false ∧ onText = false)
    (invalidField "block needs blocked_by or blocked_on" "blocked_by")
  let blockers := if truthy r.blockedBy then [("blocked_by", r.blockedBy)] else []
  let trigger := if onText then
    [("blocked_on", ofText r.blockedOn), ("check_back", ofText r.checkBack)] else []
  return ("status", "blocked") :: (blockers ++ trigger)

/-- The write by which a call settles an item's flags, if it makes one. -/
def settlingWrite (r : Resolve) : Except Fault (Option Write) :=
  if r.action = "reassign" then do
    refuse (truthy r.holders = false) (invalidField "reassign needs holders" "holders")
    let holders ← holderList r.holders
    return some { Write.plain r.n [] r.reason with holders := some holders }
  else if r.action = "block" then do
    return some (Write.plain r.n (← blockFields r) r.reason)
  else if r.action = "drop" then
    .ok (some (Write.plain r.n [("status", "dropped")] r.reason))
  else .ok none

/-- Resolve an item's flags by a write. -/
def settleFlags (tx : BoardTx) (r : Resolve) : Except Fault BoardTx := do
  let kinds := tx.kindsOf r
  let resolved := tx.openAmong r.n kinds
  let tx := tx.resolveFlags r.n kinds r.action
  let write ← settlingWrite r
  let tx ← match write with
    | some w => tx.apply w
    | none => pure tx
  return tx.recordResolution r.n r.action resolved r.reason

/-- `resolve`. -/
def resolve (tx : BoardTx) (r : Resolve) : Except Fault BoardTx := do
  let it ← tx.item r.n
  let actions := commas resolveActions
  refuse (r.action ∉ resolveActions)
    (invalidField s!"action must be one of {actions}" "action")
  refuse (r.action = "launch")
    (invalidField "launch is completed by the daemon: spawn, then reassign" "action")
  let status := it.status.name
  refuse (it.status.closed = true ∧ r.action ≠ "drop")
    (invalid "item_closed" s!"#{r.n} is {status}" [])
  if r.action = "answer" then tx.answer r it
  else if r.action = "apply" ∨ r.action = "dismiss" then tx.confirm r it
  else if r.action = "nudge" then tx.nudge r it
  else tx.settleFlags r

end BoardTx

/-! ## Transactions -/

/-- What one transaction runs. -/
inductive Request where
  | create (specs : List Fields)
  | update (args : BoardTx.Update)
  | touch (args : BoardTx.Touch)
  | resolve (args : BoardTx.Resolve)

def BoardTx.run (tx : BoardTx) : Request → Except Fault BoardTx
  | .create specs => tx.create specs
  | .update args => tx.update args
  | .touch args => .ok (tx.touch args)
  | .resolve args => tx.resolve args

end

end Board
