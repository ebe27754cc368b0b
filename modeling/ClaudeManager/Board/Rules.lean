import Mathlib
import ClaudeManager.Board.Transaction

/-!
# The rules of a write

`apply` makes one item's field changes and everything that follows from them. Its steps,
in the order of the source:

* `setFields` — the plain fields, each checked as it is set
* `setHolders`, `setBlockers` — who is on the item, and what it waits for
* `deriveStatus` — the status, explicit or derived
* `checkStrict`, `checkReopen`, `checkOwnerBlocked` — writes that are refused
* `settleBlocked`, `settleEta`, `settleJob` — what the status does not carry is cleared
* `cascadeDone`, `flagDependentsDropped` — what closing does to the items it blocks

Steps up to the status work on a draft of the item; `store` puts it on the board.
-/

namespace Board

open Json Python Containers Program

abbrev Fields := List (String × Value)

/-- The arguments of `apply`. -/
structure Write where
  n : Nat
  fields : Fields
  holders : Option (List Holder)
  add : List Holder
  remove : List String
  reason : Option String
  creating : Bool
  answered : Bool
  reopen : Bool
  owner : Option Holder

/-- A write of fields alone. -/
def Write.plain (n : Nat) (fields : Fields) (reason : Option String) : Write :=
  ⟨n, fields, none, [], [], reason, false, false, false, none⟩

def Write.has (w : Write) (key : String) : Bool := (w.fields.lookup key).isSome

/-- `fields.get(key)`. -/
def Write.get (w : Write) (key : String) : Value := (w.fields.lookup key).getD .null

/-- `key in fields and fields[key] is not None`. -/
def Write.given (w : Write) (key : String) : Bool := w.get key ≠ .null

/-- `prev_status`: none while the item is being created. -/
def Write.prevStatus (w : Write) (it : Item) : Option Status :=
  if w.creating then none else some it.status

def Write.prevPids (w : Write) (it : Item) : List String :=
  if w.creating then [] else it.holders.map Holder.pid

/-- The pid of the first holder that owns the item. -/
def ownerOf (holders : List Holder) : Option String := (holders.find? Holder.owns).map Holder.pid

/-- An item under change, with the transaction it belongs to. -/
structure Draft where
  tx : BoardTx
  it : Item

section

variable [Runtime]

/-! ## Refused at once -/

def knownFields : List String :=
  ["status", "title", "note", "group", "group_id", "blocked_by", "blocked_on", "check_back",
    "eta", "job", "links", "description", "team_id"]

/-- Unknown fields are refused, and so is a write to an unplaced task's item. -/
def checkWritable (w : Write) (d : Draft) : Except Fault Unit := do
  let unknown := (w.fields.map Prod.fst).filter (· ∉ knownFields)
  let sorted := (Std.ExtTreeSet.ofList unknown compare : StrSet).toList
  let shown := commas (sorted.map Runtime.repr)
  refuse (unknown ≠ []) (invalid "invalid_field" s!"unknown fields: [{shown}]"
    [("field", ofText sorted.head?)])
  let time := (d.it.linkArchivedAt.map Runtime.isoformat).getD ""
  let task := d.it.taskId.getD "None"
  refuse (d.it.linkArchivedAt ≠ none ∧ w.creating = false)
    (.refused 409 "link_archived"
      (s!"#{w.n} was unplaced at {time} and is read-only. To work on the task again, "
        ++ s!"place it: place(task=\"{task}\", board=\"{d.tx.board.slug}\")")
      [("n", .num w.n), ("task_id", ofText d.it.taskId)])

/-- The status a write asks for. -/
def explicitStatus (w : Write) : Except Fault (Option Status) :=
  match w.fields.lookup "status" with
  | none => .ok none
  | some (.str s) =>
    match Status.ofName s with
    | some t => .ok (some t)
    | none => .error (invalid "invalid_status" s!"status must be one of {statusNames}"
        [("field", "status")])
  | some _ => .error (invalid "invalid_status" s!"status must be one of {statusNames}"
      [("field", "status")])

/-! ## Plain fields -/

/-- Set one field, where the write has it. -/
def withField (w : Write) (key : String) (f : Value → Draft → Except Fault Draft) (d : Draft) :
    Except Fault Draft :=
  match w.fields.lookup key with
  | some v => f v d
  | none => .ok d

/-- The task's fields recorded so far. -/
def BoardTx.taskWrite (tx : BoardTx) (n : Nat) : TaskWrite := tx.taskWrites[n]?.getD ⟨none, none⟩

/-- Record a new name of the item's task. -/
def BoardTx.writeTaskName (tx : BoardTx) (n : Nat) (name : String) : BoardTx :=
  { tx with taskWrites := tx.taskWrites.insert n { tx.taskWrite n with name := some name } }

/-- Record a new description of the item's task. -/
def BoardTx.writeTaskDescription (tx : BoardTx) (n : Nat) (description : Option String) :
    BoardTx :=
  { tx with taskWrites :=
      tx.taskWrites.insert n { tx.taskWrite n with description := some description } }

/-- A placed item's title is its task's: one copy. -/
def setTitle (w : Write) (v : Value) (d : Draft) : Except Fault Draft := do
  let title := (← text v maxTitle "title" true).getD ""
  let tx := if isSet d.it.taskId ∧ w.creating = false then d.tx.writeTaskName w.n title else d.tx
  return ⟨tx, { d.it with title := title }⟩

/-- `_notify_description`. -/
def notifyDescription (it : Item) (tx : BoardTx) : BoardTx :=
  let shown := firstChars 40 it.title
  tx.pushAll it.n (it.holders.filter fun h => h.pid ≠ tx.actor.pid) "description_changed"
    (s!"{tx.tag} the description of #{it.n} \"{it.title}\" was changed by {tx.actor.who} "
      ++ s!"(revision {it.descriptionRev}). Re-read it before you go on: "
      ++ s!"board(view=\"full\", query=\"{shown}\").")

def setDescription (w : Write) (v : Value) (d : Draft) : Except Fault Draft := do
  let description ← text v maxDescription "description" false
  if description = d.it.description then return d
  else
    let it := { d.it with
      description := description, descriptionRev := d.it.descriptionRev + 1 }
    let tx := if isSet it.taskId then d.tx.writeTaskDescription w.n description else d.tx
    return ⟨if w.creating then tx else notifyDescription it tx, it⟩

def setNote (v : Value) (d : Draft) : Except Fault Draft := do
  return { d with it := { d.it with note := ← text v maxNote "note" false } }

/-- `resolve_group`: by id, or by name (a unique match anywhere on the board, else the
top-level one), creating a top-level heading for a new name. -/
def resolveGroup (tx : BoardTx) (groupId name : Value) : Except Fault (BoardTx × Option Group) :=
  if truthy groupId then
    let id := str groupId
    match tx.groups.find? (·.id = id) with
    | some g => .ok (tx, some g)
    | none => .error (invalid "invalid_group" s!"no group {id} on board {tx.board.slug}"
        [("field", "group_id")])
  else do
    let name ← text name maxGroup "group" false
    match name with
    | none => return (tx, none)
    | some name =>
      let named := tx.groups.filter fun g => Runtime.lower g.name = Runtime.lower name
      match named, named.find? (·.parentId = none) with
      | [g], _ => return (tx, some g)
      | _, some g => return (tx, some g)
      | _ :: _, none =>
        let candidates := named.map fun g =>
          Value.obj [("id", .str g.id), ("parent_group_id", ofText g.parentId)]
        .error (invalid "ambiguous_group"
          (s!"{named.length} groups on board {tx.board.slug} are named "
            ++ Runtime.repr name ++ ": pass group_id")
          [("field", "group"), ("candidates", .arr candidates)])
      | [], none =>
        let g : Group := ⟨tx.uuid tx.groupsCreated.length, name, "heading", none, none⟩
        return ({ tx with groups := tx.groups ++ [g],
                          groupsCreated := tx.groupsCreated ++ [g.id] }, some g)

/-- The item joins an open group. -/
def setGroup (w : Write) (d : Draft) : Except Fault Draft :=
  if w.has "group" ∨ w.has "group_id" then do
    let (tx, g) ← resolveGroup d.tx (w.get "group_id") (w.get "group")
    match g with
    | some g =>
      let status := g.epicStatus.getD "None"
      refuse (some g.id ≠ d.it.groupId ∧ g.closed)
        (.refused 409 "epic_closed"
          ("epic " ++ Runtime.repr g.name ++ s!" is {status}; put #{w.n} in an open group")
          [("group_id", .str g.id)])
      return ⟨tx, { d.it with groupId := some g.id, group := some g.name }⟩
    | none => return ⟨tx, { d.it with groupId := none, group := none }⟩
  else .ok d

def setTeam (v : Value) (d : Draft) : Except Fault Draft := do
  return { d with it := { d.it with teamId := ← text v 64 "team_id" false } }

def setLinks (v : Value) (d : Draft) : Except Fault Draft := do
  return { d with it := { d.it with links := ← links v } }

def setBlockedOn (v : Value) (d : Draft) : Except Fault Draft := do
  return { d with it := { d.it with blockedOn := ← text v maxBlockedOn "blocked_on" false } }

/-- A time, or none for `None`. -/
def whenOf (v : Value) (now : Instant) (key : String) : Except Fault (Option Instant) :=
  if v = .null then .ok none else do return some (← parseWhen v now key)

/-- A strict board takes no check-back further out than its longest. -/
def setCheckBack (w : Write) (v : Value) (d : Draft) : Except Fault Draft := do
  let time ← whenOf v d.tx.now "check_back"
  let hours := checkBackMax d.tx.board / (3600 * 10 ^ 6)
  refuse (strict d.tx.board ∧ time.any fun t => d.tx.now + checkBackMax d.tx.board < t)
    (invalid "check_back_too_far"
      (s!"#{w.n}: board {d.tx.board.slug} takes a check_back at most {hours}h out, so it stays "
        ++ s!"a real next look: item_set({w.n}, check_back=\"24h\")")
      [("field", "check_back")])
  return { d with it := { d.it with checkBackAt := time } }

def setJob (v : Value) (d : Draft) : Except Fault Draft := do
  return { d with it := { d.it with job := ← text v maxJob "job" false } }

def setEta (v : Value) (d : Draft) : Except Fault Draft := do
  let time ← whenOf v d.tx.now "eta"
  return { d with it := { d.it with
    etaAt := time, waitingSetAt := if v = .null then none else some d.tx.now } }

/-- The plain fields, in the order they are checked. -/
def setFields (w : Write) (d : Draft) : Except Fault Draft := do
  let d ← withField w "title" (setTitle w) d
  let d ← withField w "description" (setDescription w) d
  let d ← withField w "note" setNote d
  let d ← setGroup w d
  let d ← withField w "team_id" setTeam d
  let d ← withField w "links" setLinks d
  let d ← withField w "blocked_on" setBlockedOn d
  let d ← withField w "check_back" (setCheckBack w) d
  let d ← withField w "job" setJob d
  withField w "eta" setEta d

/-! ## Holders -/

/-- Transferring ownership is one write: the named holder becomes owner, added if new, and
any other owner contributes. -/
def transferOwner (owner : Holder) (current new : List Holder) : List Holder :=
  let existing := (current.find? (·.pid = owner.pid)).getD owner
  let promoted := { existing with role := some .owner }
  let promoted := if owner.attribution.isSome then
    { promoted with attribution := owner.attribution } else promoted
  promoted :: (new.filter (·.pid ≠ owner.pid)).map fun h =>
    if h.owns || !h.settled then { h with role := some .contributor } else h

/-- A value that is there. -/
def present (v : Option Value) : Option Value :=
  match v with
  | some .null | none => none
  | some v => some v

/-- What a full replacement of the holders leaves out is kept from the old holder. -/
def keepEvidence (current : List Holder) (h : Holder) : Holder :=
  match current.find? (·.pid = h.pid) with
  | some old =>
    { h with
      memberId := h.memberId <|> present old.memberId
      viaMemberId := h.viaMemberId <|> present old.viaMemberId
      attribution := h.attribution <|> present old.attribution }
  | none => h

/-- The owner left and one holder remains: the successor is not in doubt. -/
def succeed (prevOwner : Option String) (holders : List Holder) : List Holder :=
  match holders with
  | [h] =>
    if isSet prevOwner ∧ h.owns = false ∧ h.settled = true then [{ h with role := some .owner }]
    else [h]
  | _ => holders

/-- The holders a write leaves on the item. -/
def newHolders (w : Write) (it : Item) : List Holder :=
  let wanted := dedupeHolders (w.holders.getD it.holders ++ w.add)
  let kept := wanted.filter fun h => h.pid ∉ w.remove
  let owned := match w.owner with
    | some owner => transferOwner owner it.holders kept
    | none => kept
  let roles := assignRoles (w.prevPids it) w.holders.isSome
    ((owned.map (keepEvidence it.holders)).any Holder.owns) (owned.map (keepEvidence it.holders))
  succeed (ownerOf it.holders) roles

/-- Did the holders or their roles change? -/
def holdersChange (w : Write) (it : Item) : Bool :=
  w.creating || (newHolders w it).map Holder.pid ≠ w.prevPids it
    || (newHolders w it).map Holder.role ≠ it.holders.map Holder.role

/-- Did the evidence of who they are change? -/
def evidenceChanges (w : Write) (it : Item) : Bool :=
  (newHolders w it).map (fun h => h.attribution.getD .null)
    ≠ it.holders.map fun h => h.attribution.getD .null

def setHolders (w : Write) (d : Draft) : Draft :=
  if holdersChange w d.it || evidenceChanges w d.it then
    ⟨d.tx.markHolders w.n, { d.it with holders := newHolders w d.it }⟩
  else d

/-! ## Blockers -/

/-- An item number of a request. -/
def itemNumber : Value → Option Nat
  | .num b => if 0 < b ∧ b ≤ maxN then some b.toNat else none
  | _ => none

/-- The item numbers of a request. -/
def itemNumbers (value : Value) : Except Fault (List Nat) :=
  let bad := invalidField "blocked_by must be a list of item numbers" "blocked_by"
  if truthy value = false then .ok []
  else
    match value with
    | .arr items => okOr (items.mapM itemNumber) bad
    | _ => .error bad

/-- A blocker is a real, open item of this board. -/
def checkBlocker (w : Write) (tx : BoardTx) (b : Nat) : Except Fault Unit := do
  refuse (b = w.n) (invalid "invalid_blocker" s!"#{w.n} cannot block itself" [("blocker", .num b)])
  let blocker ← okOr (tx.items[b]?.filter fun it => it.archivedAt = none)
    (invalid "invalid_blocker" s!"no open item #{b} on this board" [("blocker", .num b)])
  let status := blocker.status.name
  refuse (blocker.status.closed = true)
    (invalid "invalid_blocker" s!"#{b} is {status}" [("blocker", .num b)])

def setBlockers (w : Write) (d : Draft) : Except Fault Draft :=
  match w.fields.lookup "blocked_by" with
  | none => .ok d
  | some v => do
    let wanted ← itemNumbers v
    wanted.forM (checkBlocker w d.tx)
    let blockers : NatSet := Std.ExtTreeSet.ofList wanted compare
    if blockers = d.it.blockedBy then return d
    else return ⟨d.tx.markDeps w.n, { d.it with blockedBy := blockers }⟩

/-! ## Status -/

/-- `_launch_min`. -/
def launchMin (board : BoardRow) : Nat :=
  max 1 ((if board.launchS = 0 then 900 else board.launchS) / 60)

/-- The status an unstated one becomes through the holders, with a warning. -/
def statusOfHolders (w : Write) (tx : BoardTx) (it : Item) (held changed : Bool) :
    Status × List String :=
  let minutes := launchMin tx.board
  let kept := it.status.name
  if w.creating then (if held then .active else .open, [])
  else if changed = false ∨ it.status.closed then (it.status, [])
  else if held = false ∧ it.status = .active ∧ strict tx.board then
    (.active, [s!"#{w.n} has no holder now; it stays active and the orchestrator is "
      ++ s!"told if nobody takes it within {minutes} min (unlaunched)"])
  else if held = false ∧ it.status = .active then (.open, [])
  else if held = false then (it.status, [s!"#{w.n} has no holder now; it stays {kept}"])
  else if it.status = .open then (.active, [])
  else (it.status, [])

/-- The status an unstated one becomes through the blockers and the ETA. -/
def statusOfFields (w : Write) (tx : BoardTx) (it : Item) (held : Bool) (status : Status) :
    Status :=
  if status.closed then status
  else if w.has "blocked_by" ∧ it.blockedBy.isEmpty = false then .blocked
  else if w.has "blocked_on" ∧ isSet it.blockedOn ∧ status ≠ .blockedOnOwner then .blocked
  else if w.given "eta" then if strict tx.board then .active else .waiting
  else if w.has "blocked_by" ∧ it.blockedBy.isEmpty ∧ status = .blocked
      ∧ isSet it.blockedOn = false then
    if held || strict tx.board then .active else .open
  else status

/-- Owner's add to a strict board is work for the orchestrator to assign. -/
def ownerAdds (w : Write) (tx : BoardTx) (held : Bool) (status : Status) : Bool :=
  strict tx.board && w.creating && status = .open && !held && tx.actor.pid = ownerPid

/-- The status after the write, explicit or derived, with the warnings it gives. -/
def deriveStatus (w : Write) (tx : BoardTx) (it : Item) (explicit : Option Status)
    (held changed : Bool) : Status × List String :=
  let (status, warnings) := match explicit with
    | some status => (status, [])
    | none =>
      let (status, warnings) := statusOfHolders w tx it held changed
      (statusOfFields w tx it held status, warnings)
  let minutes := launchMin tx.board
  if ownerAdds w tx held status then
    (.active, warnings ++ [s!"#{w.n} has no holder; the orchestrator is told if nobody takes it "
      ++ s!"within {minutes} min (unlaunched)"])
  else (status, warnings)

/-! ## Refused by the status -/

/-- `_check_strict`: new work that does not fit a strict board. -/
def checkStrict (w : Write) (tx : BoardTx) (it : Item) (explicit : Option Status)
    (prev : Option Status) (held : Bool) (status : Status) : Except Fault Unit := do
  let slug := tx.board.slug
  let entering := w.creating ∨ some status ≠ prev
  refuse (status = .waiting ∧ (entering ∨ explicit = some .waiting))
    (invalid "waiting_not_allowed"
      (s!"board {slug} holds only running or blocked work. A job in flight: "
        ++ s!"item_set({w.n}, \"active\", eta=\"40m\", job=\"...\"). Waiting on "
        ++ s!"something: item_set({w.n}, blocked_by=[m]), or "
        ++ s!"item_set({w.n}, blocked_on=\"...\", check_back=\"4h\")") [("field", "status")])
  -- Owner's own add may be unheld: the orchestrator assigns it.
  let unheld := status = .open
    ∨ (w.creating ∧ status = .active ∧ held = false ∧ tx.actor.pid ≠ ownerPid)
  let shown := if w.creating then "it" else s!"{w.n}"
  refuse (unheld ∧ (entering ∨ explicit = some .open))
    (invalid "holder_required"
      (s!"board {slug} keeps no backlog: give #{shown} a holder (holder=...), launch it with "
        ++ "item_resolve(n, \"launch\"), or file future work as a planning task (propose_task)")
      [("field", "holders")])
  let touches := w.has "blocked_by" ∨ w.has "blocked_on" ∨ w.has "check_back"
  let entersBlock := status = .blocked ∧ (entering ∨ touches) ∧ it.blockedBy.isEmpty
  refuse (entersBlock ∧ isSet it.blockedOn = false)
    (invalid "trigger_required"
      (s!"on board {slug} a blocked item names its trigger: item_set({w.n}, blocked_by=[m]) "
        ++ s!"for an item, or item_set({w.n}, blocked_on=\"...\", check_back=\"4h\")")
      [("field", "blocked_by")])
  let trigger := it.blockedOn.getD ""
  refuse (entersBlock ∧ it.checkBackAt = none)
    (invalid "check_back_required"
      (s!"on board {slug} blocking on free text needs a check-back: "
        ++ s!"item_set({w.n}, blocked_on=\"{trigger}\", check_back=\"4h\")")
      [("field", "check_back")])

/-- A done item reopens only on purpose. Owner's writes need no flag. -/
def checkReopen (w : Write) (tx : BoardTx) (it : Item) (prev : Option Status) (status : Status) :
    Except Fault Unit :=
  let who := orElse it.closedBy "unknown"
  let time := (it.closedAt.map Runtime.isoformat).getD "an unknown time"
  let wouldBe := status.name
  refuse (prev = some .done ∧ status ≠ .done ∧ w.reopen = false ∧ tx.actor.pid ≠ ownerPid)
    (.refused 409 "reopen_required"
      (s!"#{w.n} is done (closed by {who} at {time}); this write would make it {wouldBe}. If that "
        ++ "is a stale read, re-read the board. To reopen it on purpose: "
        ++ s!"item_set({w.n}, \"{wouldBe}\", ..., reopen=True)")
      [("n", .num w.n), ("current_status", "done"), ("closed_by", ofText it.closedBy),
        ("closed_at", iso it.closedAt), ("would_be", .str wouldBe)])

/-- Who may mark an item blocked on Owner, and who clears it. -/
def checkOwnerBlocked (w : Write) (tx : BoardTx) (it : Item) (prev : Option Status)
    (prevPids : List String) (status : Status) : Except Fault Unit := do
  let isOwner := tx.actor.pid = ownerPid
  let enters := status = .blockedOnOwner ∧ prev ≠ some .blockedOnOwner ∧ ¬ isOwner
  refuse (enters ∧ tx.actor.pid ∉ prevPids ∧ tx.actor.pid ∉ it.holders.map Holder.pid)
    (.refused 403 "owner_only"
      "only Owner or the item's holder can mark it blocked on Owner" [])
  refuse (enters ∧ isSet it.blockedOn = false)
    (invalid "decision_required"
      ("name the decision Owner must make in blocked_on "
        ++ "(e.g. blocked_on=\"approve 8xH100 for SEJD?\")") [("field", "blocked_on")])
  refuse (prev = some .blockedOnOwner ∧ status ≠ .blockedOnOwner
      ∧ ¬ (isOwner ∨ w.answered = true))
    (.refused 403 "owner_only"
      (s!"#{w.n} is blocked on Owner: only Owner clears it, or record Owner's "
        ++ s!"answer with item_resolve({w.n}, \"answer\", message=...)") [])

/-! ## What the status carries -/

/-- An item that is not blocked has no blockers, and a decision only where it is blocked on
Owner. -/
def Item.clearBlock (it : Item) (status : Status) : Item :=
  { it with
    blockedBy := ∅
    blockedOn := if status = .blockedOnOwner then it.blockedOn else none
    checkBackAt := none }

def Item.clearEta (it : Item) : Item := { it with etaAt := none, waitingSetAt := none }

def Item.clearJob (it : Item) : Item := { it with job := none }

/-- Only a blocked item carries blockers. `blocked_on` also names the decision of an item
blocked on Owner. -/
def settleBlocked (w : Write) (status : Status) (d : Draft) : Except Fault Draft :=
  if status ≠ .blocked then do
    refuse (w.has "blocked_by" ∧ d.it.blockedBy.isEmpty = false)
      (invalidField "blocked_by requires status blocked" "blocked_by")
    refuse (w.has "blocked_on" ∧ isSet d.it.blockedOn ∧ status ≠ .blockedOnOwner)
      (invalidField "blocked_on requires status blocked" "blocked_on")
    let tx := if d.it.blockedBy.isEmpty then d.tx else d.tx.markDeps w.n
    return ⟨tx, d.it.clearBlock status⟩
  else if d.it.blockedBy.isEmpty ∧ isSet d.it.blockedOn = false then
    let warning := s!"#{w.n} is blocked with neither blocked_by nor blocked_on; it is not exempt "
      ++ "from idle/stale flags"
    .ok { d with tx := d.tx.warn warning }
  else .ok d

/-- Waiting needs an ETA, and an active item may carry one. Leaving both clears it. -/
def settleEta (w : Write) (prev : Option Status) (status : Status) (d : Draft) :
    Except Fault Draft :=
  let given := w.given "eta"
  if status = .waiting then do
    refuse (given = false ∧ (prev ≠ some .waiting ∨ d.it.etaAt = none))
      (invalid "eta_required" "waiting requires eta (e.g. 40m, 2h, or a time)"
        [("field", "eta")])
    return d
  else if status = .active ∧ d.it.etaAt ≠ none ∧ (given ∨ prev = some .active) then .ok d
  else if d.it.etaAt ≠ none ∨ d.it.waitingSetAt ≠ none then do
    refuse (given = true) (invalidField "eta requires status waiting or active" "eta")
    return { d with it := d.it.clearEta }
  else .ok d

/-- A job in flight rides on an active item. On a strict board it needs an ETA. -/
def settleJob (w : Write) (status : Status) (d : Draft) : Except Fault Draft :=
  if status ≠ .active then do
    refuse (w.given "job" = true)
      (invalidField (s!"job requires status active: item_set({w.n}, \"active\", eta=\"40m\", "
        ++ "job=\"...\")") "job")
    return { d with it := d.it.clearJob }
  else do
    let job := d.it.job.getD ""
    refuse (strict d.tx.board ∧ isSet d.it.job ∧ d.it.etaAt = none)
      (invalid "eta_required"
        (s!"#{w.n}: a job needs an eta on board {d.tx.board.slug}: "
          ++ s!"item_set({w.n}, \"active\", eta=\"40m\", job=\"{job}\")") [("field", "eta")])
    return d

/-- The unlaunched clock, and the actor's own write as a holder. -/
def startClocks (w : Write) (prev : Option Status) (changed : Bool) (status : Status)
    (d : Draft) : Draft :=
  let actionable := status = .active ∧ (w.creating ∨ prev ≠ some .active ∨ changed)
  let launches := d.tx.actor.pid ∈ d.it.holders.map Holder.pid
  { d with it := { d.it with
    actionableAt := if actionable then some d.tx.now else d.it.actionableAt
    launchedAt := if launches then some d.tx.now else d.it.launchedAt } }

/-- `_check_owner`: one owner while active, waiting or blocked and held. -/
def checkOwner (n : Nat) (status : Status) (holders : List Holder) : Except Fault Unit := do
  let owners := holders.filter Holder.owns
  let applies := status.owned = true ∧ holders ≠ [] ∧ holders.all Holder.settled = true
  let name := status.name
  refuse (applies ∧ owners = [])
    (invalid "owner_required"
      (s!"#{n} needs an owner while it is {name}: name one with item_set({n}, owner=...), or "
        ++ "hand it back (holder=\"none\")") [("field", "owner")])
  refuse (applies ∧ 1 < owners.length)
    (invalid "one_owner"
      s!"#{n} can have one owner; transfer it with item_set({n}, owner=...)"
      [("field", "owner"), ("owners", .arr (owners.map fun h => .str h.pid))])

/-! ## Cycles -/

/-- The first way among the next items, each searched with what the one before has seen. -/
def pathOver (search : Nat → NatSet → Except Fault (Option (List Nat) × NatSet)) (frm : Nat) :
    List Nat → NatSet → Except Fault (Option (List Nat) × NatSet)
  | [], seen => .ok (none, seen)
  | next :: rest, seen => do
    let (found, seen) ← search next seen
    match found with
    | some way => return (some (frm :: way), seen)
    | none => pathOver search frm rest seen

/-- `_path`: a way from `frm` to `target` along the blockers, with the items seen. -/
def path (items : Items) (target : Nat) : Nat → Nat → NatSet →
    Except Fault (Option (List Nat) × NatSet)
  | 0, _, _ => .error .recursion
  | depth + 1, frm, seen =>
    if frm = target then .ok (some [frm], seen)
    else if frm ∈ seen then .ok (none, seen)
    else
      match items[frm]? with
      | none => .ok (none, seen.insert frm)
      | some node => pathOver (path items target depth) frm node.blockedBy.toList (seen.insert frm)

/-- Refuse when a blocker of `n` waits, through others, on `n`. -/
def checkCycles (tx : BoardTx) (n : Nat) (starts : List Nat) : Except Fault Unit :=
  starts.forM fun start => do
    let (found, _) ← path tx.items n Runtime.recursionLimit start {n}
    match found with
    | some way =>
      let shown := "→".intercalate ((n :: way).map toString)
      .error (.refused 409 "cycle" s!"cycle: {shown}"
        [("cycle", .arr ((n :: way).map fun m => .num m))])
    | none => return ()

end

end Board
