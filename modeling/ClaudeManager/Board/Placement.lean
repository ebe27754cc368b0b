import Mathlib
import ClaudeManager.Board.States

/-!
# Placed tasks and their launch grants

A planning task is placed on a board by an item linked to it. While the link is live the
owner-role holder of the item may launch sessions for the task:

* `LaunchGrant` — one grant, live until it is revoked
* `BoardTx.moveLaunchGrants` — grants follow the owner changes a transaction recorded
* `Org.write`, `Org.place`, `Org.unplace`, `Org.archiveLink` — the calls on placed tasks

An item is known by its board and number. A task is passed as the row its lock read.
-/

namespace Board

open Json Python Containers Program

/-! ## Records -/

structure Revocation where
  revokedAt : Instant
  revokedBy : String
  reason : String

/-- A row of `launch_grants`. -/
structure LaunchGrant where
  taskId : String
  pid : String
  daemonId : Value
  sessionUid : Value
  board : String
  n : Nat
  grantedBy : String
  grantedAt : Instant
  revoked : Option Revocation

def LaunchGrant.live (g : LaunchGrant) : Bool := g.revoked.isNone

/-- Every board, and every grant ever made. -/
structure Org where
  boards : Map BoardState
  grants : List LaunchGrant

/-- What a call finds around it: the time, the ids of new groups, the sessions that are shells,
the orchestrator the session states name, and the order of texts in the database. -/
structure Around where
  now : Instant
  uuid : Nat → String
  shells : List String
  orchestratorPid : Option String
  collate : String → String → Bool

/-- A planning task: what placing reads of its row. -/
structure PlanTask where
  id : String
  status : String
  kind : Option String
  isCloud : Bool
  project : Option String
  name : Option String
  description : Option String
  descriptionRev : Nat

/-- A team with its lead's main session, as the holder placing makes of it. -/
structure Team where
  id : String
  name : String
  lead : Value

/-- The arguments of `place_task`. A team is there as it was looked up, or as the refusal. -/
structure Placing where
  group : Option String
  groupId : Option String
  holder : Option Value
  role : Option String
  replace : Bool
  team : Option (Except Fault Team)

/-! ## Grants -/

/-- Revoke the live grants of some kind. -/
def revokeGrants (chosen : LaunchGrant → Bool) (r : Revocation) (grants : List LaunchGrant) :
    List LaunchGrant :=
  grants.map fun g => if g.live && chosen g then { g with revoked := some r } else g

/-- A task has at most one live grant of a session. -/
def insertGrant (grant : LaunchGrant) (grants : List LaunchGrant) : List LaunchGrant :=
  if grants.any fun g => g.live && g.taskId = grant.taskId && g.pid = grant.pid then grants
  else grants ++ [grant]

/-- `revoke_task_grants`. -/
def revokeTaskGrants (task : String) (actor : Actor) (now : Instant) (reason : String)
    (grants : List LaunchGrant) : List LaunchGrant :=
  revokeGrants (fun g => g.taskId = task) ⟨now, actor.pid, reason⟩ grants

namespace BoardTx

/-- `_may_grant`: Owner, the previous owner, and the board's steward and orchestrator. -/
def mayGrant (tx : BoardTx) (orchestrator old : Option String) : Bool :=
  tx.actor.pid = ownerPid || (isSet old && old = some tx.actor.pid)
    || tx.board.stewardPid = some tx.actor.pid || tx.board.orchestratorPid = some tx.actor.pid
    || orchestrator = some tx.actor.pid

/-- Why the old owner's grant goes. -/
def revocation (tx : BoardTx) (it : Item) (new : Option Holder) : Revocation :=
  ⟨tx.now, tx.actor.pid, if it.status.closed then "item closed"
    else if new.isNone then "handed back" else "owner changed"⟩

/-- The grant of an item's new owner. -/
def grantOf (tx : BoardTx) (n : Nat) (task : String) (new : Holder) : LaunchGrant :=
  ⟨task, new.pid, new.daemonId, new.sessionUid, tx.board.id, n, tx.actor.pid, tx.now, none⟩

/-- One recorded change of owner, on the grants of the item's task. -/
def moveGrant (tx : BoardTx) (orchestrator : Option String) (grants : List LaunchGrant)
    (change : Nat × Option String × Option Holder) : List LaunchGrant :=
  let (n, old, new) := change
  match tx.items[n]? with
  | none => grants
  | some it =>
    match it.taskId with
    | none => grants
    | some task =>
      let grants := if isSet old then
        revokeGrants (fun g => g.taskId = task && old = some g.pid) (tx.revocation it new) grants
      else grants
      match new with
      | some new =>
        if it.linkArchivedAt = none ∧ it.status.closed = false
            ∧ tx.mayGrant orchestrator old = true then
          insertGrant (tx.grantOf n task new) grants
        else grants
      | none => grants

/-- `_move_launch_grants`. -/
def moveLaunchGrants (tx : BoardTx) (orchestrator : Option String) (grants : List LaunchGrant) :
    List LaunchGrant :=
  tx.ownerChanges.foldl (tx.moveGrant orchestrator) grants

/-! ## What the database keeps -/

end BoardTx

/-- A holder as its row gives it back. -/
def Holder.stored (now : Instant) (h : Holder) : Holder :=
  { h with
    addedAt := some (h.addedAt.getD now)
    attribution := present h.attribution
    memberId := present h.memberId
    viaMemberId := present h.viaMemberId }

/-- `ORDER BY added_at, pid`. -/
def holderLe (collate : String → String → Bool) (h h' : Holder) : Bool :=
  match h.addedAt, h'.addedAt with
  | some t, some t' => t < t' || (t = t' && collate h.pid h'.pid)
  | _, _ => true

/-- The holders of an item once they were written, as the next load finds them. -/
def Item.reloaded (around : Around) (it : Item) : Item :=
  let stored := it.holders.map (Holder.stored around.now)
  { it with holders := stored.mergeSort (holderLe around.collate) }

/-- The holders a transaction writes. -/
def BoardTx.writtenHolders (tx : BoardTx) : List Holder :=
  tx.holdersChanged.toList.flatMap fun n => (tx.items[n]?.map Item.holders).getD []

/-- `_apply`, up to the grants: no shell holds work, and holders come back in the order they
joined. -/
def BoardTx.store (around : Around) (tx : BoardTx) : Except Fault BoardState := do
  refuse (tx.writtenHolders.any fun h => around.shells.contains h.pid)
    (invalid "agent_only" "bash is a shell and cannot hold work items" [])
  return ⟨tx.board, tx.items.map fun n it =>
    if n ∈ tx.holdersChanged then it.reloaded around else it, tx.groups⟩

/-! ## Links -/

/-- Is the item the live link of the task? -/
def Item.linksTo (task : String) (it : Item) : Bool :=
  it.taskId = some task && it.linkArchivedAt.isNone

/-- `_live_link`. -/
def Org.liveLink (o : Org) (task : String) : Option (String × Nat × Item) :=
  o.boards.toList.findSome? fun b =>
    (b.2.items.toList.find? fun e => e.2.linksTo task).map fun e => (b.1, e.1, e.2)

/-- The item of the task whose link was archived last. -/
def lastLink (items : Items) (task : String) : Option Nat :=
  ((items.toList.filter fun e => e.2.taskId = some task).foldl (fun (best : Option (Nat × Item)) e =>
    match best with
    | none => some e
    | some b => if (b.2.linkArchivedAt.getD 0) < (e.2.linkArchivedAt.getD 0) then some e else some b)
    none).map Prod.fst

def Org.board (o : Org) (ref : String) : Except Fault BoardState :=
  okOr o.boards[ref]? (.refused 404 "not_found" s!"no board {ref}" [])

section

variable [Runtime]

/-- A transaction of one board, run and stored. Grants follow its owner changes. -/
def Org.transact (o : Org) (around : Around) (ref : String) (actor : Actor)
    (body : BoardTx → Except Fault BoardTx) : Except Fault Org := do
  let s ← o.board ref
  let tx ← BoardTx.start s.board s.items actor around.now s.groups around.uuid
  let tx ← body tx
  let s ← tx.store around
  return ⟨o.boards.insert ref s, tx.moveLaunchGrants around.orchestratorPid o.grants⟩

/-- An item write, with the task side in the same transaction. -/
def Org.write (o : Org) (around : Around) (ref : String) (actor : Actor) (request : Request) :
    Except Fault Org :=
  o.transact around ref actor fun tx => tx.run request

/-! ## Unplacing -/

/-- The link is archived: the item stays, read-only. -/
def Item.unlinked (now : Instant) (it : Item) : Item :=
  { it with linkArchivedAt := some now, archivedAt := some now }

/-- The items that wait for `n`. -/
def openDependents (items : Items) (n : Nat) : List Nat :=
  (items.toList.filter fun e => n ∈ e.2.blockedBy && !e.2.status.closed).map Prod.fst

def shownItems (ns : List Nat) : String :=
  if ns = [] then "none" else
    let inner := commas (ns.map toString)
    s!"[{inner}]"

/-- The history entry of a link that is archived. -/
def BoardTx.recordUnplaced (tx : BoardTx) (n : Nat) (task : String) (status : Status)
    (reason : Option String) : BoardTx :=
  (tx.markDirty n).event n "unplaced"
    (.obj [("status", .str status.name), ("task_id", .str task)])
    (.obj [("link_archived_at", iso (some tx.now))]) reason

/-- `_unplace_locked`, of an item that is the task's live link. -/
def Org.unplaceLocked (o : Org) (around : Around) (ref : String) (actor : Actor) (task : String)
    (n : Nat) (it : Item) (reason : Option String) : Except Fault Org := do
  let s ← o.board ref
  let blockedBy := it.blockedBy.toList
  let blocks := openDependents s.items n
  let shownBy := shownItems blockedBy
  let shownBlocks := shownItems blocks
  refuse ((blockedBy ≠ [] ∧ it.status.closed = false) ∨ blocks ≠ [])
    (.refused 409 "has_dependencies"
      (s!"#{n} has live blocked_by edges (blocked by {shownBy}, blocks {shownBlocks}): "
        ++ "clear or re-point them first; a blocker never silently becomes a link")
      [("blocked_by", .arr (blockedBy.map fun b => .num b)),
        ("blocks", .arr (blocks.map fun b => .num b))])
  let tx ← BoardTx.start s.board s.items actor around.now s.groups around.uuid
  let tx := (tx.modifyItem n (Item.unlinked around.now)).recordUnplaced n task it.status reason
  let tx := tx.resolveFlags n (tx.openKinds n) "unplaced"
  let s ← tx.store around
  return ⟨o.boards.insert ref s, revokeTaskGrants task actor around.now "unplaced" o.grants⟩

/-- `unplace_task`. -/
def Org.unplace (o : Org) (around : Around) (actor : Actor) (task : String)
    (reason : Option String) : Except Fault Org := do
  let short := firstChars 8 task
  let (ref, n, it) ← okOr (o.liveLink task)
    (.refused 409 "not_placed" s!"task {short} is not on a board" [])
  o.unplaceLocked around ref actor task n it reason

/-- `archive_link`: a closed item's link is archived along with its task. -/
def Org.archiveLink (o : Org) (around : Around) (actor : Actor) (task : String) :
    Except Fault Org :=
  match o.liveLink task with
  | none => .ok o
  | some (ref, n, it) => do
    let s ← o.board ref
    let status := it.status.name
    refuse (it.status.closed = false)
      (.refused 409 "placed_on_board" s!"#{n} is still {status}" [])
    let tx ← BoardTx.start s.board s.items actor around.now s.groups around.uuid
    let tx := tx.modifyItem n fun it => { it with
      linkArchivedAt := some around.now
      archivedAt := it.archivedAt <|> some around.now }
    let tx := tx.recordUnplaced n task it.status (some "task archived")
    let s ← tx.store around
    return ⟨o.boards.insert ref s, revokeTaskGrants task actor around.now "task archived" o.grants⟩

/-! ## Placing -/

/-- `_refuse_unplaceable`. -/
def refuseUnplaceable (task : PlanTask) : Except Fault Unit := do
  let kind := orElse task.kind "oneshot"
  refuse (kind = "backtest")
    (.refused 409 "not_placeable"
      ("backtests are never placed on boards; their status, VM teardown and "
        ++ "archive lifecycle stay as they are (doc/org-model.md §9.4)")
      [("reason", "backtest")])
  refuse (kind = "continuous")
    (.refused 409 "not_placeable"
      ("a continuous task is a standing member, not a work item: its scheduler "
        ++ "owns its status") [("reason", "continuous")])
  refuse (task.isCloud = true ∧ task.project = none)
    (.refused 409 "not_placeable"
      ("this task is auto-dispatchable (is_cloud with no project): the dispatch "
        ++ "daemon would claim it from under the board") [("reason", "auto_dispatch")])

/-- The task may be placed: it is open, and says what the work is. -/
def checkPlaceable (task : PlanTask) : Except Fault Unit := do
  refuseUnplaceable task
  let short := firstChars 8 task.id
  refuse (task.status = "done" ∨ task.status = "archived")
    (.refused 409 "task_closed"
      s!"task {short} is {task.status}; reopen it in planning before placing it" [])
  refuse (strip (task.description.getD "") = "")
    (invalid "description_required"
      ("placing needs a description: it is the work contract the holder "
        ++ "receives (scope, acceptance criteria, constraints)") [("field", "description")])

/-- A holder, as a request would send it. -/
def Holder.value (h : Holder) : Value :=
  object (([("pid", .str h.pid), ("name", h.name), ("session_uid", h.sessionUid),
    ("daemon_id", h.daemonId)] ++ (h.role.map fun r => ("role", .str r.name)).toList)
    ++ (h.attribution.map fun v => ("attribution", v)).toList)

/-- The holder a placed item gets: the one the call names, or the team's lead as owner. -/
def Placing.holders (args : Placing) (team : Option Team) : Except Fault (List Holder) :=
  let named := match team with
    | some team => some (team.lead, some "owner")
    | none => args.holder.map fun h => (h, args.role)
  match named with
  | some (h, role) =>
    if truthy h then do
      return [← Board.holder (h.set "role" (if isSet role then ofText role else h.idx "role"))]
    else .ok []
  | none => .ok []

/-- Where the item goes: its group and its team. -/
def Placing.spec (args : Placing) (team : Option Team) : Fields :=
  (if isSet args.groupId then [("group_id", ofText args.groupId)]
    else if isSet args.group then [("group", ofText args.group)] else [])
    ++ (team.map fun t => ("team_id", .str t.id)).toList

namespace BoardTx

/-- The lead hears why the item is its own. -/
def noteTeam (tx : BoardTx) (team : Option Team) (holders : List Holder) : BoardTx :=
  match team, holders with
  | some team, [h] =>
    let note := s!"It is for team {team.name}, which you lead: hand it to a member "
      ++ "(item_set with holder=...) or keep it."
    { tx with assignNotes := tx.assignNotes.insert h.pid note }
  | _, _ => tx

/-- Re-placing on the same board: the item keeps its number, history and flags. -/
def relink (tx : BoardTx) (n : Nat) (spec : Fields) (holders : List Holder) :
    Except Fault BoardTx :=
  let tx := tx.modifyItem n fun it => { it with
    linkArchivedAt := none
    archivedAt := none
    closedAt := if it.status.closed then none else it.closedAt }
  let status := if holders ≠ [] ∨ strict tx.board then Status.active else .open
  tx.apply ⟨n, ("status", .str status.name) :: spec, some holders, [], [], some "re-placed", false,
    false, true, none⟩

/-- A new item for the task. -/
def link (tx : BoardTx) (task : PlanTask) (spec : Fields) (holders : List Holder) :
    Except Fault BoardTx := do
  let n := tx.board.nextNumber
  let tx ← tx.create [("title", .str (orElse task.name (firstChars 8 task.id)))
    :: ("holders", .arr (holders.map Holder.value)) :: spec]
  let tx := tx.modifyItem n fun it => { it with taskId := some task.id }
  return tx.event n "placed" .null (.obj [("task_id", .str task.id)]) none

/-- The item shows its task's description. -/
def showTask (tx : BoardTx) (n : Nat) (task : PlanTask) : BoardTx :=
  tx.modifyItem n fun it => { it with
    taskId := some task.id
    description := task.description
    descriptionRev := task.descriptionRev }

/-- A placed item's owner may launch, also where the write saw no new owner. -/
def recordPlacedOwner (tx : BoardTx) (n : Nat) : BoardTx :=
  match (tx.items[n]?.map Item.holders).bind (List.find? Holder.owns) with
  | some owner =>
    if tx.ownerChanges.any fun c => c.1 = n then tx
    else { tx with ownerChanges := tx.ownerChanges ++ [(n, none, some owner)] }
  | none => tx

/-- The item of the task, new or reactivated. -/
def placeItem (tx : BoardTx) (task : PlanTask) (args : Placing) (team : Option Team) :
    Except Fault BoardTx := do
  let holders ← args.holders team
  let tx := tx.noteTeam team holders
  let last := lastLink tx.items task.id
  let n := last.getD tx.board.nextNumber
  let tx ← match last with
    | some n => tx.relink n (args.spec team) holders
    | none => tx.link task (args.spec team) holders
  return (tx.showTask n task).recordPlacedOwner n

end BoardTx

/-- `place_task`. -/
def Org.place (o : Org) (around : Around) (ref : String) (actor : Actor) (task : PlanTask)
    (args : Placing) : Except Fault Org := do
  refuse (args.team.isSome = true ∧ args.holder.isSome = true)
    (invalid "holder_or_team"
      ("pass a holder or a team, not both: a team's work goes to its lead, "
        ++ "who hands it out") [("field", "team")])
  let _ ← o.board ref
  checkPlaceable task
  let team ← args.team.mapM id
  let short := firstChars 8 task.id
  match o.liveLink task.id with
  | none => o.transact around ref actor fun tx => tx.placeItem task args team
  | some (other, n, it) =>
    if other = ref then return o
    else
      let slug := ((o.boards[other]?).map fun s => s.board.slug).getD ""
      refuse (args.replace = false)
        (.refused 409 "placed_elsewhere"
          (s!"task {short} is placed on board {slug} as #{n}; unplace it first, or pass "
            ++ "replace=true to move it here in one step")
          [("board", .str slug), ("n", .num n)])
      let here := ((o.boards[ref]?).map fun s => s.board.slug).getD ""
      let o ← o.unplaceLocked around other actor task.id n it
        (some s!"re-placed on board {here}")
      o.transact around ref actor fun tx => tx.placeItem task args team

/-! ## Calls -/

/-- A call on placed tasks or their items. -/
inductive Action where
  | write (ref : String) (request : Request)
  | place (ref : String) (task : PlanTask) (args : Placing)
  | unplace (task : String) (reason : Option String)
  | archiveLink (task : String)

/-- Who calls, and what the call finds around it. -/
structure OrgCall where
  actor : Actor
  around : Around
  action : Action

def Org.run (o : Org) (c : OrgCall) : Except Fault Org :=
  match c.action with
  | .write ref request => o.write c.around ref c.actor request
  | .place ref task args => o.place c.around ref c.actor task args
  | .unplace task reason => o.unplace c.around c.actor task reason
  | .archiveLink task => o.archiveLink c.around c.actor task

/-- A call that is refused changes nothing. -/
def Org.step (o : Org) (c : OrgCall) : Org :=
  match o.run c with
  | .ok o' => o'
  | .error _ => o

end

end Board
