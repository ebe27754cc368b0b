import Mathlib
import ClaudeManager.Program.Graphs

/-!
# The tables of the organization

* `Store` — members, their names and seats, teams, and what daemons report of sessions
* `Store.checkManager` — the trigger on a member's manager
* `Store.chain` — the managers of a member, as they are read hop by hop
* `Store.requireChain`, `Store.requireDestination` — who may act on a member, and place one

Texts of refusals are left out; their status and code are kept.
-/

namespace Org

abbrev MemberId := String
abbrev TeamId := String
abbrev TaskId := String
abbrev Pid := String

def ownerId : MemberId := "mem_owner"
def ownerPid : Pid := "owner"

/-- A refused write. -/
structure Refusal where
  status : Nat
  code : String
  deriving DecidableEq

/-! ## Rows -/

inductive MemberKind where
  | agent
  | continuous
  | owner
  deriving DecidableEq

inductive MemberStatus where
  | active
  | vacant
  | suspended
  | retired
  deriving DecidableEq

structure Member where
  id : MemberId
  handle : String
  kind : MemberKind
  status : MemberStatus
  /-- Missing for Owner only. -/
  manager : Option MemberId
  primaryTeam : Option TeamId
  /-- Bumps on each replacement. -/
  generation : Nat
  title : String
  mandate : String
  deriving DecidableEq

inductive SeatRole where
  | main
  | assistant
  | standby
  deriving DecidableEq

/-- Occupancy: one row per member, session and role. -/
structure Incarnation where
  member : MemberId
  role : SeatRole
  generation : Nat
  pid : Pid
  open_ : Bool
  deriving DecidableEq

inductive TeamKind where
  | team
  | initiative
  | division
  deriving DecidableEq

inductive TeamStatus where
  | active
  | standby
  | archived
  deriving DecidableEq

structure Team where
  id : TeamId
  slug : String
  kind : TeamKind
  lead : Option MemberId
  parent : Option TeamId
  coordinator : Option TaskId
  status : TeamStatus
  deriving DecidableEq

inductive TeamRole where
  | primary
  | guest
  | deputy
  deriving DecidableEq

structure Membership where
  team : TeamId
  member : MemberId
  role : TeamRole
  open_ : Bool
  deriving DecidableEq

inductive ActingAs where
  | main
  | assistant
  | worker
  | closed
  | promoted
  deriving DecidableEq

/-- What a daemon reports of a session. -/
structure Fact where
  pid : Pid
  daemon : String
  workspace : Option String
  worktree : Option String
  continuousTask : Option String
  managedBy : Option String
  workflowRun : Option String
  member : Option MemberId
  actingAs : Option ActingAs
  autoPlace : Bool
  deriving DecidableEq

/-- A row of `session_states`. -/
structure Session where
  pid : Pid
  daemon : String
  uid : String
  name : Option String
  engine : Option String
  live : Bool
  deriving DecidableEq

structure Home where
  daemon : String
  workspace : String
  path : Option String
  deriving DecidableEq

/-- A mark on a workspace; a `stream` mark may have no member. -/
structure Mark where
  daemon : String
  workspace : String
  path : Option String
  home : Bool
  member : Option MemberId
  deriving DecidableEq

/-- What the event of a retirement remembers. -/
structure Retirement where
  member : MemberId
  status : MemberStatus
  leadOf : List TeamId
  deriving DecidableEq

/-- A session that holds an item of a board. -/
structure Hold where
  pid : Pid
  board : String
  item : Nat
  role : Option String
  /-- The item is neither closed nor archived. -/
  open_ : Bool
  deriving DecidableEq

structure Store where
  members : List Member
  /-- Every handle a member has ever had, and permanent aliases. -/
  aliases : List (String × MemberId)
  incarnations : List Incarnation
  teams : List Team
  memberships : List Membership
  /-- Members of continuous tasks, by daemon and record. -/
  continuous : List ((String × String) × MemberId)
  tasks : List (TaskId × Option TeamId)
  sessions : List Session
  facts : List Fact
  marks : List Mark
  holds : List Hold
  /-- The last one first. -/
  retirements : List Retirement
  deriving DecidableEq

abbrev Write := Except Refusal Store

def refuse (bad : Prop) [Decidable bad] (status : Nat) (code : String) : Except Refusal Unit :=
  if bad then .error ⟨status, code⟩ else .ok ()

namespace Store

variable (s : Store)

/-! ## Reading -/

def member (id : MemberId) : Option Member := s.members.find? fun m => m.id = id

def team (id : TeamId) : Option Team := s.teams.find? fun t => t.id = id

def manager (id : MemberId) : Option MemberId := (s.member id).bind Member.manager

def session (pid : Pid) : Option Session := s.sessions.find? fun x => x.pid = pid && x.live

def fact (pid : Pid) : Option Fact := s.facts.find? fun f => f.pid = pid

/-- The session is an open incarnation. -/
def seated (pid : Pid) : Bool := s.incarnations.any fun i => i.pid = pid && i.open_

/-- The open main incarnation of a member. -/
def main (id : MemberId) : Option Incarnation :=
  s.incarnations.find? fun i => i.member = id && i.role = .main && i.open_

def aliasOf (name : String) : Option MemberId :=
  (s.aliases.find? fun a => a.1 = name).map Prod.snd

/-- `_resolve_member_id`, of a text in lower case, without blanks around and `@` before it. -/
def resolve (text : String) : Option MemberId :=
  if text = "" then none
  else if text = ownerPid then some ownerId
  else if text.startsWith "mem_" then (s.member text).map Member.id
  else
    match (text.splitOn "/").reverse with
    | [] => none
    | [handle] => s.aliasOf handle
    | handle :: org => if org = ["main"] ∨ org = [""] then s.aliasOf handle else none

/-- `_chain`: at most 64 hops, and none to a member seen before. -/
def chainFrom : Nat → List MemberId → MemberId → List MemberId
  | 0, _, _ => []
  | n + 1, seen, cur =>
    match s.manager cur with
    | none => []
    | some up =>
      if up ∈ seen then []
      else match s.member up with
        | none => []
        | some _ => up :: chainFrom n (up :: seen) up

def chain (id : MemberId) : List MemberId := s.chainFrom 64 [id] id

/-! ## Writing -/

def update (id : MemberId) (f : Member → Member) : Store :=
  { s with members := s.members.map fun m => if m.id = id then f m else m }

def updateTeam (id : TeamId) (f : Team → Team) : Store :=
  { s with teams := s.teams.map fun t => if t.id = id then f t else t }

def updateFact (pid : Pid) (f : Fact → Fact) : Store :=
  { s with facts := s.facts.map fun x => if x.pid = pid then f x else x }

/-- The walk of the trigger: up to 1000 managers, none of which is `id`. -/
def climbsFree (id : MemberId) : Nat → Option MemberId → Bool
  | _, none => true
  | 0, some _ => false
  | n + 1, some cur => cur ≠ id && climbsFree id n (s.manager cur)

/-- `members_check_manager`: the manager is a live member, and closes no loop. -/
def checkManager (id : MemberId) : Option MemberId → Except Refusal Unit
  | none => .ok ()
  | some up =>
    match s.member up with
    | none => .error ⟨422, "unknown_manager"⟩
    | some m =>
      if m.status = .retired then .error ⟨409, "invalid_manager"⟩
      else refuse (s.climbsFree id 1000 (some up) = false) 409 "cycle"

/-- An update of the manager column. -/
def setManager (id : MemberId) (up : Option MemberId) : Write := do
  s.checkManager id up
  return s.update id fun m => { m with manager := up }

/-! ## Authority -/

/-- The active member whose open main session it is. -/
def actorMember (actor : Pid) : Option MemberId :=
  (s.incarnations.find? fun i => i.pid = actor && i.role = .main && i.open_
    && (s.member i.member).any fun m => m.status = .active).map Incarnation.member

/-- `_require_chain`: Owner, or an active member up the manager chain that acts as its main
session; with `selfOk` also the member itself. The acting member is given, none for Owner. -/
def requireChain (actor : Pid) (id : MemberId) (selfOk : Bool) :
    Except Refusal (Option MemberId) :=
  if actor = ownerPid then .ok none
  else match s.actorMember actor with
    | none => .error ⟨403, "not_member"⟩
    | some a =>
      if (selfOk && a = id) = true ∨ a ∈ s.chain id then .ok (some a)
      else .error ⟨403, "not_manager"⟩

/-- `_require_destination`: a non-Owner places a member only under itself or in its own subtree. -/
def requireDestination (acting : Option MemberId) (manager : MemberId) : Except Refusal Unit :=
  match acting with
  | none => .ok ()
  | some a => refuse (¬(manager = a ∨ a ∈ s.chain manager)) 403 "needs_owner"

def requireOwner (actor : Pid) : Except Refusal Unit := refuse (actor ≠ ownerPid) 403 "owner_only"

/-! ## Holds -/

/-- `hand_back_holds`: each open hold of a session goes to another one, in its role, unless the
rules of its board refuse; a hold the receiver has already stays, and becomes the owner's if the
owner's is handed over. -/
def handBack (source : Pid) (target : Option Pid) (refused : Hold → Bool) : Store :=
  match target with
  | none => s
  | some target =>
    let goes := fun h : Hold => h.pid = source && h.open_ && !refused h
    let moved := s.holds.filter goes
    let kept := (s.holds.filter fun h => !goes h).map fun h =>
      if h.pid = target && moved.any (fun g =>
          g.board = h.board && g.item = h.item && g.role = some "owner") then
        { h with role := some "owner" }
      else h
    let lacking := moved.filter fun g =>
      !kept.any fun h => h.pid = target && h.board = g.board && h.item = g.item
    { s with holds := kept ++ lacking.map fun g => { g with pid := target } }

end Store

end Org
