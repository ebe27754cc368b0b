import Mathlib
import ClaudeManager.Org.Tables

/-!
# What is done to the organization

* `Store.createMember`, `Store.createTeam`, `Store.setLeads` — what several operations share
* `Store.move`, `Store.retire`, `Store.rebindMain`, `Store.promote`, … — one operation each
* `Op`, `Store.perform` — all of them; each is one transaction

Random ids are given to an operation. Texts that are normalized are given in lower case.
-/

namespace Org

/-! ## Names -/

def reservedHandles : List String :=
  ["owner", "me", "none", "all", "here", "everyone", "channel", "main"]

def alnum (c : Char) : Bool := ('a' ≤ c && c ≤ 'z') || ('0' ≤ c && c ≤ '9')

/-- `HANDLE_RE`. -/
def handleOk (handle : String) : Bool :=
  let cs := handle.toList
  2 ≤ cs.length && cs.length ≤ 40 && cs.all (fun c => alnum c || c = '-')
    && cs.head? ≠ some '-' && cs.getLast? ≠ some '-'

def checkHandle (handle : String) : Except Refusal Unit :=
  refuse (handleOk handle = false ∨ handle ∈ reservedHandles) 422 "invalid_handle"

/-- The runs of letters and digits, with single dashes between. -/
def dashed (text : String) : String :=
  "-".intercalate (((text.toList.splitOnP fun c => !alnum c).filter (· ≠ [])).map String.ofList)

def normalizeHandle (text : String) : Option String :=
  let cut := (dashed text).toList.take 40
  let cs := (cut.reverse.dropWhile (· = '-')).reverse
  if 2 ≤ cs.length then some (String.ofList cs) else none

def normalizeAlias (text : String) : Option String :=
  let cs := (dashed text).toList.take 80
  let name := String.ofList cs
  if cs.length < 2 ∨ name ∈ reservedHandles then none else some name

/-- `_free_handle`: the name, or the name with the first free number from 2 on. -/
def freeHandle (base : String) (taken : String → Bool) : Option String :=
  if taken base = false ∧ base ∉ reservedHandles then some base
  else
    ((List.range' 2 998).map fun n =>
      let suffix := "-" ++ toString n
      let cut := base.toList.take (40 - suffix.length)
      String.ofList (cut.reverse.dropWhile (· = '-')).reverse ++ suffix).find? fun name => !taken name

/-! ## Members and teams -/

structure NewTeam where
  /-- The slug, or the name where there is none. -/
  slug : String
  kind : TeamKind
  parent : Option TeamId
  lead : Option MemberId
  coordinator : Option TaskId

/-- A team to lead: one there is, or one to create for a board's root task. -/
structure LeadOf where
  team : Option TeamId
  create : Option NewTeam

structure NewMember where
  id : MemberId
  handle : String
  kind : MemberKind
  title : String
  mandate : String
  manager : Option String
  team : Option TeamId
  pid : Option Pid
  home : Option Home
  aliases : List String
  continuous : Option (String × String)

/-- `_home_of`. -/
def homeOf (daemon : String) (f : Fact) : Option Home :=
  match f.workspace with
  | some workspace => if workspace = "" then none else some ⟨daemon, workspace, f.worktree⟩
  | none => none

namespace Store

variable (s : Store)

/-- The walk of the trigger on a team's parent. -/
def parentsFree (id : TeamId) : Nat → Option TeamId → Bool
  | _, none => true
  | 0, some _ => false
  | n + 1, some cur => cur ≠ id && parentsFree id n ((s.team cur).bind Team.parent)

def checkParent (id : TeamId) : Option TeamId → Except Refusal Unit
  | none => .ok ()
  | some parent => do
    refuse (s.parentsFree id 1000 (some parent) = false) 409 "cycle"
    refuse (s.team parent = none) 422 "unknown_ref"

/-- The coordinator is the team's anchor, and belongs to no other team. -/
def attach (id : TeamId) : Option TaskId → Write
  | none => .ok s
  | some task =>
    match s.tasks.find? fun t => t.1 = task with
    | none => .error ⟨422, "unknown_ref"⟩
    | some (_, some _) => .error ⟨409, "coordinator_taken"⟩
    | some (_, none) =>
      .ok { s with tasks := s.tasks.map fun t => if t.1 = task then (t.1, some id) else t }

/-- A member that is there and not retired. -/
def alive (id : MemberId) : Bool := (s.member id).any fun m => m.status ≠ .retired

/-- `_create_team`. -/
def createTeam (id : TeamId) (n : NewTeam) : Write :=
  match normalizeHandle n.slug with
  | none => .error ⟨422, "invalid_field"⟩
  | some slug => do
    refuse (n.kind ≠ .team ∧ n.coordinator = none) 422 "invalid_field"
    refuse ((s.teams.any fun t => t.slug = slug) = true) 409 "slug_taken"
    refuse ((n.lead.any fun lead => !s.alive lead) = true) 422 "unknown_member"
    refuse (s.team id ≠ none) 409 "conflict"
    s.checkParent id n.parent
    attach { s with teams := s.teams ++
      [⟨id, slug, n.kind, n.lead, n.parent, n.coordinator, .active⟩] } id n.coordinator

/-- The team that is led, which is created first if there is none for its task. -/
def leadTeam (newTeam : TaskId → TeamId) (lo : LeadOf) : Except Refusal (Store × TeamId) :=
  match lo.team, lo.create with
  | some team, _ => .ok (s, team)
  | none, none => .error ⟨422, "invalid_field"⟩
  | none, some n =>
    match s.teams.find? fun t => t.coordinator.isSome && t.coordinator = n.coordinator with
    | some t => .ok (s, t.id)
    | none =>
      let id := newTeam (n.coordinator.getD "")
      match s.createTeam id { n with lead := none } with
      | .ok s => .ok (s, id)
      | .error e => .error e

/-- A team that has a lead keeps it. -/
def setLead (team : TeamId) (member : MemberId) : Store :=
  s.updateTeam team fun t => if t.lead = none then { t with lead := some member } else t

/-- `_set_leads`. -/
def setLeads (newTeam : TaskId → TeamId) (member : MemberId) : Store → List LeadOf → Write
  | s, [] => .ok s
  | s, lo :: los =>
    match s.leadTeam newTeam lo with
    | .error e => .error e
    | .ok (s, team) => setLeads newTeam member (s.setLead team member) los

/-- `ON CONFLICT DO NOTHING`: a name that is taken is not stolen. -/
def addAlias (handle : String) (member : MemberId) (aliases : List (String × MemberId))
    (text : String) : List (String × MemberId) :=
  match normalizeAlias text with
  | none => aliases
  | some name =>
    if name = handle ∨ (aliases.any fun a => a.1 = name) = true then aliases
    else aliases ++ [(name, member)]

def addAliases (handle : String) (member : MemberId) (aliases : List (String × MemberId))
    (texts : List String) : List (String × MemberId) :=
  texts.foldl (addAlias handle member) aliases

/-- `_home_mark`: the last member that takes a workspace as its home has it. -/
def homeMark (member : MemberId) (home : Option Home) : Store :=
  match home with
  | none => s
  | some h =>
    if h.daemon = "" ∨ h.workspace = "" then s
    else if (s.marks.any fun m => m.daemon = h.daemon && m.workspace = h.workspace) then
      { s with marks := s.marks.map fun m =>
        if m.daemon = h.daemon && m.workspace = h.workspace then
          { m with member := some member, path := h.path <|> m.path, home := true }
        else m }
    else { s with marks := s.marks ++ [⟨h.daemon, h.workspace, h.path, true, some member⟩] }

/-- The rows of a new member: itself, its names, its main session, its primary team. -/
def enroll (n : NewMember) (up : MemberId) : Store :=
  { s with
    members := s.members ++ [⟨n.id, n.handle, n.kind, .active, some up, n.team,
      if n.pid.isSome then 1 else 0, n.title, n.mandate⟩]
    aliases := addAliases n.handle n.id (s.aliases ++ [(n.handle, n.id)]) n.aliases
    incarnations := s.incarnations ++
      (n.pid.map fun pid => Incarnation.mk n.id .main 1 pid true).toList
    continuous := s.continuous ++ (n.continuous.map fun key => (key, n.id)).toList
    memberships := s.memberships ++
      (n.team.map fun team => Membership.mk team n.id .primary true).toList }

/-- `_create_member`, once its manager is looked up. -/
def createUnder (manager : Option MemberId) (n : NewMember) : Write := do
  checkHandle n.handle
  refuse (n.kind = .owner) 422 "invalid_field"
  refuse (s.aliasOf n.handle ≠ none) 409 "handle_taken"
  match manager with
  | none => .error ⟨422, "unknown_manager"⟩
  | some up => do
    refuse ((n.pid.any fun pid => s.seated pid) = true) 409 "pid_already_member"
    refuse ((n.pid.any fun pid => (s.session pid).isNone) = true) 409 "stale"
    refuse ((n.team.any fun team => (s.team team).isNone) = true) 422 "unknown_team"
    refuse ((n.continuous.any fun key => s.continuous.any fun c => c.1 = key) = true) 409 "stale"
    refuse (s.member n.id ≠ none ∨ (s.members.any fun m => m.handle = n.handle) = true) 409
      "conflict"
    s.checkManager n.id (some up)
    return (s.enroll n up).homeMark n.id n.home

/-- `_create_member`. -/
def createMember (n : NewMember) : Write :=
  s.createUnder (s.resolve (n.manager.getD ownerPid)) n

/-! ## The roster -/

/-- A proposed member, or teams for a member there is. -/
structure Proposal where
  member : Option MemberId
  handle : String
  kind : MemberKind
  title : String
  team : Option TeamId
  /-- The root task of the board whose lead is proposed too. -/
  teamRef : Option TaskId
  leadOf : List LeadOf
  manager : Option String
  home : Option Home
  pid : Option Pid
  aliases : List String
  continuous : Option (String × String)

/-- What Owner changed of a proposal. -/
structure Row where
  handle : Option String
  kind : Option MemberKind
  title : Option String
  team : Option (Option TeamId)
  manager : Option String
  home : Option (Option Home)

/-- Teams that are led are created before the member, so that it can join one. -/
def leadTeams (newTeam : TaskId → TeamId) : Store → List LeadOf → Except Refusal (Store × List LeadOf)
  | s, [] => .ok (s, [])
  | s, lo :: los =>
    if lo.team = none ∧ lo.create.isSome then
      match s.leadTeam newTeam lo with
      | .error e => .error e
      | .ok (s, team) =>
        match leadTeams newTeam s los with
        | .error e => .error e
        | .ok (s, los) => .ok (s, { lo with team := some team } :: los)
    else
      match leadTeams newTeam s los with
      | .error e => .error e
      | .ok (s, los) => .ok (s, lo :: los)

/-- A proposal for a member there is comes from an open session of that member, or is Owner's. -/
def offers (p : Proposal) : Bool :=
  p.member.all fun id => id = ownerId || s.incarnations.any fun i => i.member = id && i.open_

/-- `_apply_proposal`. -/
def applyProposal (newTeam : TaskId → TeamId) (id : MemberId) (p : Proposal) (row : Row) : Write :=
  match p.member with
  | some member => setLeads newTeam member s p.leadOf
  | none =>
    match leadTeams newTeam s p.leadOf with
    | .error e => .error e
    | .ok (s, leadOf) =>
      let team := match row.team with
        | some team => team
        | none => p.team <|> (leadOf.findSome? LeadOf.team) <|> p.teamRef.bind fun root =>
          (s.teams.find? fun t => t.coordinator = some root).map Team.id
      match s.createMember ⟨id, row.handle.getD p.handle, row.kind.getD p.kind,
          row.title.getD p.title, "", row.manager <|> p.manager, team, p.pid,
          row.home.getD p.home, p.aliases, p.continuous⟩ with
      | .error e => .error e
      | .ok s => setLeads newTeam id s leadOf

/-! ## Owner's operations -/

/-- `adopt`. -/
def adopt (actor : Pid) (id : MemberId) (pid : Pid) (handle title : String) (kind : MemberKind)
    (team : Option TeamId) (manager : Option String) (home : Option Home) : Write := do
  requireOwner actor
  match s.session pid with
  | none => .error ⟨404, "not_found"⟩
  | some x => do
    refuse (x.engine = some "bash") 422 "agent_only"
    let f := s.fact pid
    let home := home <|> f.bind (homeOf x.daemon)
    match kind, f.bind Fact.continuousTask with
    | .continuous, none => .error ⟨422, "invalid_field"⟩
    | .continuous, some cid =>
      s.createMember ⟨id, handle, kind, title, "", manager, team, some pid, home,
        [cid, cid ++ "-orchestrator"], some (x.daemon, cid)⟩
    | _, _ => s.createMember ⟨id, handle, kind, title, "", manager, team, some pid, home, [], none⟩

/-- `hire`: a member without a session yet. -/
def hire (actor : Pid) (id : MemberId) (handle title mandate : String) (manager : Option String)
    (team : Option TeamId) : Write := do
  requireOwner actor
  refuse (60 < title.length ∨ 400 < mandate.length) 422 "too_long"
  refuse ((team.any fun t => (s.team t).isNone) = true) 422 "unknown_team"
  s.createMember ⟨id, handle, .agent, title, mandate,
    manager <|> (team.bind s.team).bind Team.lead, team, none, none, [], none⟩

/-- `team_create`, and `create_team_conn`, whose caller checked authority. -/
def teamCreate (actor : Pid) (authorized : Bool) (id : TeamId) (n : NewTeam) (lead : Option String) :
    Write := do
  refuse (authorized = false ∧ actor ≠ ownerPid) 403 "owner_only"
  let lead ← match lead with
    | none => .ok none
    | some ref =>
      match s.resolve ref with
      | none => .error ⟨422, "unknown_member"⟩
      | some lead => .ok (some lead)
  refuse (authorized = false ∧ (n.parent.any fun t => (s.team t).isNone) = true) 422 "unknown_team"
  s.createTeam id { n with lead := lead }

/-- Changes of a team; what is not given stays, and an empty lead is given as none. -/
structure TeamChanges where
  lead : Option (Option String)
  parent : Option (Option TeamId)
  status : Option TeamStatus

def newLead : Option (Option String) → Option MemberId → Except Refusal (Option MemberId)
  | none, old => .ok old
  | some none, _ => .ok none
  | some (some ref), _ =>
    match s.resolve ref with
    | none => .error ⟨422, "unknown_member"⟩
    | some lead => do
      refuse ((s.member lead).any (fun m => m.status = .retired) = true) 409 "invalid_member"
      return some lead

def newParent (id : TeamId) : Option (Option TeamId) → Option TeamId → Except Refusal (Option TeamId)
  | none, old => .ok old
  | some parent, _ => do
    refuse ((parent.any fun t => (s.team t).isNone) = true) 422 "unknown_team"
    s.checkParent id parent
    return parent

/-- `team_update`. -/
def teamUpdate (actor : Pid) (id : TeamId) (c : TeamChanges) : Write := do
  requireOwner actor
  match s.team id with
  | none => .error ⟨404, "not_found"⟩
  | some t =>
    let parent ← s.newParent id c.parent t.parent
    let lead ← s.newLead c.lead t.lead
    return s.updateTeam id fun t =>
      { t with lead := lead, parent := parent, status := c.status.getD t.status }

/-! ## Seats -/

/-- The main of a member closes, and another session opens as the next one. -/
def replaceMain (id : MemberId) (pid : Pid) (generation : Nat) : Store :=
  { s.update id (fun m => { m with generation := generation }) with
    incarnations := (s.incarnations.map fun i =>
      if i.member = id && i.role = .main && i.open_ then { i with open_ := false } else i)
        ++ [⟨id, .main, generation, pid, true⟩] }

/-- `rebind_main`. -/
def rebindMain (actor : Pid) (ref : String) (pid : Pid) (refused : Hold → Bool) : Write :=
  match s.resolve ref with
  | none => .error ⟨404, "not_found"⟩
  | some id =>
    match s.member id with
    | none => .error ⟨404, "not_found"⟩
    | some m => do
      refuse (id = ownerId) 404 "not_found"
      refuse (m.status ≠ .active) 409 "retired"
      let _ ← s.requireChain actor id false
      match s.session pid with
      | none => .error ⟨404, "not_found"⟩
      | some x => do
        refuse (x.engine = some "bash" ∨ x.engine = some "shell") 422 "agent_only"
        refuse (s.seated pid = true) 409 "already_member"
        match s.main id with
        | none => .error ⟨409, "no_main"⟩
        | some old =>
          let s₁ := (s.handBack old.pid (some pid) refused).replaceMain id pid (m.generation + 1)
          let s₂ := s₁.updateFact old.pid fun f => { f with actingAs := some .closed }
          return s₂.updateFact pid fun f => { f with member := some id, actingAs := some .main }

/-- `close_assistant`; `killed` where the daemon killed the session already. -/
def closeAssistant (actor : Pid) (pid : Pid) (id : MemberId) (killed : Bool)
    (refused : Hold → Bool) : Write := do
  refuse (s.member id = none) 404 "not_found"
  refuse ((s.incarnations.any fun i => i.pid = pid && i.role = .main && i.open_) = true) 409
    "not_an_assistant"
  match s.fact pid with
  | none => .error ⟨409, "not_an_assistant"⟩
  | some f => do
    refuse (¬(f.actingAs = some .assistant ∨ f.actingAs = some .closed) ∨ f.member ≠ some id) 409
      "not_an_assistant"
    if killed = false then
      let _ ← s.requireChain actor id true
    return (s.handBack pid ((s.main id).map Incarnation.pid) refused).updateFact pid
      fun f => { f with actingAs := some .closed }

/-- `_promote_home`: a checkout that is no one else's. -/
def promoteHome (f : Fact) (daemon : String) (boss : MemberId) (refusedHome : Bool) : Option Home :=
  match homeOf daemon f with
  | none => none
  | some h =>
    let mark := s.marks.find? fun m => m.daemon = h.daemon && m.workspace = h.workspace
    if refusedHome then none
    else if mark.any fun m => m.home || (m.member.isSome && m.member ≠ some boss) then none
    else if s.facts.any fun g => g.pid ≠ f.pid
        && (s.session g.pid).any (fun x => x.daemon = h.daemon) && s.seated g.pid
        && (g.workspace = some h.workspace || (h.path.isSome && g.worktree = h.path)) then none
    else some h

/-- Where a promoted member is placed. -/
def promotePlace (acting : Option MemberId) (boss : MemberId) :
    Option String → Except Refusal MemberId
  | none => .ok boss
  | some ref =>
    match s.resolve ref with
    | none => .error ⟨422, "unknown_manager"⟩
    | some up => do
      s.requireDestination acting up
      return up

/-- A lead gives only a team it leads. -/
def promoteTeam (acting : Option MemberId) : Option TeamId → Except Refusal (Option TeamId)
  | none => .ok none
  | some team =>
    match s.team team with
    | none => .error ⟨422, "unknown_team"⟩
    | some t => do
      refuse (acting.isSome = true ∧ t.lead ≠ acting) 403 "needs_owner"
      return some team

/-- `promote`. -/
def promote (actor : Pid) (id : MemberId) (pid : Pid) (handle title : String)
    (team : Option TeamId) (manager : Option String) (refusedHome : Bool) : Write :=
  match s.session pid with
  | none => .error ⟨404, "not_found"⟩
  | some x => do
    refuse (¬(x.engine = none ∨ x.engine = some "claude-code" ∨ x.engine = some "claude"
      ∨ x.engine = some "codex")) 409 "not_an_agent"
    refuse (s.seated pid = true) 409 "already_member"
    match s.fact pid with
    | none => .error ⟨409, "not_an_assistant"⟩
    | some f => do
      refuse (f.continuousTask.isSome = true) 409 "continuous"
      match (if f.actingAs = some .assistant then f.member else none) with
      | none => .error ⟨409, "not_an_assistant"⟩
      | some boss => do
        refuse (s.alive boss = false) 409 "not_an_assistant"
        let acting ← s.requireChain actor boss true
        let up ← s.promotePlace acting boss manager
        let team ← s.promoteTeam acting team
        -- the id of a member names that member
        let s ← s.createUnder (some up) ⟨id, handle, .agent, title, "", some up, team, some pid,
          s.promoteHome f x.daemon boss refusedHome, [], none⟩
        return s.updateFact pid fun f => { f with actingAs := some .promoted }

/-! ## Placement -/

/-- The open primary membership goes to another team. -/
def joinPrimary (id : MemberId) (team : Option TeamId) : List Membership :=
  let left := s.memberships.map fun t =>
    if t.member = id && t.role = .primary && t.open_ && some t.team ≠ team then
      { t with open_ := false }
    else t
  match team with
  | none => left
  | some team =>
    if left.any fun t => t.team = team && t.member = id && t.role = .primary then
      left.map fun t =>
        if t.team = team && t.member = id && t.role = .primary then { t with open_ := true } else t
    else left ++ [⟨team, id, .primary, true⟩]

def setPrimary (id : MemberId) (team : Option TeamId) : Store :=
  { s.update id (fun m => { m with primaryTeam := team }) with memberships := s.joinPrimary id team }

/-- The manager that is named, where the acting member may place a report. -/
def movePlace (acting : Option MemberId) : Option String → Except Refusal (Option MemberId)
  | none => .ok none
  | some ref =>
    match s.resolve ref with
    | none => .error ⟨422, "unknown_manager"⟩
    | some up => do
      s.requireDestination acting up
      return some up

/-- Only the columns that move are written: the trigger is on the manager's. -/
def moveTo (id : MemberId) (up : Option MemberId) (team : Option (Option TeamId)) : Write := do
  let s ← match up with
    | none => .ok s
    | some up => s.setManager id (some up)
  match team with
  | none => .ok s
  | some team => .ok (s.setPrimary id team)

/-- `move`: to another manager, another primary team, or both. -/
def move (actor : Pid) (ref : String) (manager : Option String) (team : Option (Option TeamId)) :
    Write := do
  refuse (manager = none ∧ team = none) 422 "invalid_field"
  match s.resolve ref with
  | none => .error ⟨404, "not_found"⟩
  | some id => do
    refuse (id = ownerId ∨ s.member id = none) 404 "not_found"
    let acting ← s.requireChain actor id false
    let up ← s.movePlace acting manager
    refuse ((team.any fun team => team.any fun t => (s.team t).isNone) = true) 422 "unknown_team"
    s.moveTo id up team

/-- The reports of a member move to its manager, one by one. -/
def moveReports (up : Option MemberId) : Store → List MemberId → Write
  | s, [] => .ok s
  | s, report :: reports => do
    let s ← s.setManager report up
    moveReports up s reports

def reports (id : MemberId) : List MemberId :=
  (s.members.filter fun m => m.manager = some id && m.status ≠ .retired).map Member.id

def ledBy (id : MemberId) : List TeamId :=
  (s.teams.filter fun t => t.lead = some id).map Team.id

def unlead (id : MemberId) : Store :=
  { s with teams := s.teams.map fun t => if t.lead = some id then { t with lead := none } else t }

/-- Where the holds of a retired member's main session go. -/
def heir (up : Option MemberId) : Option Pid :=
  if up = some ownerId then some ownerPid
  else up.bind fun up => (s.main up).map Incarnation.pid

def handUp (id : MemberId) (up : Option MemberId) (refused : Hold → Bool) : Store :=
  match s.main id with
  | none => s
  | some i => s.handBack i.pid (s.heir up) refused

/-- `retire`: reports move up, teams lose their lead, holds go to the manager. -/
def retire (actor : Pid) (ref : String) (refused : Hold → Bool) : Write :=
  match s.resolve ref with
  | none => .error ⟨404, "not_found"⟩
  | some id =>
    match s.member id with
    | none => .error ⟨404, "not_found"⟩
    | some m => do
      refuse (id = ownerId) 404 "not_found"
      let _ ← s.requireChain actor id false
      refuse (m.status = .retired) 409 "already_retired"
      let s₁ ← moveReports m.manager s (s.reports id)
      let s₂ := (s₁.unlead id).handUp id m.manager refused
      return { s₂.update id (fun m => { m with status := .retired }) with
        retirements := ⟨id, m.status, s.ledBy id⟩ :: s₂.retirements }

/-- The leads that are free are given back. -/
def regainLeads (id : MemberId) (led : List TeamId) : Store :=
  led.foldl (fun s team => s.setLead team id) s

/-- `reinstate`. -/
def reinstate (actor : Pid) (ref : String) : Write := do
  requireOwner actor
  match s.resolve ref with
  | none => .error ⟨404, "not_found"⟩
  | some id =>
    match s.member id with
    | none => .error ⟨404, "not_found"⟩
    | some m => do
      refuse (id = ownerId) 404 "not_found"
      refuse (m.status ≠ .retired) 409 "not_retired"
      refuse ((m.manager.bind s.member).any (fun up => up.status = .retired) = true) 409
        "retired_manager"
      let last := s.retirements.find? fun r => r.member = id
      let status := match last.map Retirement.status with
        | some .vacant => MemberStatus.vacant
        | some .suspended => .suspended
        | _ => .active
      let s := s.regainLeads id ((last.map Retirement.leadOf).getD [])
      return s.update id fun m => { m with status := status }

/-- `update_profile`. -/
def updateProfile (actor : Pid) (ref : String) (title mandate : Option String) : Write := do
  refuse (title = none ∧ mandate = none) 422 "invalid_field"
  refuse (60 < (title.getD "").length ∨ 400 < (mandate.getD "").length) 422 "too_long"
  match s.resolve ref with
  | none => .error ⟨404, "not_found"⟩
  | some id =>
    match s.member id with
    | none => .error ⟨404, "not_found"⟩
    | some m => do
      refuse (id = ownerId) 404 "not_found"
      refuse (m.status = .retired) 409 "retired"
      let _ ← s.requireChain actor id false
      return s.update id fun m =>
        { m with title := title.getD m.title, mandate := mandate.getD m.mandate }

/-! ## Heartbeats -/

/-- A fact that was reported: stamps are kept, and an intent to place ends with a tag. -/
def mergeFact (new : Fact) (old : Fact) : Fact :=
  { new with
    member := new.member <|> old.member
    actingAs :=
      if old.actingAs = some .closed ∨ old.actingAs = some .promoted then old.actingAs
      else new.actingAs <|> old.actingAs
    autoPlace :=
      if old.member.isSome || new.workflowRun.isSome || new.continuousTask.isSome
          || new.managedBy.isSome then false
      else old.autoPlace || new.autoPlace }

/-- A daemon stamps a member with a role only, and only as assistant or worker. -/
def stamped (daemon : String) (f : Fact) : Fact :=
  let role := if f.actingAs = some .assistant ∨ f.actingAs = some .worker then f.actingAs else none
  { f with
    daemon := daemon
    member := if role.isSome then f.member else none
    actingAs := if f.member.isSome then role else none
    autoPlace := f.autoPlace && f.continuousTask.isNone && f.managedBy.isNone
      && f.workflowRun.isNone }

def reportFact (daemon : String) (f : Fact) : Store :=
  let f := stamped daemon f
  if (s.fact f.pid).isSome then s.updateFact f.pid (mergeFact f)
  else { s with facts := s.facts ++ [f] }

/-- Fresh top-level agent sessions to place. -/
def candidates (daemon : String) : List Session :=
  (s.sessions.filter fun x => x.live && x.daemon = daemon
    && (x.engine = some "claude" || x.engine = some "claude-code" || x.engine = some "codex")
    && (s.fact x.pid).any (fun f => f.autoPlace && f.member.isNone && f.managedBy.isNone
      && f.continuousTask.isNone && f.workflowRun.isNone)
    && !s.seated x.pid).mergeSort fun a b => a.pid ≤ b.pid

/-- `_auto_place_home`: a checkout that nobody has. -/
def autoPlaceHome (f : Fact) (daemon : String) : Option Home :=
  match homeOf daemon f with
  | none => none
  | some h =>
    if s.marks.any fun m => m.daemon = h.daemon && m.workspace = h.workspace
        && (m.home || m.member.isSome) then none
    else if h.path.isSome && s.marks.any fun m =>
        m.daemon = h.daemon && m.path = h.path && m.member.isSome then none
    else if s.facts.any fun g => (s.session g.pid).any (fun x => x.daemon = h.daemon)
        && s.seated g.pid
        && (g.workspace = some h.workspace || (h.path.isSome && g.worktree = h.path)) then none
    else some h

def placeName (x : Session) : String :=
  ((x.name.bind normalizeHandle) <|> normalizeHandle x.uid).getD "agent"

/-- The candidates become members under Owner, one by one. -/
def place (newId : Pid → MemberId) : Store → List String → List Session → Write
  | s, _, [] => .ok s
  | s, taken, x :: xs =>
    match freeHandle (placeName x) (fun name => (s.aliasOf name).isSome || name ∈ taken) with
    | none => .error ⟨409, "handle_taken"⟩
    | some handle =>
      let home := (s.fact x.pid).bind fun f => s.autoPlaceHome f x.daemon
      match s.createMember ⟨newId x.pid, handle, .agent, (x.name.getD handle), "", some ownerPid,
          none, some x.pid, home, [], none⟩ with
      | .error e => .error e
      | .ok s =>
        place newId (s.updateFact x.pid fun f =>
          if f.member = none then
            { f with member := some (newId x.pid), actingAs := some .main, autoPlace := false }
          else f) (handle :: taken) xs

/-- The lock is taken where a session carries an intent or a tag, or for another reason. -/
def needsLock (daemon : String) (facts : List Fact) (marked : Bool) : Bool :=
  marked || facts.any (fun f => f.autoPlace || f.managedBy.isSome || f.continuousTask.isSome
      || f.workflowRun.isSome)
    || s.facts.any fun f => f.daemon = daemon && f.autoPlace && f.member.isNone
      && f.managedBy.isNone && f.continuousTask.isNone && f.workflowRun.isNone

/-- `heartbeat_extras`: facts, placements, and facts too old to keep. -/
def heartbeat (newId : Pid → MemberId) (daemon : String) (facts : List Fact) (marked : Bool)
    (old : List Pid) : Write := do
  let facts := facts.filter fun f => f.pid.startsWith ("agent:" ++ daemon ++ ":")
  let locked := s.needsLock daemon facts marked
  let s := facts.foldl (fun s f => s.reportFact daemon f) s
  let s ← if locked then place newId s [] (s.candidates daemon) else .ok s
  return { s with facts := s.facts.filter fun f => f.daemon ≠ daemon
    || !(old.contains f.pid) || facts.any fun g => g.pid = f.pid }

end Store

/-! ## All operations -/

inductive Op where
  | roster (actor : Pid) (newTeam : TaskId → TeamId) (id : MemberId) (p : Store.Proposal)
      (row : Store.Row)
  | adopt (actor : Pid) (id : MemberId) (pid : Pid) (handle title : String) (kind : MemberKind)
      (team : Option TeamId) (manager : Option String) (home : Option Home)
  | hire (actor : Pid) (id : MemberId) (handle title mandate : String) (manager : Option String)
      (team : Option TeamId)
  | teamCreate (actor : Pid) (authorized : Bool) (id : TeamId) (n : NewTeam) (lead : Option String)
  | teamUpdate (actor : Pid) (id : TeamId) (c : Store.TeamChanges)
  | rebind (actor : Pid) (ref : String) (pid : Pid) (refused : Hold → Bool)
  | close (actor : Pid) (pid : Pid) (id : MemberId) (killed : Bool) (refused : Hold → Bool)
  | promote (actor : Pid) (id : MemberId) (pid : Pid) (handle title : String)
      (team : Option TeamId) (manager : Option String) (refusedHome : Bool)
  | move (actor : Pid) (ref : String) (manager : Option String) (team : Option (Option TeamId))
  | retire (actor : Pid) (ref : String) (refused : Hold → Bool)
  | reinstate (actor : Pid) (ref : String)
  | profile (actor : Pid) (ref : String) (title mandate : Option String)
  | heartbeat (newId : Pid → MemberId) (daemon : String) (facts : List Fact) (marked : Bool)
      (old : List Pid)
  /-- Sessions start and exit. -/
  | sessions (rows : List Session)
  /-- Tasks are created, and items of boards are held and released. -/
  | work (tasks : List (TaskId × Option TeamId)) (holds : List Hold)

/-- What an operation commits. -/
def Store.perform (s : Store) : Op → Write
  | .roster actor newTeam id p row => do
    Store.requireOwner actor
    refuse (s.offers p = false) 409 "stale"
    s.applyProposal newTeam id p row
  | .adopt actor id pid handle title kind team manager home =>
    s.adopt actor id pid handle title kind team manager home
  | .hire actor id handle title mandate manager team =>
    s.hire actor id handle title mandate manager team
  | .teamCreate actor authorized id n lead => s.teamCreate actor authorized id n lead
  | .teamUpdate actor id c => s.teamUpdate actor id c
  | .rebind actor ref pid refused => s.rebindMain actor ref pid refused
  | .close actor pid id killed refused => s.closeAssistant actor pid id killed refused
  | .promote actor id pid handle title team manager refusedHome =>
    s.promote actor id pid handle title team manager refusedHome
  | .move actor ref manager team => s.move actor ref manager team
  | .retire actor ref refused => s.retire actor ref refused
  | .reinstate actor ref => s.reinstate actor ref
  | .profile actor ref title mandate => s.updateProfile actor ref title mandate
  | .heartbeat newId daemon facts marked old => s.heartbeat newId daemon facts marked old
  | .sessions rows => .ok { s with sessions := rows }
  | .work tasks holds => .ok { s with tasks := tasks, holds := holds }

/-- An operation that is refused changes nothing. -/
def Store.step (s : Store) (o : Op) : Store :=
  match s.perform o with
  | .ok s' => s'
  | .error _ => s

/-- The organization as the migration creates it. -/
def seed : Store where
  members := [⟨ownerId, "owner", .owner, .active, none, none, 0, "", ""⟩]
  aliases := [("owner", ownerId)]
  incarnations := []
  teams := []
  memberships := []
  continuous := []
  tasks := []
  sessions := []
  facts := []
  marks := []
  holds := []
  retirements := []

end Org
