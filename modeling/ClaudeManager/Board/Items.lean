import Mathlib
import ClaudeManager.Json.Value
import ClaudeManager.Python.Builtins
import ClaudeManager.Program.Containers
import ClaudeManager.Program.Stateful

/-!
# Work items

The records of a board and the checks of what a caller sends:

* `Item`, `Holder`, `Group`, `BoardRow` — a board's live data
* `strictViolation` — why an item does not fit a strict board
* `text`, `links`, `parseWhen`, `holder` — a field of a request, or the refusal of it

Times are instants in microseconds.
-/

namespace Board

open Json Python Containers Program

/-- Microseconds since the epoch. -/
abbrev Instant := Int

/-- What the interpreter supplies: case folding and digits of any script, a text in quotes,
the texts of values that are not texts, the ISO 8601 texts of times, and how deep calls may
nest. -/
class Runtime where
  lower : String → String
  digit : Char → Option Nat
  repr : String → String
  str : Value → String
  isoformat : Instant → String
  /-- The wall clock a text names, with its offset from UTC where it has one. -/
  fromisoformat : String → Option (Instant × Option Int)
  recursionLimit : Nat

inductive Status where
  | «open» | active | waiting | blocked | blockedOnOwner | done | dropped
  deriving DecidableEq, Repr

namespace Status

def name : Status → String
  | .open => "open"
  | .active => "active"
  | .waiting => "waiting"
  | .blocked => "blocked"
  | .blockedOnOwner => "blocked_on_owner"
  | .done => "done"
  | .dropped => "dropped"

/-- `STATUSES`, in the order the refusals list them. -/
def all : List Status := [.open, .active, .waiting, .blocked, .blockedOnOwner, .done, .dropped]

def ofName (s : String) : Option Status := all.find? fun t => t.name = s

theorem ofName_name (t : Status) : ofName t.name = some t := by
  cases t <;> decide

/-- `CLOSED`. -/
def closed (t : Status) : Bool := t = .done || t = .dropped

/-- `OWNED_STATUSES`: held items in one of these have one owner. -/
def owned (t : Status) : Bool := t = .active || t = .waiting || t = .blocked

end Status

/-- `STATUSES`, as a refusal prints it. -/
def statusNames : String := commas (Status.all.map Status.name)

inductive Role where
  | owner | contributor | reviewer | approver | holder
  deriving DecidableEq, Repr

namespace Role

def name : Role → String
  | .owner => "owner"
  | .contributor => "contributor"
  | .reviewer => "reviewer"
  | .approver => "approver"
  | .holder => "holder"

def all : List Role := [.owner, .contributor, .reviewer, .approver, .holder]

def ofName (s : String) : Option Role := all.find? fun r => r.name = s

end Role

/-! ## Constants -/

def ownerPid := "owner"
def suggested := "suggested_transition"
def blockerDropped := "blocker_dropped"
def maxTitle := 200
def maxNote := 500
def maxGroup := 80
def maxBlockedOn := 200
def maxJob := 200
def maxDescription := 20000
def maxLinks := 20
def maxLink := 500
def maxItemsPerCall := 50
def maxN : Int := 2 ^ 31 - 1

/-! ## Records -/

/-- A holder of an item. `attribution` is `some null` where a caller sent one that does
not hold. -/
structure Holder where
  pid : String
  name : Value
  sessionUid : Value
  daemonId : Value
  role : Option Role
  attribution : Option Value
  memberId : Option Value
  viaMemberId : Option Value
  addedAt : Option Instant
  deriving DecidableEq

/-- Neither a migrated co-owner nor a holder from before roles. -/
def Holder.settled (h : Holder) : Bool := h.role ≠ none && h.role ≠ some .holder

def Holder.owns (h : Holder) : Bool := h.role = some .owner

structure Flag where
  raisedAt : Instant
  detail : Value
  deriving DecidableEq

structure Item where
  n : Nat
  title : String
  status : Status
  id : Option Nat
  note : Option String
  group : Option String
  blockedOn : Option String
  checkBackAt : Option Instant
  etaAt : Option Instant
  waitingSetAt : Option Instant
  job : Option String
  groupId : Option String
  teamId : Option String
  taskId : Option String
  linkArchivedAt : Option Instant
  description : Option String
  descriptionRev : Nat
  actionableAt : Option Instant
  launchedAt : Option Instant
  links : List String
  touchedAt : Option Instant
  clockResetAt : Option Instant
  closedAt : Option Instant
  closedBy : Option String
  archivedAt : Option Instant
  createdBy : Option String
  createdAt : Option Instant
  staleNudgedAt : Option Instant
  flagPushed : Map Value
  gateHead : Value
  holders : List Holder
  blockedBy : NatSet
  openFlags : Map Flag

abbrev Items := NatMap Item

structure Group where
  id : String
  name : String
  kind : String
  parentId : Option String
  epicStatus : Option String

/-- `Group.closed`. -/
def Group.closed (g : Group) : Bool :=
  g.kind = "epic" && (g.epicStatus = some "done" || g.epicStatus = some "cancelled")

/-- The board's row: what its writes read of it. -/
structure BoardRow where
  id : String
  slug : String
  nextNumber : Nat
  backlogAllowed : Bool
  checkBackMaxS : Nat
  launchS : Nat
  idleS : Nat
  staleS : Nat
  unassignedS : Nat
  repushS : Nat
  stewardPid : Option String
  orchestratorPid : Option String

/-- Who writes. `attribution` is there only where the caller sent one. -/
structure Actor where
  pid : String
  name : Option String
  sessionUid : Option String
  daemonId : Option String
  attribution : Option Value

/-- `actor.get("name") or actor["pid"]`. -/
def Actor.who (a : Actor) : String := orElse a.name a.pid

/-! ## Refusals -/

/-- Why a write does not happen: a refusal the API answers with, a time out of range, or
calls nested too deep. -/
inductive Fault where
  | refused (status : Nat) (code message : String) (extra : List (String × Value))
  | overflow
  | recursion

def invalid (code message : String) (extra : List (String × Value)) : Fault :=
  .refused 422 code message extra

def invalidField (message field : String) : Fault :=
  invalid "invalid_field" message [("field", field)]

/-! ## Strict boards -/

/-- A board that holds only running or blocked work. -/
def strict (board : BoardRow) : Bool := !board.backlogAllowed

/-- `check_back_max`, in microseconds. -/
def checkBackMax (board : BoardRow) : Int :=
  (if board.checkBackMaxS = 0 then 259200 else board.checkBackMaxS) * 10 ^ 6

/-- `TRIAGE_FIX`: what a shape that does not fit is called, with the call that fixes it. -/
def triageFix (reason : String) : String :=
  match reason with
  | "waiting" => "item_set(n, \"active\", eta=\"40m\", job=\"...\") for a job in flight, "
      ++ "or block it with its trigger"
  | "open" => "give it a holder (item_set(n, holder=...)) or drop it and file a planning task"
  | "no_trigger" =>
    "item_set(n, blocked_by=[m]) or item_set(n, blocked_on=\"...\", check_back=\"4h\")"
  | "no_check_back" => "item_set(n, check_back=\"4h\")"
  | "check_back_too_far" => "item_set(n, check_back=\"24h\") (a closer check-back)"
  | _ => "item_set(n, eta=\"40m\")"

/-- Is a text of the item set? -/
def isSet (s : Option String) : Bool :=
  match s with
  | some s => s ≠ ""
  | none => false

/-- Why an open item does not fit a strict board. -/
def strictViolation (it : Item) (board : BoardRow) (now : Instant) : Option String :=
  if it.status.closed then none
  else if it.status = .waiting then some "waiting"
  else if it.status = .open then some "open"
  else if it.status = .blocked ∧ it.blockedBy.isEmpty ∧ isSet it.blockedOn = false then
    some "no_trigger"
  else if it.status = .blocked ∧ it.blockedBy.isEmpty ∧ it.checkBackAt = none then
    some "no_check_back"
  else if it.status = .blocked ∧ it.blockedBy.isEmpty
      ∧ it.checkBackAt.any (fun t => now + checkBackMax board < t) then
    some "check_back_too_far"
  else if it.status = .active ∧ isSet it.job ∧ it.etaAt = none then some "job_without_eta"
  else none

/-! ## Fields of a request -/

/-- `_text`: one line of at most `limit` characters, `None` for nothing. -/
def text (value : Value) (limit : Nat) (name : String) (required : Bool) :
    Except Fault (Option String) :=
  match value with
  | .null => if required then .error (invalidField s!"{name} is required" name) else .ok none
  | .str s =>
    let line := " ".intercalate (split s)
    if line = "" then
      if required then .error (invalidField s!"{name} must not be empty" name) else .ok none
    else if limit < line.length then
      .error (invalidField s!"{name} is longer than {limit} characters" name)
    else .ok (some line)
  | _ => .error (invalidField s!"{name} must be a string" name)

/-- What `text` lets through is not empty. -/
theorem text_isSet {value : Value} {limit : Nat} {name : String} {required : Bool}
    {s : String} (h : text value limit name required = .ok (some s)) : s ≠ "" := by
  unfold text at h
  split at h
  · split at h <;> simp at h
  · simp only at h
    split_ifs at h with h1 h2
    · simp at h
    · simpa [← Option.some.inj (Except.ok.inj h)] using h1
  · simp at h

/-- What `text` requires is there. -/
theorem text_required {value : Value} {limit : Nat} {name : String} {o : Option String}
    (h : text value limit name true = .ok o) : ∃ s, o = some s := by
  unfold text at h
  split at h
  · simp at h
  · simp only at h
    split_ifs at h
    · exact ⟨_, (Except.ok.inj h).symm⟩
  · simp at h

/-- `_links`. -/
def links (value : Value) : Except Fault (List String) :=
  match value with
  | .null => .ok []
  | .arr items =>
    match items.mapM Value.asStr with
    | none => .error (invalidField "links must be a list of strings" "links")
    | some texts =>
      let kept := (texts.map strip).filter (· ≠ "")
      if maxLinks < kept.length ∨ kept.any (fun v => maxLink < v.length) then
        .error (invalidField
          s!"at most {maxLinks} links of at most {maxLink} characters" "links")
      else .ok kept
  | _ => .error (invalidField "links must be a list of strings" "links")

section

variable [Runtime]

/-- `str(value)`. -/
def str : Value → String
  | .str s => s
  | v => Runtime.str v

/-- The digits at the front, as a number. -/
def number (acc : Option Nat) : List Char → Option Nat × List Char
  | [] => (acc, [])
  | c :: cs =>
    match Runtime.digit c with
    | some d => number (some (acc.getD 0 * 10 + d)) cs
    | none => (acc, c :: cs)

/-- `(?:(\d+)u)?` of the unit `u`. -/
def span (unit : Char) (cs : List Char) : Option Nat × List Char :=
  match number none cs with
  | (some n, u :: rest) => if u = unit then (some n, rest) else (none, cs)
  | _ => (none, cs)

/-- The seconds of a duration: `40m`, `2h`, `1h30m`, `1d`. -/
def duration (s : String) : Option Nat :=
  let (days, cs) := span 'd' s.toList
  let (hours, cs) := span 'h' cs
  let (minutes, cs) := span 'm' cs
  let (seconds, cs) := span 's' cs
  if cs = [] ∧ [days, hours, minutes, seconds].any Option.isSome then
    some (((days.getD 0 * 24 + hours.getD 0) * 60 + minutes.getD 0) * 60 + seconds.getD 0)
  else none

/-- `datetime.max`. -/
def maxInstant : Instant := 253402300799999999

/-- `s.replace("Z", "+00:00")`. -/
def zuluOffset (s : String) : String :=
  String.ofList (s.toList.flatMap fun c => if c = 'Z' then "+00:00".toList else [c])

/-- A duration from now, or an RFC 3339 time. -/
def parseWhen (value : Value) (now : Instant) (fieldName : String) : Except Fault Instant :=
  let s := strip (str value)
  match duration (Runtime.lower s) with
  | some seconds =>
    if maxInstant < now + seconds * 10 ^ 6 then .error .overflow
    else .ok (now + seconds * 10 ^ 6)
  | none =>
    match Runtime.fromisoformat (zuluOffset s) with
    | some (wall, offset) => .ok (wall - offset.getD 0)
    | none =>
      .error (invalidField
        s!"{fieldName} must be a duration like 40m, 2h, 1h30m or an RFC 3339 time" fieldName)

/-- `iso`. -/
def iso (t : Option Instant) : Value :=
  match t with
  | some t => .str (Runtime.isoformat t)
  | none => .null

end

/-! ### Holders -/

/-- A text without a colon, of at least one character. -/
def plainId (v : Value) : Option String :=
  match v with
  | .str s => if s = "" ∨ s.toList.contains ':' then none else some s
  | _ => none

/-- An organisation's version: an unsigned 63-bit number. -/
def isVersion : Value → Bool
  | .num n => 0 ≤ n && n ≤ 2 ^ 63 - 1
  | _ => false

/-- A member's name: a text that is not blank, of at most 200 characters. -/
def isMember : Value → Bool
  | .str s => strip s ≠ "" && s.length ≤ 200
  | _ => false

/-- `_attribution`: display evidence of who acts, `None` where it is malformed. -/
def attribution (value : Value) (pid : String) (daemonId sessionUid : Value) : Option Value :=
  match value, plainId daemonId, plainId sessionUid with
  | .obj members, some daemon, some uid =>
    let known := ["member_id", "acting_as", "provenance", "verified", "org_version", "daemon_id",
      "as_of"]
    if members.all (fun m => known.contains m.1) && isMember (value.idx "member_id")
        && pid = s!"agent:{daemon}:{uid}" then
      if value.idx "provenance" = .str "central-open-main" then
        if value.idx "acting_as" = .str "main" ∧ value.idx "verified" = .bool true
            ∧ isVersion (value.idx "org_version") ∧ value.idx "daemon_id" = .str daemon
            ∧ value.idx "as_of" = .null then some value
        else none
      else if value.idx "provenance" = .str "o5-spawn-stamp" then
        if (value.idx "acting_as" = .str "assistant" ∨ value.idx "acting_as" = .str "worker")
            ∧ value.idx "verified" = .bool false ∧ value.idx "as_of" = .str "spawn"
            ∧ value.idx "daemon_id" = .null ∧ value.idx "org_version" = .null then some value
        else none
      else none
    else none
  | _, _, _ => none

/-- `{', '.join(ROLES)}`. -/
def roleNames : String := commas (Role.all.map Role.name)

/-- A role by its name, where there is one. -/
def roleOf (value : Value) : Except Fault (Option Role) :=
  match value with
  | .null => .ok none
  | .str s =>
    match Role.ofName s with
    | some r => .ok (some r)
    | none => .error (invalidField s!"role must be one of {roleNames}" "role")
  | _ => .error (invalidField s!"role must be one of {roleNames}" "role")

/-- `_holder`: a holder a request names. No request carries an `added_at`. -/
def holder (value : Value) : Except Fault Holder := do
  let pid ← okOr (value.idx "pid").asStr (invalidField "each holder needs a pid" "holders")
  refuse (pid = "") (invalidField "each holder needs a pid" "holders")
  let role ← roleOf (value.idx "role")
  let sessionUid := value.idx "session_uid"
  let daemonId := value.idx "daemon_id"
  let evidence := (value.get? "attribution").map fun v =>
    (attribution v pid daemonId sessionUid).getD .null
  return ⟨pid, value.idx "name", sessionUid, daemonId, role, evidence, none, none, none⟩

/-- `prior` with the evidence of a later mention of the same holder. -/
def Holder.withEvidence (prior h : Holder) : Holder :=
  if h.attribution.isSome then { prior with attribution := h.attribution } else prior

/-- `_dedupe_holders`: the first mention of each holder, with the last evidence. -/
def dedupeHolders (holders : List Holder) : List Holder :=
  holders.foldl (fun seen h =>
    if seen.any (fun p => p.pid = h.pid) then
      seen.map fun p => if p.pid = h.pid then p.withEvidence h else p
    else seen ++ [h]) []

/-- `_assign_roles`: the first of the new holders becomes owner when there is none, the
rest contributors. Holders that predate roles keep theirs. -/
def assignRoles (prevPids : List String) (replaced hasOwner : Bool) : List Holder → List Holder
  | [] => []
  | h :: rest =>
    if h.role ≠ none ∨ (h.pid ∈ prevPids ∧ replaced = false) then
      h :: assignRoles prevPids replaced hasOwner rest
    else
      { h with role := some (if hasOwner then .contributor else .owner) }
        :: assignRoles prevPids replaced true rest

/-! ## History -/

section

variable [Runtime]

/-- The fields history records. -/
def Item.snapshot (it : Item) : List (String × Value) :=
  [("title", .str it.title), ("status", .str it.status.name), ("note", ofText it.note),
    ("group", ofText it.group), ("blocked_on", ofText it.blockedOn),
    ("blocked_by", .arr (it.blockedBy.toList.map fun b => .num b)),
    ("check_back_at", iso it.checkBackAt), ("eta_at", iso it.etaAt), ("job", ofText it.job),
    ("group_id", ofText it.groupId), ("links", .arr (it.links.map .str)),
    ("holders", .arr (it.holders.map fun h => .str h.pid)),
    ("owner", ofText ((it.holders.find? Holder.owns).map Holder.pid))]

end

end Board
