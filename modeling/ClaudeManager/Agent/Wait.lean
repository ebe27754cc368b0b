import ClaudeManager.Agent.Derive
import ClaudeManager.Text.Numbers
import ClaudeManager.Workflow.Transcript

/-!
# Permission waits of Claude

The tail of a transcript is read for the result of the call that a permission was waited for.

* `Key` — the wait, with the tool that it is about
* `readRow` — what a line is: a turn of the conversation, or nothing to look at
* `resolvedAt` — when the call that waited got its result
* `Answered` — what such a time says about the turns of the tail
* `resolvedAt_answered` — it is that of the call's own result, and stays
-/

namespace Agent.Wait

open Json Text ClaudeManager

/-! ## Waits -/

/-- A wait for a permission, seen by a hook or in the status file, since a floor. -/
structure Key where
  hookAt : Option Time
  presenceAt : Option Time
  toolId : Option String
  toolName : Option String
  floor : Time
  seen : hookAt.isSome ∨ presenceAt.isSome

theorem maxTime_isSome {a b : Option Time} (h : a.isSome ∨ b.isSome) : (maxTime a b).isSome := by
  cases a <;> cases b <;> simp_all [maxTime]

namespace Key

/-- The time of the wait. -/
def at_ (key : Key) : Time := (maxTime key.hookAt key.presenceAt).get (maxTime_isSome key.seen)

def new (hooks : HookEdges) (presence : PresenceObs) (floor : Time) : Option Key :=
  let hookAt := (hooks.waitingAt.filter (floor < ·)).filter fun _ => Inputs.isPermission hooks.waitingFor
  let presenceAt := (presence.statusUpdatedAt.filter (floor < ·)).filter fun _ =>
    presence.status = .waiting && Inputs.isPermission presence.waitingFor
  if h : hookAt.isSome ∨ presenceAt.isSome then
    let hookIsLatest := hookAt = maxTime hookAt presenceAt
    some { hookAt, presenceAt, floor
           toolId := if hookIsLatest then hooks.waitingToolId else none
           toolName := if hookIsLatest then hooks.openTool else none
           seen := h }
  else none

end Key

/-! ## Stamps -/

/-- Days from 1970-01-01 to a date. -/
def daysFromCivil (y : Int) (m d : Nat) : Option Int :=
  if m < 1 ∨ 12 < m ∨ d < 1 ∨ 31 < d then none
  else
    let y := if m ≤ 2 then y - 1 else y
    let era := (if y ≥ 0 then y else y - 399).tdiv 400
    let yoe := y - era * 400
    let doy : Int := ((153 * (if 2 < m then m - 3 else m + 9) + 2) / 5 + d - 1 : Nat)
    let doe := yoe * 365 + yoe.tdiv 4 - yoe.tdiv 100 + doy
    some (era * 146097 + doe - 719468)

/-- A number without a sign, or with a plus. -/
def parseU32 : List Char → Option Nat
  | '+' :: ds => (digitsValue ds).map Int.toNat
  | ds => (digitsValue ds).map Int.toNat

def field (s : List Char) (low high : Nat) : Option Nat := (slice s low high).bind parseU32

/-- The first three digits after the first dot. -/
def fraction (s : List Char) : Nat :=
  match s.dropWhile (· ≠ '.') with
  | [] => 0
  | _ :: rest => ((parseU32 ((rest.takeWhile Char.isDigit).take 3))).getD 0

/-- Milliseconds since 1970, in 64 bits that wrap around for earlier days. -/
def iso8601ToMs (s : List Char) : Option Nat := do
  guard (20 ≤ utf8Len s ∧ byteIs s 4 '-' ∧ byteIs s 7 '-' ∧ byteIs s 10 'T')
  let year ← (slice s 0 4).bind parseInt
  let month ← field s 5 7
  let day ← field s 8 10
  let hour ← field s 11 13
  let minute ← field s 14 16
  let second ← field s 17 19
  let days ← daysFromCivil year month day
  let secs := ((days % 2 ^ 64).toNat * 86400 + hour * 3600 + minute * 60 + second) % 2 ^ 64
  return (secs * 1000 + fraction s) % 2 ^ 64

/-! ## Rows -/

inductive Kind where
  | assistant
  | user
  | system
  deriving DecidableEq

def Kind.of (s : String) : Option Kind :=
  if s = "assistant" then some .assistant
  else if s = "user" then some .user
  else if s = "system" then some .system
  else none

/-- A row of the main conversation. -/
structure Turn where
  at_ : Time
  kind : Kind
  isMeta : Bool
  content : Option Value

/-- A call that a tool was asked for. -/
structure Call where
  name : String
  foreground : Bool
  deriving DecidableEq

def short (v : Option Value) : Option String :=
  (v.bind Value.asStr).filter fun s => s ≠ "" && s.utf8ByteSize ≤ 256

/-- Records that are written between the turns. -/
def isClaudeBookkeeping (kind : String) : Bool :=
  kind ∈ ["api-request", "api-request-blob", "ai-title", "mode", "permission-mode", "session-owner",
    "atis-latch", "file-history-delta"]

/-- A row of another conversation. -/
def isSidechain (row : Value) : Bool :=
  (row.get? "isSidechain").bind Value.asBool = some true
    || ["agentId", "agent_id", "parentToolUseID", "parentToolUseId"].any fun key =>
      (row.get? key).any fun v => v ≠ .null

/-- A row that says nothing about turns, calls or permissions. -/
def isAside (row : Value) (kind : String) : Bool :=
  kind ∈ ["progress", "file-history-snapshot", "last-prompt", "summary", "attachment", "queue-operation"]
    || isClaudeBookkeeping kind
    || (kind = "system" && (row.get? "subtype").bind Value.asStr != some "turn_duration")

/-- The time of a row. It must be in UTC. -/
def stampOf (row : Value) : Option Time := do
  let stamp ← (row.get? "timestamp").bind Value.asStr
  guard (hasSuffix stamp "Z")
  let ms ← iso8601ToMs stamp.toList
  return (ms : Time) / 1000

/-- A turn, nothing to look at, or a row that makes the tail unusable. -/
def readRow (native : String) (row : Value) : Option (Option Turn) :=
  if isSidechain row then some none
  else do
    let kind ← typeOf row
    if isAside row kind then some none
    else
      let kind ← Kind.of kind
      guard ((row.get? "sessionId").bind Value.asStr = some native)
      let at_ ← stampOf row
      return some { at_, kind
                    isMeta := (row.get? "isMeta").bind Value.asBool = some true
                    content := pointer row "message" "content" }

/-! ## Blocks of a turn -/

/-- The turn is over here, or the user says something. -/
def Turn.boundary (t : Turn) : Bool :=
  t.kind = .system || (t.kind = .user && t.content.any fun c =>
    c.isStr || (c.asArr.any fun blocks => blocks.any fun b => typeOf b = some "text"))

def Turn.blocks (t : Turn) : List Value := (t.content.bind Value.asArr).getD []

def isForeground (name : String) (block : Value) : Bool :=
  (pointer block "input" "run_in_background").all (· = .bool false)
    && !decide ("__chat_".toList <:+: name.toList) && name ≠ "SendMessage"

/-- The call that a block is, if its id and its name can be read. -/
def callOf (block : Value) : Option (String × Call) := do
  let id ← short (block.get? "id")
  let name ← short (block.get? "name")
  return (id, ⟨name, isForeground name block⟩)

/-- The call that a block has the result of. -/
def resultOf (block : Value) : Option String := short (block.get? "tool_use_id")

/-! ## The scan -/

structure Scan where
  calls : List (String × Call) := []
  anchored : Bool := false
  priorAt : Option Time := none
  selected : Option String := none
  chose : Bool := false
  resolved : Option Time := none

namespace Scan

variable (key : Key) (s : Scan)

def call? (id : String) : Option Call := (s.calls.find? (·.1 = id)).map (·.2)

/-- The call that the wait is about: the one that it names, or the only one since a boundary. -/
def select : Option String :=
  match key.toolId with
  | some id => ((s.call? id).filter (·.foreground)).map fun _ => id
  | none =>
    if s.anchored ∧ s.calls.length = 1 then (s.calls.head?.filter (·.2.foreground)).map (·.1) else none

/-- At the first turn after the wait, the call is chosen. -/
def choose (at_ : Time) : Option Scan :=
  if key.at_ < at_ ∧ s.chose = false then
    let selected := s.select key
    if (selected.bind s.call?).any fun c => key.toolName.any (· ≠ c.name) then none
    else some { s with chose := true, selected }
  else some s

/-- One block of a turn. -/
def block (at_ : Time) (kind : Kind) (b : Value) : Option Scan :=
  if kind = .assistant ∧ typeOf b = some "tool_use" ∧ at_ ≤ key.at_ then do
    let (id, call) ← callOf b
    if (s.call? id).isSome then none else some { s with calls := s.calls ++ [(id, call)] }
  else if kind = .user ∧ typeOf b = some "tool_result" then do
    let id ← resultOf b
    if at_ ≤ key.at_ then some { s with calls := s.calls.filter (·.1 ≠ id) }
    else if s.selected = some id then some { s with resolved := s.resolved <|> some at_ }
    else some s
  else some s

/-- What a turn does that is not one of the harness. -/
def shown (t : Turn) : Option Scan :=
  if t.boundary then
    if t.at_ ≤ key.at_ then some { s with anchored := true, calls := [] }
    else if s.resolved.isNone then none
    else some s
  else t.blocks.foldlM (fun s b => s.block key t.at_ t.kind b) s

/-- One turn. Those before the floor are of another incarnation. -/
def turn (t : Turn) : Option Scan :=
  if s.priorAt.any (t.at_ < ·) then none
  else if t.at_ < key.floor then some s
  else do
    let s ← choose key { s with priorAt := some t.at_ } t.at_
    if t.isMeta then some s else s.shown key t

end Scan

/-- One line. A turn of the future is tried again when it is over. -/
def scanRow (native : String) (key : Key) (now : Time) (s : Scan) (row : Value) : Except (Option Time) Scan :=
  match readRow native row with
  | none => .error none
  | some none => .ok s
  | some (some t) =>
    if now < t.at_ then .error (some t.at_)
    else
      match s.turn key t with
      | none => .error none
      | some s => .ok s

section

variable [JsonText]

/-- The lines of a tail that are not blank. -/
def tailLines (text : List Char) : List (List Char) := (lines text).filter fun l => !l.all isWhitespace

def scanLine (native : String) (key : Key) (now : Time) (s : Scan) (line : List Char) : Except (Option Time) Scan :=
  match JsonText.parse line with
  | none => .error none
  | some row => scanRow native key now s row

/-- When the call that waited got its result, or else when to try again. -/
def resolvedAt (text : List Char) (native : Option String) (key : Key) (now : Time) : Option Time × Option Time :=
  match native with
  | none => (none, none)
  | some native =>
    match (tailLines text).foldlM (scanLine native key now) {} with
    | .error retryAt => (none, retryAt)
    | .ok s => (s.resolved, none)

end

/-! ## What the turns of a tail say -/

def callsIn (blocks : List Value) : List (String × Call) :=
  (blocks.filter (typeOf · = some "tool_use")).filterMap callOf

def resultsIn (blocks : List Value) : List String :=
  (blocks.filter (typeOf · = some "tool_result")).filterMap resultOf

/-- The calls of a turn. -/
def Turn.calls (t : Turn) : List (String × Call) := if t.kind = .assistant then callsIn t.blocks else []

/-- The calls that a turn has results of. -/
def Turn.results (t : Turn) : List String := if t.kind = .user then resultsIn t.blocks else []

/-- The turns from the floor to the wait. -/
def early (key : Key) (ts : List Turn) : List Turn :=
  ts.filter fun t => !t.isMeta && key.floor ≤ t.at_ && t.at_ ≤ key.at_

/-- The turns after the wait. -/
def late (key : Key) (ts : List Turn) : List Turn :=
  ts.filter fun t => !t.isMeta && key.floor ≤ t.at_ && key.at_ < t.at_

/-- A call without a result, in the turn that is not over. -/
def Open (ts : List Turn) (id : String) (call : Call) : Prop :=
  ∃ before t after, ts = before ++ t :: after ∧ (id, call) ∈ t.calls
    ∧ ∀ u ∈ after, u.boundary = false ∧ id ∉ u.results

/-- The call that the wait is about. -/
structure Awaited (key : Key) (ts : List Turn) (id : String) (call : Call) : Prop where
  called : Open (early key ts) id call
  foreground : call.foreground = true
  named : ∀ name, key.toolName = some name → name = call.name
  only : key.toolId = some id ∨ key.toolId = none ∧ (∃ u ∈ early key ts, u.boundary = true)
    ∧ ∀ other c, Open (early key ts) other c → other = id ∧ c = call

/-- The first result of a call is at this time, before the turn is over. -/
def FirstResult (ts : List Turn) (id : String) (at_ : Time) : Prop :=
  ∃ between r after, ts = between ++ r :: after ∧ r.at_ = at_ ∧ id ∈ r.results ∧ r.boundary = false
    ∧ ∀ u ∈ between, u.boundary = false ∧ id ∉ u.results

/-! ## The turns one by one -/

section

variable {key : Key} {ts : List Turn} {t : Turn} {s s' : Scan} {id : String} {call : Call} {at_ : Time}

theorem early_append : early key (ts ++ [t]) =
    early key ts ++ if !t.isMeta && key.floor ≤ t.at_ && t.at_ ≤ key.at_ then [t] else [] := by
  unfold early
  rw [List.filter_append]
  split <;> simp_all

theorem late_append : late key (ts ++ [t]) =
    late key ts ++ if !t.isMeta && key.floor ≤ t.at_ && key.at_ < t.at_ then [t] else [] := by
  unfold late
  rw [List.filter_append]
  split <;> simp_all

theorem open_append : Open (ts ++ [t]) id call ↔
    (id, call) ∈ t.calls ∨ Open ts id call ∧ t.boundary = false ∧ id ∉ t.results := by
  constructor
  · rintro ⟨before, u, after, hsplit, hcall, hafter⟩
    obtain rfl | ⟨rest, last, rfl⟩ := after.eq_nil_or_concat'
    · obtain ⟨-, hu⟩ := List.append_inj' hsplit rfl
      rw [List.singleton_inj.mp hu]
      exact .inl hcall
    · rw [← List.cons_append, ← List.append_assoc] at hsplit
      obtain ⟨rfl, ht⟩ := List.append_inj' hsplit rfl
      obtain rfl := List.singleton_inj.mp ht
      exact .inr ⟨⟨before, u, rest, rfl, hcall, fun v hv => hafter v (List.mem_append_left _ hv)⟩,
        hafter t (List.mem_append_right _ (List.mem_singleton_self t))⟩
  · rintro (hcall | ⟨⟨before, u, after, rfl, hcall, hafter⟩, ht⟩)
    · exact ⟨ts, t, [], rfl, hcall, fun u hu => by cases hu⟩
    · refine ⟨before, u, after ++ [t], by simp, hcall, fun v hv => ?_⟩
      rcases List.mem_append.mp hv with hv | hv
      · exact hafter v hv
      · rw [List.mem_singleton.mp hv]
        exact ht

theorem FirstResult.append (h : FirstResult ts id at_) (more : List Turn) : FirstResult (ts ++ more) id at_ := by
  obtain ⟨between, r, after, rfl, h⟩ := h
  exact ⟨between, r, after ++ more, by simp, h⟩

theorem mem_of_call? (h : s.call? id = some call) : (id, call) ∈ s.calls := by
  obtain ⟨p, hp, rfl⟩ := Option.map_eq_some_iff.mp h
  have hid : p.1 = id := by simpa using List.find?_some hp
  rw [← hid]
  exact List.mem_of_find?_eq_some hp

theorem call?_isSome (h : (id, call) ∈ s.calls) : (s.call? id).isSome = true := by
  unfold Scan.call?
  rw [Option.isSome_map, List.find?_isSome]
  exact ⟨_, h, decide_eq_true rfl⟩

/-- A turn that is a boundary has no calls. -/
theorem calls_of_boundary (h : t.boundary = true) : t.calls = [] := by
  unfold Turn.calls
  rw [if_neg]
  intro hkind
  unfold Turn.boundary at h
  simp [hkind] at h

/-! ## Blocks -/

variable {b : Value} {bs : List Value}

theorem callsIn_cons_call (htype : typeOf b = some "tool_use") (hcall : callOf b = some (id, call)) :
    callsIn (b :: bs) = (id, call) :: callsIn bs := by
  simp [callsIn, htype, hcall]

theorem callsIn_cons (htype : typeOf b ≠ some "tool_use") : callsIn (b :: bs) = callsIn bs := by
  simp [callsIn, htype]

theorem resultsIn_cons_result (htype : typeOf b = some "tool_result") (hresult : resultOf b = some id) :
    resultsIn (b :: bs) = id :: resultsIn bs := by
  simp [resultsIn, htype, hresult]

theorem resultsIn_cons (htype : typeOf b ≠ some "tool_result") : resultsIn (b :: bs) = resultsIn bs := by
  simp [resultsIn, htype]

/-- The calls of a turn before the wait are added. -/
theorem foldlM_calls (hearly : at_ ≤ key.at_) (hnodup : (s.calls.map (·.1)).Nodup)
    (h : bs.foldlM (fun s b => Scan.block key s at_ .assistant b) s = some s') :
    s' = { s with calls := s.calls ++ callsIn bs }
      ∧ (s'.calls.map (·.1)).Nodup := by
  induction bs generalizing s with
  | nil =>
    obtain rfl := Option.some.inj h
    simpa [callsIn] using hnodup
  | cons b bs ih =>
    rw [List.foldlM_cons] at h
    obtain ⟨m, hm, hrest⟩ := Option.bind_eq_some_iff.mp h
    unfold Scan.block at hm
    by_cases htype : typeOf b = some "tool_use"
    · rw [if_pos ⟨rfl, htype, hearly⟩] at hm
      obtain ⟨⟨id, call⟩, hcall, hm⟩ := Option.bind_eq_some_iff.mp hm
      simp only at hm
      split at hm
      · cases hm
      · rename_i hfresh
        obtain rfl := Option.some.inj hm
        have hnew : id ∉ s.calls.map (·.1) := by
          intro hid
          obtain ⟨⟨other, c⟩, hmem, rfl⟩ := List.mem_map.mp hid
          exact hfresh (call?_isSome hmem)
        obtain ⟨rfl, hnodup'⟩ := ih (by simpa [List.nodup_append] using ⟨hnodup, fun a b hab => by
          rintro rfl
          exact hnew (List.mem_map_of_mem (f := (·.1)) hab)⟩) hrest
        refine ⟨?_, hnodup'⟩
        rw [callsIn_cons_call htype hcall, List.append_assoc]
        rfl
    · rw [if_neg (by simp [htype]), if_neg (by simp)] at hm
      obtain rfl := Option.some.inj hm
      obtain ⟨hs, hnodup'⟩ := ih hnodup hrest
      exact ⟨by rw [hs, callsIn_cons htype], hnodup'⟩

/-- The results of a turn before the wait close calls. -/
theorem foldlM_results (hearly : at_ ≤ key.at_)
    (h : bs.foldlM (fun s b => Scan.block key s at_ .user b) s = some s') :
    s' = { s with calls := s.calls.filter (·.1 ∉ resultsIn bs) } := by
  induction bs generalizing s with
  | nil =>
    obtain rfl := Option.some.inj h
    simp [resultsIn]
  | cons b bs ih =>
    rw [List.foldlM_cons] at h
    obtain ⟨m, hm, hrest⟩ := Option.bind_eq_some_iff.mp h
    unfold Scan.block at hm
    rw [if_neg (by simp)] at hm
    by_cases htype : typeOf b = some "tool_result"
    · rw [if_pos ⟨rfl, htype⟩] at hm
      obtain ⟨id, hid, hm⟩ := Option.bind_eq_some_iff.mp hm
      rw [if_pos hearly] at hm
      obtain rfl := Option.some.inj hm
      rw [ih hrest, resultsIn_cons_result htype hid]
      simp [List.filter_filter, Bool.and_comm]
    · rw [if_neg (by simp [htype])] at hm
      obtain rfl := Option.some.inj hm
      rw [ih hrest, resultsIn_cons htype]

/-- After the wait, calls are not looked at. -/
theorem foldlM_late_calls (hlate : key.at_ < at_)
    (h : bs.foldlM (fun s b => Scan.block key s at_ .assistant b) s = some s') : s' = s := by
  induction bs generalizing s with
  | nil => exact (Option.some.inj h).symm
  | cons b bs ih =>
    rw [List.foldlM_cons] at h
    obtain ⟨m, hm, hrest⟩ := Option.bind_eq_some_iff.mp h
    unfold Scan.block at hm
    rw [if_neg (by simp [not_le.mpr hlate]), if_neg (by simp)] at hm
    obtain rfl := Option.some.inj hm
    exact ih hrest

/-- After the wait, the first result of the chosen call is taken. -/
theorem foldlM_late_results (hlate : key.at_ < at_)
    (h : bs.foldlM (fun s b => Scan.block key s at_ .user b) s = some s') :
    s' = { s with resolved := s.resolved <|> if s.selected.any (· ∈ resultsIn bs) then some at_ else none } := by
  induction bs generalizing s with
  | nil =>
    obtain rfl := Option.some.inj h
    simp [resultsIn]
  | cons b bs ih =>
    rw [List.foldlM_cons] at h
    obtain ⟨m, hm, hrest⟩ := Option.bind_eq_some_iff.mp h
    unfold Scan.block at hm
    rw [if_neg (by simp)] at hm
    by_cases htype : typeOf b = some "tool_result"
    · rw [if_pos ⟨rfl, htype⟩] at hm
      obtain ⟨id, hid, hm⟩ := Option.bind_eq_some_iff.mp hm
      rw [if_neg (not_le.mpr hlate)] at hm
      split at hm
      · rename_i hselected
        obtain rfl := Option.some.inj hm
        rw [ih hrest, resultsIn_cons_result htype hid]
        cases s.resolved <;> simp [hselected]
      · rename_i hselected
        obtain rfl := Option.some.inj hm
        have hsame : s.selected.any (· ∈ id :: resultsIn bs) = s.selected.any (· ∈ resultsIn bs) := by
          cases hsel : s.selected with
          | none => rfl
          | some sel =>
            have hne : sel ≠ id := fun he => hselected (by rw [hsel, he])
            simp [hne]
        rw [ih hrest, resultsIn_cons_result htype hid, hsame]
    · rw [if_neg (by simp [htype])] at hm
      obtain rfl := Option.some.inj hm
      rw [ih hrest, resultsIn_cons htype]

/-! ## What the scan keeps -/

/-- The state says what the turns so far say. -/
structure Inv (key : Key) (ts : List Turn) (s : Scan) : Prop where
  calls : ∀ id call, (id, call) ∈ s.calls ↔ Open (early key ts) id call
  nodup : (s.calls.map (·.1)).Nodup
  anchored : s.anchored = true ↔ ∃ u ∈ early key ts, u.boundary = true
  fresh : s.chose = false → late key ts = [] ∧ s.selected = none ∧ s.resolved = none
  chosen : s.chose = true → ∃ p, s.priorAt = some p ∧ key.at_ < p
  selected : ∀ id, s.selected = some id → ∃ call, Awaited key ts id call
  pending : s.resolved = none → ∀ u ∈ late key ts, u.boundary = false ∧ ∀ id, s.selected = some id → id ∉ u.results
  resolved : ∀ at_, s.resolved = some at_ → ∃ id, s.selected = some id ∧ FirstResult (late key ts) id at_

theorem inv_start : Inv key [] {} where
  calls id call := by
    refine ⟨fun h => (by cases h), ?_⟩
    rintro ⟨before, t, after, hsplit, -⟩
    simp [early] at hsplit
  nodup := List.nodup_nil
  anchored := by simp [early]
  fresh _ := ⟨rfl, rfl, rfl⟩
  chosen h := by cases h
  selected id h := by cases h
  pending _ u hu := by cases hu
  resolved at_ h := by cases h

theorem call?_eq (hnodup : (s.calls.map (·.1)).Nodup) (h : (id, call) ∈ s.calls) : s.call? id = some call := by
  obtain ⟨c, hc⟩ := Option.isSome_iff_exists.mp (call?_isSome h)
  have hmem := mem_of_call? hc
  have hsame : (id, c) = (id, call) := List.inj_on_of_nodup_map hnodup hmem h rfl
  obtain rfl : c = call := (Prod.mk.inj hsame).2
  exact hc

/-- What is chosen is what is waited for. -/
theorem Inv.awaited (h : Inv key ts s) (hselect : s.select key = some id)
    (hname : ((some id).bind s.call?).any (fun c => key.toolName.any (· ≠ c.name)) = false) :
    ∃ call, Awaited key ts id call := by
  have hagree : ∀ call, (id, call) ∈ s.calls → ∀ name, key.toolName = some name → name = call.name := by
    intro call hmem name hname'
    rw [Option.bind_some, call?_eq h.nodup hmem, Option.any_some, hname', Option.any_some] at hname
    simpa using hname
  unfold Scan.select at hselect
  cases hid : key.toolId with
  | some own =>
    simp only [hid] at hselect
    obtain ⟨call, hcall, rfl⟩ := Option.map_eq_some_iff.mp hselect
    obtain ⟨hcall, hforeground⟩ := Option.filter_eq_some_iff.mp hcall
    have hmem := mem_of_call? hcall
    exact ⟨call, (h.calls _ _).mp hmem, hforeground, hagree call hmem, .inl hid⟩
  | none =>
    simp only [hid] at hselect
    split at hselect
    · rename_i hone
      obtain ⟨c, hcalls⟩ := List.length_eq_one_iff.mp hone.2
      rw [hcalls] at hselect
      obtain ⟨c', hc', rfl⟩ := Option.map_eq_some_iff.mp hselect
      obtain ⟨hc', hforeground⟩ := Option.filter_eq_some_iff.mp hc'
      obtain rfl := Option.some.inj hc'
      have hmem : (c.1, c.2) ∈ s.calls := by rw [hcalls]; exact List.mem_singleton_self c
      refine ⟨c.2, (h.calls _ _).mp hmem, hforeground, hagree c.2 hmem,
        .inr ⟨hid, h.anchored.mp hone.1, fun other c' hother => ?_⟩⟩
      have hmem' := (h.calls _ _).mpr hother
      rw [hcalls, List.mem_singleton] at hmem'
      rw [← hmem']
      exact ⟨rfl, rfl⟩
    · cases hselect

/-- The choice keeps what the state says, and is made at the first turn after the wait. -/
theorem Inv.choose (h : Inv key ts s) (hprior : s.priorAt.any (at_ < ·) = false)
    (hchoose : Scan.choose key { s with priorAt := some at_ } at_ = some s') :
    Inv key ts s' ∧ (s'.chose = true ↔ key.at_ < at_) ∧ s'.priorAt = some at_ := by
  unfold Scan.choose at hchoose
  split at hchoose
  · rename_i hfirst
    obtain ⟨hlate, hselected, hresolved⟩ := h.fresh hfirst.2
    simp only at hchoose
    split at hchoose
    · cases hchoose
    · rename_i hname
      obtain rfl := Option.some.inj hchoose
      refine ⟨⟨h.calls, h.nodup, h.anchored, fun hf => (by cases hf), fun _ => ⟨at_, rfl, hfirst.1⟩, fun id hid => ?_,
        fun _ u hu => ?_, fun r hr => ?_⟩, ⟨fun _ => hfirst.1, fun _ => rfl⟩, rfl⟩
      · change s.select key = some id at hid
        rw [Bool.not_eq_true] at hname
        refine h.awaited hid ?_
        rw [← hid]
        exact hname
      · rw [hlate] at hu
        cases hu
      · rw [show s.resolved = some r from hr] at hresolved
        cases hresolved
  · rename_i hnot
    obtain rfl := Option.some.inj hchoose
    have hiff : s.chose = true ↔ key.at_ < at_ := by
      constructor
      · intro hchose
        obtain ⟨p, hp, hlt⟩ := h.chosen hchose
        rw [hp, Option.any_some, decide_eq_false_iff_not, not_lt] at hprior
        exact lt_of_lt_of_le hlt hprior
      · intro hlt
        by_contra hchose
        exact hnot ⟨hlt, Bool.not_eq_true _ ▸ hchose⟩
    exact ⟨⟨h.calls, h.nodup, h.anchored, h.fresh, fun hchose => ⟨at_, rfl, hiff.mp hchose⟩, h.selected, h.pending,
      h.resolved⟩, hiff, rfl⟩

theorem Awaited.of_early {ts' : List Turn} (h : Awaited key ts id call) (hsame : early key ts' = early key ts) :
    Awaited key ts' id call where
  called := by rw [hsame]; exact h.called
  foreground := h.foreground
  named := h.named
  only := by rw [hsame]; exact h.only

/-- A turn that is not counted changes nothing. -/
theorem Inv.skip (h : Inv key ts s) (hskip : t.isMeta = true ∨ t.at_ < key.floor) : Inv key (ts ++ [t]) s := by
  have hearly : early key (ts ++ [t]) = early key ts := by
    rw [early_append, if_neg, List.append_nil]
    rcases hskip with hskip | hskip <;> simp [hskip]
  have hlate : late key (ts ++ [t]) = late key ts := by
    rw [late_append, if_neg, List.append_nil]
    rcases hskip with hskip | hskip <;> simp [hskip]
  refine ⟨?_, h.nodup, ?_, ?_, h.chosen, ?_, ?_, ?_⟩
  · rw [hearly]
    exact h.calls
  · rw [hearly]
    exact h.anchored
  · rw [hlate]
    exact h.fresh
  · intro id hid
    obtain ⟨call, hcall⟩ := h.selected id hid
    exact ⟨call, hcall.of_early hearly⟩
  · rw [hlate]
    exact h.pending
  · rw [hlate]
    exact h.resolved

/-- A turn up to the wait opens and closes calls. -/
theorem shown_calls (hearly : t.at_ ≤ key.at_) (hnodup : (s.calls.map (·.1)).Nodup) (hs : s.shown key t = some s') :
    s'.chose = s.chose ∧ s'.selected = s.selected ∧ s'.resolved = s.resolved
      ∧ (∀ id call, (id, call) ∈ s'.calls ↔
        (id, call) ∈ t.calls ∨ (id, call) ∈ s.calls ∧ t.boundary = false ∧ id ∉ t.results)
      ∧ (s'.calls.map (·.1)).Nodup ∧ (s'.anchored = true ↔ s.anchored = true ∨ t.boundary = true) := by
  unfold Scan.shown at hs
  cases hboundary : t.boundary with
  | true =>
    rw [if_pos hboundary, if_pos hearly] at hs
    obtain rfl := Option.some.inj hs
    simp [calls_of_boundary hboundary]
  | false =>
    rw [if_neg (by simp [hboundary])] at hs
    unfold Turn.calls Turn.results
    cases hkind : t.kind with
    | assistant =>
      rw [hkind] at hs
      obtain ⟨rfl, hnodup'⟩ := foldlM_calls hearly hnodup hs
      refine ⟨rfl, rfl, rfl, fun id call => ?_, hnodup', by simp⟩
      simp [or_comm]
    | user =>
      rw [hkind] at hs
      obtain rfl := foldlM_results hearly hs
      refine ⟨rfl, rfl, rfl, fun id call => ?_, hnodup.sublist (List.filter_sublist.map _), by simp⟩
      simp
    | system => simp [Turn.boundary, hkind] at hboundary

/-- A turn after the wait has the result of the chosen call, or not. -/
theorem shown_result (hlate : key.at_ < t.at_) (hs : s.shown key t = some s') :
    s' = { s with resolved := s'.resolved } ∧ (s'.resolved = s.resolved ∧ (s.resolved = none →
      t.boundary = false ∧ ∀ id, s.selected = some id → id ∉ t.results)
      ∨ s.resolved = none ∧ s'.resolved = some t.at_ ∧ t.boundary = false ∧
        ∃ id, s.selected = some id ∧ id ∈ t.results) := by
  unfold Scan.shown at hs
  cases hboundary : t.boundary with
  | true =>
    rw [if_pos hboundary, if_neg (not_le.mpr hlate)] at hs
    split at hs
    · cases hs
    · rename_i hfound
      obtain rfl := Option.some.inj hs
      refine ⟨rfl, .inl ⟨rfl, fun hnone => ?_⟩⟩
      rw [hnone] at hfound
      exact absurd rfl hfound
  | false =>
    rw [if_neg (by simp [hboundary])] at hs
    unfold Turn.results
    cases hkind : t.kind with
    | assistant =>
      rw [hkind] at hs
      obtain rfl := foldlM_late_calls hlate hs
      exact ⟨rfl, .inl ⟨rfl, fun _ => ⟨rfl, fun id _ h => by simp at h⟩⟩⟩
    | user =>
      rw [hkind] at hs
      obtain rfl := foldlM_late_results hlate hs
      refine ⟨rfl, ?_⟩
      simp only [if_true]
      cases hresolved : s.resolved with
      | some r => exact .inl ⟨rfl, fun h => by cases h⟩
      | none =>
        cases hselected : s.selected with
        | none => exact .inl ⟨rfl, fun _ => ⟨trivial, fun id h => by cases h⟩⟩
        | some sel =>
          by_cases hmem : sel ∈ resultsIn t.blocks
          · exact .inr ⟨rfl, by simp [hmem], trivial, sel, rfl, hmem⟩
          · refine .inl ⟨by simp [hmem], fun _ => ⟨trivial, fun id h => ?_⟩⟩
            rw [← Option.some.inj h]
            exact hmem
    | system => simp [Turn.boundary, hkind] at hboundary

/-- A turn up to the wait: boundaries, calls and results. -/
theorem Inv.shown_early (h : Inv key ts s) (hearly : t.at_ ≤ key.at_) (hfloor : key.floor ≤ t.at_)
    (hmeta : t.isMeta = false) (hchose : s.chose = false) (hs : s.shown key t = some s') :
    Inv key (ts ++ [t]) s' := by
  have hnext : early key (ts ++ [t]) = early key ts ++ [t] := by
    rw [early_append, if_pos (by simp [hmeta, hfloor, hearly])]
  have hlate : late key (ts ++ [t]) = late key ts := by
    rw [late_append, if_neg (by simp [not_lt.mpr hearly]), List.append_nil]
  obtain ⟨hnone, hselected, hresolved⟩ := h.fresh hchose
  -- Only the calls and whether a boundary was seen can change.
  have hcase : s'.chose = s.chose ∧ s'.selected = s.selected ∧ s'.resolved = s.resolved
      ∧ (∀ id call, (id, call) ∈ s'.calls ↔
        (id, call) ∈ t.calls ∨ (id, call) ∈ s.calls ∧ t.boundary = false ∧ id ∉ t.results)
      ∧ (s'.calls.map (·.1)).Nodup ∧ (s'.anchored = true ↔ s.anchored = true ∨ t.boundary = true) :=
    shown_calls hearly h.nodup hs
  obtain ⟨hchose', hselected', hresolved', hcalls, hnodup, hanchored⟩ := hcase
  rw [hselected] at hselected'
  rw [hresolved] at hresolved'
  refine ⟨fun id call => ?_, hnodup, ?_, fun _ => ⟨hlate.trans hnone, hselected', hresolved'⟩, fun hc => ?_,
    fun id hid => ?_, fun _ u hu => ?_, fun r hr => ?_⟩
  · rw [hnext, open_append, hcalls, h.calls]
  · rw [hnext, hanchored, h.anchored]
    simp [or_and_right, exists_or]
  · rw [hchose', hchose] at hc
    cases hc
  · rw [hselected'] at hid
    cases hid
  · rw [hlate, hnone] at hu
    cases hu
  · rw [hresolved'] at hr
    cases hr

/-- A turn after the wait: the first result of the chosen call, and no boundary before it. -/
theorem Inv.shown_late (h : Inv key ts s) (hlate : key.at_ < t.at_) (hfloor : key.floor ≤ t.at_)
    (hmeta : t.isMeta = false) (hchose : s.chose = true) (hs : s.shown key t = some s') :
    Inv key (ts ++ [t]) s' := by
  have hearly : early key (ts ++ [t]) = early key ts := by
    rw [early_append, if_neg (by simp [not_le.mpr hlate]), List.append_nil]
  have hnext : late key (ts ++ [t]) = late key ts ++ [t] := by
    rw [late_append, if_pos (by simp [hmeta, hfloor, hlate])]
  -- Only the result can be found.
  have hcase : s' = { s with resolved := s'.resolved } ∧ (s'.resolved = s.resolved ∧ (s.resolved = none →
      t.boundary = false ∧ ∀ id, s.selected = some id → id ∉ t.results)
      ∨ s.resolved = none ∧ s'.resolved = some t.at_ ∧ t.boundary = false ∧
        ∃ id, s.selected = some id ∧ id ∈ t.results) :=
    shown_result hlate hs
  obtain ⟨hs', hresolved⟩ := hcase
  rw [hs']
  refine ⟨?_, h.nodup, ?_, fun hc => ?_, h.chosen, fun id hid => ?_, fun hr u hu => ?_, fun r hr => ?_⟩
  · rw [hearly]
    exact h.calls
  · rw [hearly]
    exact h.anchored
  · rw [show s.chose = false from hc] at hchose
    cases hchose
  · obtain ⟨call, hcall⟩ := h.selected id hid
    exact ⟨call, hcall.of_early hearly⟩
  · change s'.resolved = none at hr
    rcases hresolved with ⟨hsame, ht⟩ | ⟨-, hfound, -⟩
    · rw [hsame] at hr
      rw [hnext] at hu
      rcases List.mem_append.mp hu with hu | hu
      · exact h.pending hr u hu
      · rw [List.mem_singleton.mp hu]
        exact ht hr
    · rw [hfound] at hr
      cases hr
  · change s'.resolved = some r at hr
    rcases hresolved with ⟨hsame, -⟩ | ⟨hnone, hfound, hboundary, id, hid, hresult⟩
    · rw [hsame] at hr
      obtain ⟨id, hid, hfirst⟩ := h.resolved r hr
      exact ⟨id, hid, hnext ▸ hfirst.append [t]⟩
    · rw [hfound] at hr
      obtain rfl := Option.some.inj hr
      refine ⟨id, hid, late key ts, t, [], hnext, rfl, hresult, hboundary, fun u hu => ?_⟩
      obtain ⟨hu, hnot⟩ := h.pending hnone u hu
      exact ⟨hu, hnot id hid⟩

/-- One turn keeps what the state says. -/
theorem Inv.turn (h : Inv key ts s) (hs : s.turn key t = some s') : Inv key (ts ++ [t]) s' := by
  unfold Scan.turn at hs
  split at hs
  · cases hs
  · rename_i hprior
    rw [Bool.not_eq_true] at hprior
    split at hs
    · rename_i hfloor
      obtain rfl := Option.some.inj hs
      exact h.skip (.inr hfloor)
    · rename_i hfloor
      obtain ⟨m, hm, hs⟩ := Option.bind_eq_some_iff.mp hs
      obtain ⟨hinv, hchose, -⟩ := h.choose hprior hm
      split at hs
      · rename_i hmeta
        obtain rfl := Option.some.inj hs
        exact hinv.skip (.inl hmeta)
      · rename_i hmeta
        rw [Bool.not_eq_true] at hmeta
        rcases le_or_gt t.at_ key.at_ with hearly | hlate
        · refine hinv.shown_early hearly (not_lt.mp hfloor) hmeta ?_ hs
          rw [← Bool.not_eq_true, hchose]
          exact not_lt.mpr hearly
        · exact hinv.shown_late hlate (not_lt.mp hfloor) hmeta (hchose.mpr hlate) hs

theorem foldlM_keeps {P : Scan → Prop} {bs : List Value} {kind : Kind}
    (hstep : ∀ m m' b, P m → Scan.block key m at_ kind b = some m' → P m') (h : P s)
    (hs : bs.foldlM (fun s b => Scan.block key s at_ kind b) s = some s') : P s' := by
  induction bs generalizing s with
  | nil =>
    obtain rfl := Option.some.inj hs
    exact h
  | cons b bs ih =>
    rw [List.foldlM_cons] at hs
    obtain ⟨m, hm, hrest⟩ := Option.bind_eq_some_iff.mp hs
    exact ih (hstep s m b h hm) hrest

theorem block_prior {b : Value} {kind : Kind} (hs : Scan.block key s at_ kind b = some s') :
    s'.priorAt = s.priorAt := by
  unfold Scan.block at hs
  split at hs
  · obtain ⟨⟨id, call⟩, -, hs⟩ := Option.bind_eq_some_iff.mp hs
    simp only at hs
    split at hs
    · cases hs
    · rw [← Option.some.inj hs]
  · split at hs
    · obtain ⟨id, -, hs⟩ := Option.bind_eq_some_iff.mp hs
      split at hs
      · rw [← Option.some.inj hs]
      · split at hs <;> rw [← Option.some.inj hs]
    · rw [← Option.some.inj hs]

theorem shown_prior (hs : s.shown key t = some s') : s'.priorAt = s.priorAt := by
  unfold Scan.shown at hs
  split at hs
  · split at hs
    · rw [← Option.some.inj hs]
    · split at hs
      · cases hs
      · rw [← Option.some.inj hs]
  · exact foldlM_keeps (P := fun m => m.priorAt = s.priorAt) (fun m m' b hm hb => (block_prior hb).trans hm) rfl hs

theorem choose_prior (hs : s.choose key at_ = some s') : s'.priorAt = s.priorAt := by
  unfold Scan.choose at hs
  split at hs
  · simp only at hs
    split at hs
    · cases hs
    · rw [← Option.some.inj hs]
  · rw [← Option.some.inj hs]

/-- The turns from the floor on are in time order, and the last one's time is kept. -/
structure Timed (key : Key) (ts : List Turn) (s : Scan) : Prop where
  ordered : (ts.filter (key.floor ≤ ·.at_)).Pairwise (·.at_ ≤ ·.at_)
  last : ∀ u ∈ ts, key.floor ≤ u.at_ → ∃ p, s.priorAt = some p ∧ u.at_ ≤ p
  prior : ∀ p, s.priorAt = some p → ∃ u ∈ ts, u.at_ = p

theorem timed_start : Timed key [] {} where
  ordered := List.Pairwise.nil
  last u hu := by cases hu
  prior p hp := by cases hp

theorem Timed.turn (h : Timed key ts s) (hs : s.turn key t = some s') : Timed key (ts ++ [t]) s' := by
  unfold Scan.turn at hs
  split at hs
  · cases hs
  · rename_i hprior
    split at hs
    · rename_i hfloor
      obtain rfl := Option.some.inj hs
      refine ⟨?_, fun u hu hle => ?_, fun p hp => ?_⟩
      · rw [List.filter_append, List.filter_singleton]
        simpa [not_le.mpr hfloor] using h.ordered
      · rcases List.mem_append.mp hu with hu | hu
        · exact h.last u hu hle
        · rw [List.mem_singleton.mp hu] at hle
          exact absurd hle (not_le.mpr hfloor)
      · obtain ⟨u, hu, hup⟩ := h.prior p hp
        exact ⟨u, List.mem_append_left _ hu, hup⟩
    · obtain ⟨m, hm, hs⟩ := Option.bind_eq_some_iff.mp hs
      have hlast : s'.priorAt = some t.at_ := by
        have hm' := choose_prior hm
        split at hs
        · rw [← Option.some.inj hs]
          exact hm'
        · exact (shown_prior hs).trans hm'
      have hle : ∀ u ∈ ts, key.floor ≤ u.at_ → u.at_ ≤ t.at_ := by
        intro u hu hfloor
        obtain ⟨p, hp, hup⟩ := h.last u hu hfloor
        rw [hp, Option.any_some, decide_eq_true_eq, not_lt] at hprior
        exact hup.trans hprior
      refine ⟨?_, fun u hu hfloor => ⟨t.at_, hlast, ?_⟩, fun p hp => ⟨t, by simp, ?_⟩⟩
      · rw [List.filter_append, List.pairwise_append]
        refine ⟨h.ordered, (List.pairwise_singleton _ t).filter _, fun u hu v hv => ?_⟩
        rw [List.mem_singleton.mp (List.mem_of_mem_filter hv)]
        obtain ⟨hu, hfloor⟩ := List.mem_filter.mp hu
        exact hle u hu (of_decide_eq_true hfloor)
      · rcases List.mem_append.mp hu with hu | hu
        · exact hle u hu hfloor
        · exact (congrArg Turn.at_ (List.mem_singleton.mp hu)).le
      · exact Option.some.inj (hlast.symm.trans hp)

/-! ## What stays -/

/-- The result was found, at a time that later turns are not before. -/
structure Settled (key : Key) (at_ : Time) (s : Scan) (p : Time) : Prop where
  chose : s.chose = true
  resolved : s.resolved = some at_
  prior : s.priorAt = some p
  late : key.at_ < p

theorem foldlM_same {bs : List Value} {kind : Kind} (h : ∀ b ∈ bs, Scan.block key s t.at_ kind b = some s) :
    bs.foldlM (fun s b => Scan.block key s t.at_ kind b) s = some s := by
  induction bs with
  | nil => rfl
  | cons b bs ih =>
    rw [List.foldlM_cons, h b List.mem_cons_self]
    exact ih fun c hc => h c (List.mem_cons_of_mem b hc)

/-- A further turn does not change the result. -/
theorem Settled.turn {p : Time} (h : Settled key at_ s p) (hp : p ≤ t.at_)
    (hresults : t.kind = .user → ∀ b ∈ t.blocks, typeOf b = some "tool_result" → (resultOf b).isSome = true) :
    ∃ s' q, s.turn key t = some s' ∧ Settled key at_ s' q ∧ q ≤ t.at_ := by
  unfold Scan.turn
  rw [h.prior, Option.any_some, if_neg (by simpa using hp)]
  split
  · exact ⟨s, p, rfl, h, hp⟩
  · have hlate : key.at_ < t.at_ := lt_of_lt_of_le h.late hp
    have hchoose : Scan.choose key { s with priorAt := some t.at_ } t.at_ = some { s with priorAt := some t.at_ } := by
      unfold Scan.choose
      rw [if_neg (by simp [h.chose])]
    have hsettled : Settled key at_ { s with priorAt := some t.at_ } t.at_ := ⟨h.chose, h.resolved, rfl, hlate⟩
    refine ⟨_, t.at_, ?_, hsettled, le_rfl⟩
    rw [hchoose]
    show (if t.isMeta = true then _ else _) = _
    split
    · rfl
    · unfold Scan.shown
      split
      · rw [if_neg (not_le.mpr hlate), if_neg (by simp [h.resolved])]
      · refine foldlM_same fun b hb => ?_
        unfold Scan.block
        rw [if_neg (by simp [not_le.mpr hlate])]
        split
        · rename_i hresult
          obtain ⟨id, hid⟩ := Option.isSome_iff_exists.mp (hresults hresult.1 b hb hresult.2)
          rw [hid]
          show (if _ then _ else _) = _
          rw [if_neg (not_le.mpr hlate)]
          split
          · rw [h.resolved]
            rfl
          · rfl
        · rfl

end

/-! ## Tails -/

/-- The turns of rows. -/
def turnsOf (native : String) (rows : List Value) : List Turn := rows.filterMap fun row => (readRow native row).join

section

variable {native : String} {key : Key} {now now' : Time} {s s' : Scan} {row : Value} {rows : List Value}
  {ts : List Turn} {at_ : Time}

/-- What every turn keeps, a tail keeps. -/
theorem scanRow_keeps {P : List Turn → Scan → Prop}
    (hstep : ∀ us u m m', P us m → m.turn key u = some m' → P (us ++ [u]) m') (h : P ts s)
    (hs : scanRow native key now s row = .ok s') : P (ts ++ turnsOf native [row]) s' := by
  unfold scanRow at hs
  unfold turnsOf
  cases hrow : readRow native row with
  | none => simp [hrow] at hs
  | some aside =>
    rw [hrow] at hs
    cases aside with
    | none =>
      obtain rfl := Except.ok.inj hs
      simpa [hrow] using h
    | some t =>
      simp only at hs
      split at hs
      · cases hs
      · split at hs
        · cases hs
        · rename_i m hm
          obtain rfl := Except.ok.inj hs
          simpa [hrow] using hstep ts t s m h hm

theorem turnsOf_append (rows more : List Value) : turnsOf native (rows ++ more) = turnsOf native rows ++ turnsOf native more :=
  List.filterMap_append

theorem scanRows_keeps {P : List Turn → Scan → Prop}
    (hstep : ∀ us u m m', P us m → m.turn key u = some m' → P (us ++ [u]) m') (h : P ts s)
    (hs : rows.foldlM (scanRow native key now) s = .ok s') : P (ts ++ turnsOf native rows) s' := by
  induction rows generalizing ts s with
  | nil =>
    obtain rfl := Except.ok.inj hs
    simpa [turnsOf] using h
  | cons row rows ih =>
    rw [List.foldlM_cons] at hs
    cases hm : scanRow native key now s row with
    | error e =>
      rw [hm] at hs
      cases hs
    | ok m =>
      rw [hm] at hs
      rw [show row :: rows = [row] ++ rows from rfl, turnsOf_append, ← List.append_assoc]
      exact ih (scanRow_keeps hstep h hm) hs

/-- A row that a transcript of this session can have: one of another conversation, one of a known type
that says nothing, or a turn that is over, with the ids of its results. -/
def WellFormed (native : String) (now : Time) (row : Value) : Prop :=
  isSidechain row = true ∨ ∃ name, typeOf row = some name ∧ (isAside row name = true ∨ ∃ kind at_,
    Kind.of name = some kind ∧ (row.get? "sessionId").bind Value.asStr = some native ∧ stampOf row = some at_
      ∧ at_ ≤ now ∧ (kind = .user → ∀ b ∈ ((pointer row "message" "content").bind Value.asArr).getD [],
        typeOf b = some "tool_result" → (resultOf b).isSome = true))

theorem WellFormed.read (h : WellFormed native now row) : ∃ r, readRow native row = some r ∧ ∀ t, r = some t →
    t.at_ ≤ now ∧ (t.kind = .user → ∀ b ∈ t.blocks, typeOf b = some "tool_result" → (resultOf b).isSome = true) := by
  unfold readRow
  rcases h with hside | ⟨name, hname, haside | ⟨kind, at_, hkind, hsession, hstamp, hpast, hresults⟩⟩
  · exact ⟨none, by rw [if_pos hside], fun t ht => by cases ht⟩
  · by_cases hside : isSidechain row = true
    · exact ⟨none, by rw [if_pos hside], fun t ht => by cases ht⟩
    · exact ⟨none, by simp [hside, hname, haside], fun t ht => by cases ht⟩
  · by_cases hside : isSidechain row = true
    · exact ⟨none, by rw [if_pos hside], fun t ht => by cases ht⟩
    · by_cases haside : isAside row name = true
      · exact ⟨none, by simp [hside, hname, haside], fun t ht => by cases ht⟩
      · refine ⟨some ⟨at_, kind, (row.get? "isMeta").bind Value.asBool = some true, pointer row "message" "content"⟩,
          by simp [hside, hname, haside, hkind, hsession, hstamp], fun t ht => ?_⟩
        rw [← Option.some.inj ht]
        exact ⟨hpast, hresults⟩

/-- A later reading sees the same. -/
theorem scanRow_later (hnow : now ≤ now') (hs : scanRow native key now s row = .ok s') :
    scanRow native key now' s row = .ok s' := by
  unfold scanRow at hs ⊢
  split at hs
  · cases hs
  · exact hs
  · split at hs
    · cases hs
    · rename_i hpast
      rw [if_neg (not_lt.mpr ((not_lt.mp hpast).trans hnow))]
      exact hs

/-- Further turns are in time order, after those before them. -/
def InOrder (ts more : List Turn) : Prop :=
  (∀ t ∈ ts, ∀ u ∈ more, t.at_ ≤ u.at_) ∧ more.Pairwise (·.at_ ≤ ·.at_)

theorem Settled.scanRows {p : Time} (h : Settled key at_ s p) (hrows : ∀ row ∈ rows, WellFormed native now row)
    (hlate : ∀ u ∈ turnsOf native rows, p ≤ u.at_) (horder : (turnsOf native rows).Pairwise (·.at_ ≤ ·.at_)) :
    ∃ s', rows.foldlM (scanRow native key now) s = .ok s' ∧ s'.resolved = some at_ := by
  induction rows generalizing s p with
  | nil => exact ⟨s, rfl, h.resolved⟩
  | cons row rows ih =>
    obtain ⟨r, hread, hturn⟩ := (hrows row List.mem_cons_self).read
    have hrest : ∀ row ∈ rows, WellFormed native now row := fun r hr => hrows r (List.mem_cons_of_mem row hr)
    rw [List.foldlM_cons]
    cases r with
    | none =>
      have hrow : scanRow native key now s row = .ok s := by
        unfold scanRow
        rw [hread]
      have hnone : turnsOf native (row :: rows) = turnsOf native rows := by simp [turnsOf, hread]
      rw [hnone] at hlate horder
      rw [hrow]
      exact ih h hrest hlate horder
    | some t =>
      obtain ⟨hpast, hresults⟩ := hturn t rfl
      have hsome : turnsOf native (row :: rows) = t :: turnsOf native rows := by simp [turnsOf, hread]
      rw [hsome] at hlate horder
      obtain ⟨hfirst, horder⟩ := List.pairwise_cons.mp horder
      obtain ⟨m, q, hm, hsettled, hq⟩ := h.turn (hlate t List.mem_cons_self) hresults
      have hrow : scanRow native key now s row = .ok m := by
        unfold scanRow
        rw [hread]
        simp only [if_neg (not_lt.mpr hpast), hm]
      rw [hrow]
      exact ih hsettled hrest (fun u hu => hq.trans (hfirst u hu)) horder

end

/-! ## Texts -/

section

variable [JsonText] {text more : List Char} {native : String} {key : Key} {now now' : Time} {s s' : Scan}
  {at_ : Time} {ls : List (List Char)}

def tailRows (text : List Char) : List Value := (tailLines text).filterMap JsonText.parse

omit [JsonText] in
theorem tailLines_append (h : WholeLines text) : tailLines (text ++ more) = tailLines text ++ tailLines more := by
  unfold tailLines
  rw [lines_append h, List.filter_append]

/-- A tail that can be read is JSON line by line. -/
theorem scanLines_ok (hs : ls.foldlM (scanLine native key now) s = .ok s') :
    (ls.filterMap JsonText.parse).foldlM (scanRow native key now) s = .ok s' := by
  induction ls generalizing s with
  | nil => exact hs
  | cons l ls ih =>
    rw [List.foldlM_cons] at hs
    unfold scanLine at hs
    cases hparse : JsonText.parse l with
    | none =>
      rw [hparse] at hs
      cases hs
    | some row =>
      rw [List.filterMap_cons_some hparse, List.foldlM_cons]
      rw [hparse] at hs
      simp only at hs
      cases hm : scanRow native key now s row with
      | error e =>
        rw [hm] at hs
        cases hs
      | ok m =>
        rw [hm] at hs
        exact ih hs

theorem scanLines_later (hnow : now ≤ now') (hs : ls.foldlM (scanLine native key now) s = .ok s') :
    ls.foldlM (scanLine native key now') s = .ok s' := by
  induction ls generalizing s with
  | nil => exact hs
  | cons l ls ih =>
    rw [List.foldlM_cons] at hs ⊢
    unfold scanLine at hs ⊢
    cases hparse : JsonText.parse l with
    | none =>
      rw [hparse] at hs
      cases hs
    | some row =>
      rw [hparse] at hs
      simp only at hs ⊢
      cases hm : scanRow native key now s row with
      | error e =>
        rw [hm] at hs
        cases hs
      | ok m =>
        rw [hm] at hs
        rw [scanRow_later hnow hm]
        exact ih hs

theorem scanLines_of_rows (hparse : ∀ l ∈ ls, (JsonText.parse l).isSome = true)
    (hs : (ls.filterMap JsonText.parse).foldlM (scanRow native key now) s = .ok s') :
    ls.foldlM (scanLine native key now) s = .ok s' := by
  induction ls generalizing s with
  | nil => exact hs
  | cons l ls ih =>
    obtain ⟨row, hrow⟩ := Option.isSome_iff_exists.mp (hparse l List.mem_cons_self)
    rw [List.filterMap_cons_some hrow, List.foldlM_cons] at hs
    rw [List.foldlM_cons]
    unfold scanLine
    rw [hrow]
    simp only
    cases hm : scanRow native key now s row with
    | error e =>
      rw [hm] at hs
      cases hs
    | ok m =>
      rw [hm] at hs
      exact ih (fun k hk => hparse k (List.mem_cons_of_mem l hk)) hs

/-- A wait is over at the time of the first result of the call that waited, and further rows do not
change that. -/
theorem resolvedAt_answered {stem : Option String} (h : (resolvedAt text stem key now).1 = some at_) :
    ∃ native, stem = some native ∧
      (let ts := turnsOf native (tailRows text)
       (ts.filter (key.floor ≤ ·.at_)).Pairwise (·.at_ ≤ ·.at_)
        ∧ ∃ id call, Awaited key ts id call ∧ FirstResult (late key ts) id at_)
      ∧ ∀ more now', WholeLines text → now ≤ now' →
        (∀ l ∈ tailLines more, ∃ row, JsonText.parse l = some row ∧ WellFormed native now' row) →
        InOrder (turnsOf native (tailRows text)) (turnsOf native (tailRows more)) →
        (resolvedAt (text ++ more) stem key now').1 = some at_ := by
  unfold resolvedAt at h
  cases stem with
  | none => cases h
  | some native =>
    simp only at h
    cases hscan : (tailLines text).foldlM (scanLine native key now) {} with
    | error e =>
      rw [hscan] at h
      cases h
    | ok s =>
      rw [hscan] at h
      have hrows := scanLines_ok hscan
      obtain ⟨hinv, htimed⟩ := scanRows_keeps (P := fun ts s => Inv key ts s ∧ Timed key ts s)
        (fun us u m m' hP hm => ⟨hP.1.turn hm, hP.2.turn hm⟩) ⟨inv_start, timed_start⟩ hrows
      obtain ⟨id, hselected, hfirst⟩ := hinv.resolved at_ h
      obtain ⟨call, hawaited⟩ := hinv.selected id hselected
      refine ⟨native, rfl, ⟨htimed.ordered, id, call, hawaited, hfirst⟩, fun more now' hwhole hnow hmore horder => ?_⟩
      have hchose : s.chose = true := by
        by_contra hnot
        have hnone := (hinv.fresh (Bool.not_eq_true _ ▸ hnot)).2.2
        rw [show s.resolved = some at_ from h] at hnone
        cases hnone
      obtain ⟨p, hp, hlt⟩ := hinv.chosen hchose
      obtain ⟨u, hu, hup⟩ := htimed.prior p hp
      have hwell : ∀ row ∈ tailRows more, WellFormed native now' row := by
        intro row hrow
        obtain ⟨l, hl, hparse⟩ := List.mem_filterMap.mp hrow
        obtain ⟨row', hparse', hwell⟩ := hmore l hl
        rw [hparse] at hparse'
        rwa [Option.some.inj hparse']
      have hsettled : Settled key at_ s p := ⟨hchose, h, hp, hlt⟩
      obtain ⟨s', hs', hresolved⟩ := hsettled.scanRows hwell (fun v hv => hup ▸ horder.1 u hu v hv) horder.2
      have hparsed : ∀ l ∈ tailLines more, (JsonText.parse l).isSome = true := by
        intro l hl
        obtain ⟨row, hrow, -⟩ := hmore l hl
        rw [hrow]
        rfl
      unfold resolvedAt
      simp only
      rw [tailLines_append hwhole, List.foldlM_append, scanLines_later hnow hscan]
      show (match (tailLines more).foldlM (scanLine native key now') s with
        | .error retryAt => (none, retryAt)
        | .ok s => (s.resolved, none)).1 = some at_
      rw [scanLines_of_rows hparsed hs']
      exact hresolved

end

/-! ## A wait that ended -/

def promptLine : List Char :=
  "\x7b\"type\":\"user\",\"sessionId\":\"s\",\"timestamp\":\"1970-01-01T00:15:50Z\",\"message\":\x7b\"content\":\"hi\"\x7d\x7d".toList

def callLine : List Char :=
  "\x7b\"type\":\"assistant\",\"sessionId\":\"s\",\"timestamp\":\"1970-01-01T00:16:25Z\",\"message\":\x7b\"content\":[\x7b\"type\":\"tool_use\",\"id\":\"a\",\"name\":\"Bash\"\x7d]\x7d\x7d".toList

def resultLine : List Char :=
  "\x7b\"type\":\"user\",\"sessionId\":\"s\",\"timestamp\":\"1970-01-01T00:16:31Z\",\"message\":\x7b\"content\":[\x7b\"type\":\"tool_result\",\"tool_use_id\":\"a\"\x7d]\x7d\x7d".toList

def rowOf (type stamp : String) (content : Value) : Value :=
  .obj [("type", .str type), ("sessionId", .str "s"), ("timestamp", .str stamp),
    ("message", .obj [("content", content)])]

/-- The three lines, as the JSON they are. -/
abbrev waitJson : JsonText where
  parse line :=
    if line = promptLine then some (rowOf "user" "1970-01-01T00:15:50Z" (.str "hi"))
    else if line = callLine then
      some (rowOf "assistant" "1970-01-01T00:16:25Z"
        (.arr [.obj [("type", .str "tool_use"), ("id", .str "a"), ("name", .str "Bash")]]))
    else if line = resultLine then
      some (rowOf "user" "1970-01-01T00:16:31Z"
        (.arr [.obj [("type", .str "tool_result"), ("tool_use_id", .str "a")]]))
    else none

def waitTail : List Char := promptLine ++ '\n' :: (callLine ++ '\n' :: (resultLine ++ ['\n']))

def waitKey : Key where
  hookAt := some 990
  presenceAt := none
  toolId := none
  toolName := some "Bash"
  floor := 950
  seen := .inl rfl

theorem resolvedAt_answered_bash :
    let ts := turnsOf "s" (@tailRows waitJson waitTail)
    ∃ id call, Awaited waitKey ts id call ∧ FirstResult (late waitKey ts) id 991 := by
  have h : (@resolvedAt waitJson waitTail (some "s") waitKey 1000).1 = some 991 := by decide +kernel
  obtain ⟨native, hnative, ⟨-, hfound⟩, -⟩ := @resolvedAt_answered waitJson waitTail waitKey 1000 991 (some "s") h
  obtain rfl := Option.some.inj hnative
  exact hfound

end Agent.Wait
