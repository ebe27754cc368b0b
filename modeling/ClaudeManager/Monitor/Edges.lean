import Mathlib

/-!
# Turn edges of a watched session

* `Resolved` — what one look at a session shows
* `Baseline` — the completed work a watch was armed on, `edgePassed` — new work since
* `baselineFor` — the baseline a look gives
* `Episode.left` — how many turn ends a rotation or handoff still absorbs
-/

namespace Monitor

/-! ## A look -/

/-- The engine's own state of an agent. Times that are no finite number are `none`. -/
structure Agent where
  state : Option String
  turnSeq : Option Int
  inputPending : Bool
  noTurnAt : Option Rat
  endedAt : Option Rat
  /-- No start, one that is no time, or a time. -/
  latestStartAt : Option (Option Rat)
  deriving DecidableEq

/-- A transcript rotation or handoff the daemon remembers. -/
structure Episode where
  startedAt : Option Rat
  isSwitch : Bool
  deriving DecidableEq

/-- What a look at a session shows, with what its transcript then says. -/
structure Resolved where
  shell : Bool
  state : String
  idle : Bool
  ptyIdle : Option Bool
  engine : String
  transcriptPath : Option String
  generation : Nat
  agent : Option Agent
  semanticIdle : Bool
  reportedDone : Bool
  reportedDoneAt : Rat
  killedBy : Option String
  rotation : Option Episode
  handoff : Option Episode
  /-- `last_completed_turn_fingerprint`, `transcript_turn_complete` and the size of the file. -/
  fingerprint : Option String
  transcriptComplete : Bool
  size : Option Nat
  deriving DecidableEq

/-- `engine_state`: a shell has none. -/
def Resolved.engineState (r : Resolved) : Option Agent := if r.shell then none else r.agent

/-- `engine_turn_complete`, of an engine state. -/
def Agent.turnComplete (a : Agent) : Bool :=
  if a.state ∈ [some "errored", some "waiting-on-human", some "exited"] then true
  else if a.state ∉ [some "idle", some "working-background"] then false
  else if a.inputPending then false
  else if a.noTurnAt.isSome then true
  else
    let started := match a.latestStartAt with
      | none => true
      | some none => false
      | some (some start) => 0 ≤ start && a.endedAt.any fun ended => start ≤ ended
    started && (a.state = some "idle" || a.endedAt.isSome)

/-! ## Baselines -/

/-- A baseline from a transcript. -/
inductive Legacy where
  | turn (fingerprint : String)
  | size (bytes : Nat)
  | other
  deriving DecidableEq

/-- A baseline from a transcript or from engine counters, of which a record may lack some. -/
inductive Baseline where
  | legacy (l : Legacy)
  | agent (value : Option Int) (endedAt noTurnAt : Option (Option Rat)) (legacy : Option Legacy)
  deriving DecidableEq

/-- `_edge_passed`, of a transcript. -/
def Legacy.passed (l : Legacy) (r : Resolved) : Bool :=
  match l with
  | .turn fingerprint => r.fingerprint.any fun now => now ≠ fingerprint
  | .size bytes => r.transcriptPath.isSome && r.size.any fun now => bytes < now
  | .other => true

/-- The later of two times that may be missing. -/
def laterThan (now : Rat) (previous : Option Rat) : Bool := previous.all fun t => t < now

/-- `_edge_passed`. -/
def Baseline.edgePassed (b : Baseline) (r : Resolved) : Bool :=
  match b with
  | .legacy l => l.passed r
  | .agent value endedAt noTurnAt old =>
    match r.engineState with
    | none => old.all fun l => l.passed r
    | some a =>
      match a.noTurnAt, noTurnAt with
      | some noTurn, some previous => laterThan noTurn previous
      | _, _ =>
        match a.turnSeq, value with
        | some seq, some anchor =>
          if anchor < seq then true
          else if seq = anchor then
            match endedAt, a.endedAt with
            | some previous, some ended => laterThan ended previous
            | _, _ => false
          else false
        | _, _ => false

/-- `_agent_baseline`: a watch armed within a turn sees its end. -/
def agentBaseline (a : Agent) (legacy : Option Legacy) : Baseline :=
  match a.turnSeq.filter fun seq => 0 ≤ seq with
  | none => .agent none none none legacy
  | some seq => .agent (some (seq - if a.state = some "working" then 1 else 0))
      (some a.endedAt) (some a.noTurnAt) legacy

/-- `baseline_for`, of the transcript. -/
def legacyFor (r : Resolved) : Option Legacy :=
  if r.engine = "claude-code" then r.fingerprint.map .turn
  else if r.transcriptPath.isSome then r.size.map .size
  else none

/-- `baseline_for`. -/
def baselineFor (r : Resolved) : Option Baseline :=
  match r.engineState with
  | some a => some (agentBaseline a (legacyFor r))
  | none => (legacyFor r).map .legacy

/-! ## Reports -/

/-- `report_anchor_for`. -/
def reportAnchorFor (r : Resolved) : Option Rat := if r.reportedDone then some r.reportedDoneAt else none

/-- `_report_is_new`. -/
def reportIsNew (r : Resolved) (anchor : Option Rat) : Bool :=
  (reportAnchorFor r).any fun current => anchor.all fun t => current ≠ t

/-! ## Rotations and handoffs -/

inductive EpisodeKey where
  | rotation
  | handoff
  deriving DecidableEq

/-- A turn end that an episode absorbed. -/
abbrev Mark := EpisodeKey × Rat

def Resolved.episode (r : Resolved) : EpisodeKey → Option Episode
  | .rotation => r.rotation
  | .handoff => r.handoff

/-- How many turn ends the episode still absorbs: an engine switch two, any other one. -/
def episodeLeft (r : Resolved) (armedAt : Rat) (absorbed : List Mark) (key : EpisodeKey) : Nat :=
  match (r.episode key).bind fun e => e.startedAt.map fun started => (e, started) with
  | none => 0
  | some (e, started) =>
    if started < armedAt then 0 else (if e.isSwitch then 2 else 1) - absorbed.count (key, started)

/-- When the episode began. -/
def episodeMark (r : Resolved) (key : EpisodeKey) : Option Mark :=
  (r.episode key).bind fun e => e.startedAt.map fun started => (key, started)

/-- `_rotation_turn`: the turn that just ended is one that an episode caused. -/
def rotationTurn (r : Resolved) (armedAt : Rat) (absorbed : List Mark) : Option Mark :=
  if 0 < episodeLeft r armedAt absorbed .rotation then episodeMark r .rotation
  else if 0 < episodeLeft r armedAt absorbed .handoff then episodeMark r .handoff
  else none

/-- The session is stopped to come straight back. -/
def Resolved.respawns (r : Resolved) : Bool := r.killedBy ∈ [some "transcript-rotation", some "handoff"]

/-! ## Words -/

/-- `_session_status`. -/
def sessionStatus (r : Resolved) (idle reported : Bool) : String :=
  if r.state = "exited" then "exited"
  else if reported then "reported"
  else match r.engineState with
  | some a =>
    match a.state with
    | some "working" => "working"
    | some "idle" => "awaiting_input"
    | some "working-background" => "awaiting_input"
    | some "waiting-on-human" => "needs_human"
    | some "errored" => "errored"
    | some "starting" => "starting"
    | some "exited" => "exited"
    | _ => "unknown"
  | none => if r.state = "pending" then "starting" else if idle then "awaiting_input" else "working"

end Monitor
