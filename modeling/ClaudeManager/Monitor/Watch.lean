import Mathlib
import ClaudeManager.Monitor.Edges

/-!
# A watch over sessions

* `judge`, `assess` — one look at one session
* `poll` — one pass over all sessions still watched
* `Watching.step` — a watch whose passes may fail, and that a successor may take over
-/

namespace Monitor

/-! ## One session -/

/-- What a watch keeps of a session between passes. -/
structure Timers where
  baseline : Option Baseline
  pendingSince : Option Rat
  semanticSince : Option Rat
  rotatingSince : Option Rat
  interim : Nat
  deriving DecidableEq

/-- Where the reply of a session is read once it is gone: its engine, transcript and generation. -/
abbrev Meta := String × Option String × Nat

structure Slice where
  timers : Timers
  seen : Option Meta
  absorbed : List Mark
  deriving DecidableEq

/-- What a watch is asked. `anchors` are the reports seen when it was armed. -/
structure Watch where
  uids : List String
  nodup : uids.Nodup
  all : Bool
  final : Bool
  anchors : String → Option Rat
  tracked : Bool

def graceS : Rat := 8
def semanticIdleGraceS : Rat := 3
def rotationGraceS : Rat := 600

/-- A session that completed. -/
structure Entry where
  uid : String
  status : String
  state : String
  idle : Bool
  error : Option String
  fromTranscript : Bool
  interim : Nat
  read : Option Meta
  shown : Option Resolved
  deriving DecidableEq

/-- A look at a session: the daemon cannot be reached, refuses, or shows it. -/
inductive Look where
  | cut
  | fault (code : String)
  | shown (r : Resolved)
  deriving DecidableEq

/-- What a look says of the turn. -/
structure Turn where
  timers : Timers
  done : Bool
  override : Bool
  edgeOk : Bool

/-- `idle`, as the watch takes it. -/
def Resolved.quiet (r : Resolved) : Bool := if r.shell then r.ptyIdle.getD r.idle else r.idle

/-- An old baseline is exchanged for engine counters, once its own edge was looked at. -/
def adoptCounters (r : Resolved) (t : Timers) : Bool × Timers :=
  match r.engineState, t.baseline with
  | some a, some (.legacy l) => (l.passed r, { t with baseline := some (agentBaseline a (some l)) })
  | _, _ => (false, t)

/-- Is the session done, and only by its transcript? -/
def isDone (now : Rat) (r : Resolved) (t : Timers) : Bool × Bool × Timers :=
  if r.state = "exited" then
    if r.respawns then
      let first := t.rotatingSince.getD now
      (!(now - first < rotationGraceS : Bool), false, { t with rotatingSince := some first })
    else (true, false, { t with rotatingSince := none })
  else if r.shell then (r.quiet, false, t)
  else match r.engineState with
  | some a => (a.turnComplete, false, t)
  | none =>
    if r.state = "ready" then
      if r.quiet then (true, false, t)
      else if r.transcriptComplete then
        let since := t.semanticSince.getD now
        let done := r.semanticIdle || semanticIdleGraceS ≤ now - since
        (done, done, { t with semanticSince := some since })
      else (false, false, { t with semanticSince := none })
    else if r.state = "pending" ∧ r.quiet then
      match t.pendingSince with
      | none => (false, false, { t with pendingSince := some now })
      | some since => (graceS ≤ now - since, false, t)
    else (false, false, { t with pendingSince := none })

/-- The turn as a watch takes it: an idle look at the turn it was armed on is no completion, and a
final watch goes past a turn without a report. -/
def judge (w : Watch) (now : Rat) (uid : String) (r : Resolved) (t : Timers) : Turn :=
  let (legacyPassed, t) := adoptCounters r t
  let (done, override, t) := isDone now r t
  let edgeOk := !(done && r.state ≠ "exited" && !r.shell
    && t.baseline.any fun b => !legacyPassed && !b.edgePassed r)
  if w.final ∧ r.state ≠ "exited" then
    if reportIsNew r (w.anchors uid) then ⟨t, done, override, true⟩
    else if done ∧ edgeOk then
      match baselineFor r with
      | some b =>
        if t.baseline = some b then ⟨t, false, override, edgeOk⟩
        else ⟨{ t with baseline := some b, interim := t.interim + 1 }, false, override, edgeOk⟩
      | none => ⟨t, false, override, edgeOk⟩
    else ⟨t, done, override, edgeOk⟩
  else ⟨t, done, override, edgeOk⟩

/-- The turn is over, as far as the agent's own word goes. -/
def Turn.endsTurn (turn : Turn) (r : Resolved) : Bool :=
  turn.done && turn.edgeOk && r.state ≠ "exited" && !r.shell && !r.reportedDone

/-- The entry of a session that a look completes. -/
def completedEntry (uid : String) (r : Resolved) (turn : Turn) (m : Meta) : Entry :=
  let status :=
    if r.shell then if r.state = "exited" then "exited" else "quiet"
    else if r.reportedDone then sessionStatus r r.quiet true
    else if turn.override then "awaiting_input"
    else sessionStatus r r.quiet false
  ⟨uid, status, r.state, r.quiet, none, turn.override, turn.timers.interim, some m, some r⟩

/-- The entry of a session that is gone, or was never there. -/
def goneEntry (uid code : String) (s : Slice) : Entry :=
  match s.seen with
  | some m => if code = "not_found" then ⟨uid, "exited", "exited", true, none, false, 0, some m, none⟩
    else ⟨uid, "error", "exited", true, some code, false, 0, none, none⟩
  | none => ⟨uid, "error", "exited", true, some code, false, 0, none, none⟩

/-- What a look at a session comes to. -/
inductive Assessed where
  | going (s : Slice)
  | completed (s : Slice) (e : Entry)
  | refused
  | crashed
  | cut
  deriving DecidableEq

/-- A turn the daemon's own prompts caused is gone past. -/
def absorb (w : Watch) (r : Resolved) (s : Slice) (mark : Mark) : Assessed :=
  match baselineFor r with
  | none => .going { s with absorbed := s.absorbed ++ [mark] }
  | some b =>
    if w.tracked then
      .going { s with
        timers := { s.timers with baseline := some b }
        absorbed := s.absorbed ++ [mark] }
    else .crashed

/-- Where the session's reply is read. -/
def Resolved.read (r : Resolved) : Meta :=
  (r.engine, if r.shell then none else r.transcriptPath, r.generation)

/-- A look at a session that the daemon shows. -/
def assessShown (w : Watch) (armedAt now : Rat) (uid : String) (s : Slice) (r : Resolved) : Assessed :=
  let turn := judge w now uid r s.timers
  let next : Slice := ⟨turn.timers, some r.read, s.absorbed⟩
  match if turn.endsTurn r then rotationTurn r armedAt s.absorbed else none with
  | some mark => absorb w r next mark
  | none =>
    if turn.done && turn.edgeOk then .completed next (completedEntry uid r turn r.read)
    else .going next

/-- One look at one session. -/
def assess (w : Watch) (armedAt now : Rat) (uid : String) (s : Slice) (look : Look) : Assessed :=
  match look with
  | .cut => .cut
  | .fault code => .completed s (goneEntry uid code s)
  | .shown r => if r.shell && w.final then .refused else assessShown w armedAt now uid s r

/-! ## One pass -/

structure Moment where
  now : Rat
  look : String → Look

/-- A watch between passes. -/
structure State where
  slices : String → Slice
  remaining : List String
  completed : List Entry

inductive Result where
  | report (completed : List Entry) (stillRunning : List String)
  | refused
  | crashed
  deriving DecidableEq

/-- A pass goes on, ends the watch, or fails on the way. -/
inductive Passed where
  | going (s : State)
  | ended (r : Result)
  | cut (s : State)

/-- The sessions still watched are looked at one by one. -/
def State.pass (w : Watch) (armedAt : Rat) (m : Moment) (s : State) : List String → Passed
  | [] => .going s
  | uid :: uids =>
    match assess w armedAt m.now uid (s.slices uid) (m.look uid) with
    | .cut => .cut s
    | .refused => .ended .refused
    | .crashed => .ended .crashed
    | .going slice =>
      State.pass w armedAt m { s with slices := Function.update s.slices uid slice } uids
    | .completed slice e =>
      State.pass w armedAt m ⟨Function.update s.slices uid slice, s.remaining.erase uid,
        s.completed ++ [e]⟩ uids

/-- A pass over all of them, with the stop condition after it. -/
def State.poll (w : Watch) (armedAt : Rat) (m : Moment) (s : State) : Passed :=
  match s.pass w armedAt m s.remaining with
  | .going s =>
    if (w.all = false ∧ s.completed ≠ []) ∨ (w.all ∧ s.remaining = []) then
      .ended (.report s.completed s.remaining)
    else .going s
  | p => p

/-! ## A watch with interruptions -/

/-- What a watch starts from: its baselines, and nothing else. -/
def freshTimers (baseline : Option Baseline) : Timers := ⟨baseline, none, none, none, 0⟩

def freshState (w : Watch) (baselines : String → Option Baseline) : State :=
  ⟨fun uid => ⟨freshTimers (baselines uid), none, []⟩, w.uids, []⟩

/-- The baselines of the watch's record. -/
def State.baselines (s : State) (uid : String) : Option Baseline := (s.slices uid).timers.baseline

/-- A pass, with the time at which it is tried again where it fails; or a successor starts from
the stored baselines. -/
inductive Event where
  | pass (m : Moment) (retryAt : Rat)
  | adopt (stored : String → Option Baseline) (adoptedAt : Rat)

/-- A watch that goes on, or has reported. -/
inductive Watching where
  | going (armedAt : Rat) (s : State)
  | ended (r : Result)

/-- The watch as it is run: an interruption starts it afresh. -/
def Watching.step (w : Watch) : Watching → Event → Watching
  | .ended r, _ => .ended r
  | .going armedAt s, .pass m retryAt =>
    match s.poll w armedAt m with
    | .going s => .going armedAt s
    | .ended r => .ended r
    | .cut s => .going retryAt (freshState w s.baselines)
  | .going _ _, .adopt stored adoptedAt => .going adoptedAt (freshState w stored)

/-- The watch without interruptions: the moments at which it would fail are left out. -/
def Watching.steady (w : Watch) : Watching → Event → Watching
  | .ended r, _ => .ended r
  | .going armedAt s, .pass m _ =>
    match s.poll w armedAt m with
    | .going s => .going armedAt s
    | .ended r => .ended r
    | .cut _ => .going armedAt s
  | .going armedAt s, .adopt _ _ => .going armedAt s

/-- What was reported so far. -/
def Watching.report : Watching → Result
  | .going _ s => .report s.completed s.remaining
  | .ended r => r

end Monitor
