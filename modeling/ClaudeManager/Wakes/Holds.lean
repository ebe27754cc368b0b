import Mathlib

/-!
# Holds on the wakes of a session

The daemon holds the wakes of a session while it is about to replace its process: it writes a file
with the time the hold ends, which the consumer of the wakes reads, and remembers who placed it.

* `Session` — the hold of one session, its file, and what runs on the session
* `Session.placeHold`, `Session.unhold` — what each feature does with it
* `Session.step` — due sessions, rotations, handoffs and recoveries, exits, and restarts
-/

namespace Wakes

/-! ## Holds -/

/-- A hold lasts for at most this long, in seconds. -/
def holdSecs : ℚ := 1800
def dueHoldCapSecs : ℚ := 600
def dueHoldRestSecs : ℚ := 3600

inductive HoldOwner where
  | due
  | rotation
  | handoff
  | codexRecovery
  | claudeAccountRecovery
  deriving DecidableEq

structure Hold where
  owner : HoldOwner
  episodeStart : ℚ
  deriving DecidableEq

inductive Engine where
  | claude
  | codex
  deriving DecidableEq

/-- How far the start of a daemon has come. -/
inductive Phase where
  /-- Holds of the previous daemon may still be there. -/
  | booting
  /-- They were lifted; what it left running is taken up. -/
  | recovering
  | serving
  deriving DecidableEq

/-- What is only noted here, for the statements. -/
structure Noted where
  /-- When the hold ends that an owner placed last and has not released. -/
  placed : HoldOwner → Option ℚ
  lastPlaced : ℚ
  /-- Since when a due hold alone has kept wakes waiting. -/
  stretch : Option ℚ
  /-- The end of the last stretch that lasted as long as it may. -/
  spent : Option ℚ

/-- One session. -/
structure Session where
  now : ℚ
  engine : Engine
  hold : Option Hold
  /-- `until` in the hold file. -/
  file : Option ℚ
  /-- The messaging root is known. -/
  root : Bool
  armed : Bool
  running : HoldOwner → Bool
  /-- The permit of a Codex recovery has placed its hold. -/
  permit : Bool
  phase : Phase
  noted : Noted

namespace Session

variable (w : Session)

/-- The consumer leaves wakes pending. -/
def held : Bool := w.file.any fun u => w.now < u

/-- The hold that an owner places now: since when, and until when; or whether wakes are held. -/
def nextHold (owner : HoldOwner) : Bool ⊕ ℚ × ℚ :=
  match owner, w.hold with
  | .due, some e =>
    if e.owner ≠ .due then .inl true
    else if dueHoldCapSecs + dueHoldRestSecs ≤ w.now - e.episodeStart then
      .inr (w.now, w.now + dueHoldCapSecs)
    else if dueHoldCapSecs ≤ w.now - e.episodeStart then .inl false
    else .inr (e.episodeStart, e.episodeStart + dueHoldCapSecs)
  | .due, none => .inr (w.now, w.now + dueHoldCapSecs)
  | _, _ => .inr (w.now, w.now + holdSecs)

def store (owner : HoldOwner) (start ends : ℚ) : Session :=
  { w with
    hold := some ⟨owner, start⟩
    file := some ends
    noted := { w.noted with
      placed := Function.update w.noted.placed owner (some ends)
      lastPlaced := w.now
      stretch := if owner = .due then some (w.noted.stretch.getD w.now) else none } }

/-- `hold`; `stored` says whether the file could be written. -/
def placeHold (owner : HoldOwner) (stored : Bool) : Session × Bool :=
  match w.nextHold owner with
  | .inl kept => ({ w with root := true }, kept)
  | .inr (start, ends) =>
    if stored then ({ w with root := true }.store owner start ends, true)
    else ({ w with root := true }, false)

/-- The hold file is removed. -/
def clearHold : Session := { w with file := none, noted := { w.noted with stretch := none } }

/-- The owner has released its hold, if it placed one. -/
def released (owner : HoldOwner) : Session :=
  { w with noted := { w.noted with placed := Function.update w.noted.placed owner none } }

/-- A spent due episode keeps its record. -/
def unhold (owner : HoldOwner) : Session :=
  match w.hold with
  | some e =>
    if e.owner ≠ owner then w.released owner
    else if owner = .due ∧ dueHoldCapSecs ≤ w.now - e.episodeStart then
      (w.released owner).clearHold
    else { (w.released owner).clearHold with hold := none }
  | none => if w.root then (w.released owner).clearHold else w.released owner

/-! ## What places and lifts holds -/

/-- Why an attempt to rotate at a turn end was refused. -/
inductive Refusal where
  /-- `permanent_refusal`: no waiting helps. -/
  | permanent
  /-- `hold_worthy`: the agent went on, or a wake is being delivered. -/
  | raced
  | lasting
  deriving DecidableEq

def arm (stored : Bool) : Session := ({ w with armed := true }.placeHold .due stored).1

/-- `try_due`, when the attempt was refused. -/
def refused (r : Refusal) (stored : Bool) : Session :=
  match r with
  | .permanent => { w with armed := false }.unhold .due
  | .raced => (w.placeHold .due stored).1
  | .lasting => w.unhold .due

/-- An armed rotation found no turn end in time. -/
def expire : Session := { w with armed := false }.unhold .due

/-- `on_session_exit`: a rotation's or handoff's own stop is theirs to handle. -/
def exit : Session :=
  if w.running .rotation || w.running .handoff then w else { w with armed := false }.unhold .due

/-- Nothing of the daemon's runs on the session. -/
def free : Bool := !(w.running .rotation || w.running .handoff || w.running .codexRecovery
  || w.running .claudeAccountRecovery)

def run (owner : HoldOwner) (on : Bool) : Session :=
  { w with running := Function.update w.running owner on }

/-- What an earlier run of the feature left is not the new one's. -/
def begin (owner : HoldOwner) : Session := (w.run owner true).released owner

/-- `start_with`: the due hold is taken over by the rotation. -/
def startRotation (stored : Bool) : Session :=
  if w.free then
    { (((w.begin .rotation).released .due).placeHold .rotation stored).1 with armed := false }
  else w

def finishRotation : Session :=
  if w.running .rotation then (w.unhold .rotation).run .rotation false else w

/-- `take_slot`, and the hold for what comes of it. -/
def startHandoff (stored : Bool) : Session :=
  if w.free then ((w.begin .handoff).placeHold .handoff stored).1 else w

/-- `finish` of a handoff, which also ends requests that were passed on to a rotation. -/
def finishHandoff (engine : Engine) : Session :=
  { (w.unhold .handoff).run .handoff false with
    engine := if w.running .handoff then engine else w.engine }

/-- A Codex recovery is reserved before it looks at the session. -/
def reserveCodex : Session :=
  if w.engine = .codex ∧ w.running .rotation = false ∧ w.running .handoff = false
      ∧ w.running .codexRecovery = false then
    w.begin .codexRecovery
  else w

def holdCodex (stored : Bool) : Session :=
  if w.running .codexRecovery ∧ w.permit = false then
    { (w.placeHold .codexRecovery stored).1 with permit := (w.placeHold .codexRecovery stored).2 }
  else w

/-- The permit is dropped. -/
def dropCodex : Session :=
  if w.running .codexRecovery then
    { (if w.permit then w.unhold .codexRecovery else w).run .codexRecovery false with permit := false }
  else w

/-- A Claude recovery goes on only while its hold is there. -/
def beginClaude (stored : Bool) : Session :=
  if w.engine = .claude ∧ w.free then
    match w.placeHold .claudeAccountRecovery stored with
    | (w', true) => w'.run .claudeAccountRecovery true
    | (w', false) => w'
  else w

def endClaude : Session :=
  if w.running .claudeAccountRecovery then
    (w.unhold .claudeAccountRecovery).run .claudeAccountRecovery false
  else w

/-! ## Restarts -/

/-- What is in memory is gone; arms are on disk. -/
def restart : Session :=
  { w with
    hold := none
    root := false
    running := fun _ => false
    permit := false
    phase := .booting
    noted := { w.noted with placed := fun _ => none } }

/-- `recover_inflight` lifts every hold. -/
def boot : Session :=
  if w.phase = .booting then { w.clearHold with root := true, phase := .recovering } else w

/-- `complete_after_restart`: a rotation was left with its fork alive. -/
def completeRotation (stored : Bool) : Session :=
  if w.phase = .recovering ∧ w.running .rotation = false then
    { ((w.begin .rotation).placeHold .rotation stored).1 with phase := .serving }
  else w

/-- `recover_live`: a handoff was left with its new engine alive; its thread may not start. -/
def recoverHandoff (stored spawned : Bool) : Session :=
  if w.phase = .recovering then
    { ((w.begin .handoff).placeHold .handoff stored).1.run .handoff spawned with phase := .serving }
  else w

/-- There is nothing to take up. -/
def recovered : Session := if w.phase = .recovering then { w with phase := .serving } else w

/-! ## Time -/

/-- Time passes; a due hold that ends by itself has lasted as long as it may. -/
def wait (t : ℚ) : Session :=
  match w.noted.stretch, w.file with
  | some s, some u =>
    if u ≤ max w.now t then
      { w with
        now := max w.now t
        noted := { w.noted with
          stretch := none
          spent := if s + dueHoldCapSecs ≤ u then some u else w.noted.spent } }
    else { w with now := max w.now t }
  | _, _ => { w with now := max w.now t }

end Session

/-- `stored` says whether the hold file can be written. -/
inductive Event where
  | wait (t : ℚ)
  | arm (stored : Bool)
  | refused (r : Session.Refusal) (stored : Bool)
  | expire
  | exit
  | startRotation (stored : Bool)
  | finishRotation
  | startHandoff (stored : Bool)
  | finishHandoff (engine : Engine)
  | reserveCodex
  | holdCodex (stored : Bool)
  | dropCodex
  | beginClaude (stored : Bool)
  | endClaude
  | restart
  | boot
  | completeRotation (stored : Bool)
  | recoverHandoff (stored spawned : Bool)
  | recovered

def Session.step (w : Session) : Event → Session
  | .wait t => w.wait t
  | .arm stored => w.arm stored
  | .refused r stored => w.refused r stored
  | .expire => w.expire
  | .exit => w.exit
  | .startRotation stored => w.startRotation stored
  | .finishRotation => w.finishRotation
  | .startHandoff stored => w.startHandoff stored
  | .finishHandoff engine => w.finishHandoff engine
  | .reserveCodex => w.reserveCodex
  | .holdCodex stored => w.holdCodex stored
  | .dropCodex => w.dropCodex
  | .beginClaude stored => w.beginClaude stored
  | .endClaude => w.endClaude
  | .restart => w.restart
  | .boot => w.boot
  | .completeRotation stored => w.completeRotation stored
  | .recoverHandoff stored spawned => w.recoverHandoff stored spawned
  | .recovered => w.recovered

/-- A session without holds. -/
def Session.start (now : ℚ) (engine : Engine) : Session :=
  ⟨now, engine, none, none, false, false, fun _ => false, false, .serving,
    ⟨fun _ => none, now, none, none⟩⟩

end Wakes
