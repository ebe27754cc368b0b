import Mathlib
import ClaudeManager.Program.Runs

/-!
# The restart barrier

A restart attempt waits until no mutating request is in flight and every subsystem has parked at
a safe point. Threads take turns between critical sections:

* `State` — the daemon's flags, the mutation counter, the registry, and where every thread is
* `State.step` — one critical section, or one notification, of one thread

A thread that cannot take a lock does not move. The loops over the registry hold its lock, and
take their entries one at a time.
-/

namespace Restart

/-! ## Threads and locks -/

/-- Behind `counts`. -/
structure MutationCounts where
  inFlight : Nat
  enteredTotal : Nat
  deriving DecidableEq

/-- Behind `flags`. -/
structure SafePointFlags where
  pauseRequested : Bool
  paused : Bool
  deriving DecidableEq

/-- Where the thread of a safe point is. -/
inductive Spot where
  | running
  /-- `park_if_requested` has seen the request. -/
  | asked
  /-- `paused` is set, and `counts` is to be taken. -/
  | acked
  /-- `counts` was taken and released, and the waiters are to be notified. -/
  | bracketed
  /-- The request is to be looked at again. -/
  | rechecking
  /-- In `resume_cv`. -/
  | asleep
  deriving DecidableEq

/-- Has the thread acknowledged, and not left its park call? -/
def Spot.parked : Spot → Bool
  | .running | .asked => false
  | .acked | .bracketed | .rechecking | .asleep => true

/-- A registered subsystem whose handle was not dropped. -/
structure SafePoint where
  id : Nat
  name : String
  flags : SafePointFlags
  spot : Spot
  deriving DecidableEq

inductive Phase where
  /-- The flags of the daemon are set, and pauses are to be requested. -/
  | begun
  | owned
  /-- `resume_all` runs. -/
  | aborting
  /-- The flags of the daemon are to be restored. -/
  | resumed
  deriving DecidableEq

/-- `QuiesceGuard`, from the first lock of `begin` to the end of its drop. -/
structure QuiesceGuard where
  id : Nat
  priorDraining : Bool
  phase : Phase
  deriving DecidableEq

/-- A thread in `wait_quiesced`. -/
structure Waiter where
  id : Nat
  attempt : Nat
  /-- In `quiesce_cv`. -/
  asleep : Bool
  deriving DecidableEq

/-- Who holds the registry, and what its loop has left to do. -/
inductive RegistryLock where
  | free
  | requesting (attempt : Nat) (rest : List Nat)
  | resuming (attempt : Nat) (rest : List Nat)
  /-- The flag of `point` is cleared, and its thread is to be woken. -/
  | waking (attempt point : Nat) (rest : List Nat)
  | scanning (rest : List Nat) (unpaused : List String)
  deriving DecidableEq

/-- The entries whose request is still to be set or cleared. -/
def RegistryLock.todo : RegistryLock → List Nat
  | .free | .scanning _ _ => []
  | .requesting _ rest | .resuming _ rest | .waking _ _ rest => rest

structure QuiesceTimedOut where
  mutationsInFlight : Nat
  unpausedSubsystems : List String
  deriving DecidableEq

structure State where
  draining : Bool
  restarting : Bool
  /-- What the operator last made of `draining`. -/
  operator : Bool
  counts : MutationCounts
  /-- The waiter that holds `counts`. -/
  checking : Option Nat
  /-- Mutation guards that were not dropped. -/
  guards : Nat
  /-- Dropped guards that found the counter at zero, and have not notified yet. -/
  leaving : Nat
  pauseRequested : Bool
  entries : List Nat
  lock : RegistryLock
  points : List SafePoint
  attempts : List QuiesceGuard
  waiters : List Waiter
  deriving DecidableEq

/-- A daemon that has just started. -/
def start (draining : Bool) : State :=
  ⟨draining, false, draining, ⟨0, 0⟩, none, 0, 0, false, [], .free, [], [], []⟩

namespace State

/-! ## Mutations -/

def enterMutation (s : State) : State :=
  if s.checking = none then
    { s with
      counts := ⟨s.counts.inFlight + 1, s.counts.enteredTotal + 1⟩
      guards := s.guards + 1 }
  else s

/-- `MutationGuard::drop`, up to its notification. -/
def dropMutation (s : State) : State :=
  if s.checking = none ∧ 0 < s.guards then
    { s with
      counts := ⟨s.counts.inFlight - 1, s.counts.enteredTotal⟩
      guards := s.guards - 1
      leaving := if s.counts.inFlight - 1 = 0 then s.leaving + 1 else s.leaving }
  else s

/-- `quiesce_cv.notify_all`. -/
def notifyAll (s : State) : State :=
  { s with waiters := s.waiters.map fun w => { w with asleep := false } }

def notifyZero (s : State) : State :=
  if 0 < s.leaving then { s with leaving := s.leaving - 1 }.notifyAll else s

/-! ## Safe points -/

def onPoint (s : State) (k : Nat) (f : SafePoint → SafePoint) : State :=
  { s with points := s.points.map fun p => if p.id = k then f p else p }

/-- A point that registers while pauses are requested is born with the request. -/
def registerSubsystem (s : State) (k : Nat) (name : String) : State :=
  if s.lock = .free ∧ k ∉ s.entries then
    { s with
      points := s.points ++ [⟨k, name, ⟨s.pauseRequested, false⟩, .running⟩]
      entries := s.entries ++ [k] }
  else s

/-- The handle is dropped: its thread is in no park call. -/
def dropHandle (s : State) (k : Nat) : State :=
  { s with points := s.points.filter fun p => !(p.id = k && p.spot = .running) }

/-- `park_if_requested`, up to its look at the flag. -/
def parkIfRequested (s : State) (k : Nat) : State :=
  s.onPoint k fun p =>
    if p.spot = .running ∧ p.flags.pauseRequested = true then { p with spot := .asked } else p

/-- `park_until_resumed` begins. -/
def parkUntilResumed (s : State) (k : Nat) : State :=
  s.onPoint k fun p =>
    if p.spot = .running ∨ p.spot = .asked then
      { p with flags := ⟨p.flags.pauseRequested, true⟩, spot := .acked }
    else p

/-- The first half of `notify_progress`: nobody is between a check and a sleep. -/
def bracket (s : State) (k : Nat) : State :=
  if s.checking = none then
    s.onPoint k fun p => if p.spot = .acked then { p with spot := .bracketed } else p
  else s

def notifyProgress (s : State) (k : Nat) : State :=
  if ∃ p ∈ s.points, p.id = k ∧ p.spot = .bracketed then
    (s.onPoint k fun p =>
      if p.spot = .bracketed then { p with spot := .rechecking } else p).notifyAll
  else s

/-- The loop of `park_until_resumed`. -/
def recheck (s : State) (k : Nat) : State :=
  s.onPoint k fun p =>
    if p.spot = .rechecking then
      if p.flags.pauseRequested then { p with spot := .asleep }
      else { p with flags := ⟨false, false⟩, spot := .running }
    else p

/-- `resume_cv` lets the thread go on, notified or not. -/
def wakePoint (s : State) (k : Nat) : State :=
  s.onPoint k fun p => if p.spot = .asleep then { p with spot := .rechecking } else p

/-! ## Attempts -/

def setPhase (s : State) (i : Nat) (phase : Phase) : State :=
  { s with attempts := s.attempts.map fun a => if a.id = i then { a with phase := phase } else a }

/-- `daemon.drain`. -/
def setDraining (s : State) (enable : Bool) : State :=
  { s with draining := enable, operator := enable }

/-- `begin`, up to the request. A second attempt is refused. -/
def begin (s : State) (i : Nat) : State :=
  if s.restarting then s
  else { s with
    restarting := true
    draining := true
    attempts := ⟨i, s.draining, .begun⟩ :: s.attempts }

/-- `request_pause_all` takes the registry. -/
def requestPauseAll (s : State) (i : Nat) : State :=
  if s.lock = .free ∧ ∃ a ∈ s.attempts, a.id = i ∧ a.phase = .begun then
    { s with pauseRequested := true, lock := .requesting i s.entries }
  else s

/-- The guard is dropped, which nobody may be using: `resume_all` takes the registry. -/
def abort (s : State) (i : Nat) : State :=
  if s.lock = .free ∧ (∃ a ∈ s.attempts, a.id = i ∧ a.phase = .owned) ∧
      ∀ w ∈ s.waiters, w.attempt ≠ i then
    { s.setPhase i .aborting with pauseRequested := false, lock := .resuming i s.entries }
  else s

/-- The drop of the guard ends. -/
def restore (s : State) (i : Nat) : State :=
  match s.attempts.find? fun a => a.id = i && a.phase = .resumed with
  | some a => { s with
    restarting := false
    draining := a.priorDraining
    attempts := s.attempts.filter fun a => !(a.id = i && a.phase = .resumed) }
  | none => s

/-! ## Waiting -/

/-- A thread calls `wait_quiesced`. -/
def waitQuiesced (s : State) (w i : Nat) : State :=
  if (∃ a ∈ s.attempts, a.id = i ∧ a.phase = .owned) ∧ ∀ v ∈ s.waiters, v.id ≠ w then
    { s with waiters := s.waiters ++ [⟨w, i, false⟩] }
  else s

/-- The waiter takes `counts`. -/
def check (s : State) (w : Nat) : State :=
  if s.checking = none ∧ ∃ v ∈ s.waiters, v.id = w ∧ v.asleep = false then
    { s with checking := some w }
  else s

/-- `unpaused_subsystems` takes the registry. -/
def scan (s : State) : State :=
  if s.checking ≠ none ∧ s.lock = .free then { s with lock := .scanning s.entries [] } else s

/-- What `wait_quiesced` makes of its look at the registry; `none` is to sleep. -/
def verdict (s : State) (unpaused : List String) (late : Bool) :
    Option (Except QuiesceTimedOut Unit) :=
  if s.counts.inFlight = 0 ∧ unpaused = [] then some (.ok ())
  else if late then some (.error ⟨s.counts.inFlight, unpaused⟩) else none

/-- The waiter returns or sleeps, and releases its locks. What it decides on is its own. -/
def decide (s : State) (late : Bool) : State :=
  match s.checking, s.lock with
  | some w, .scanning [] unpaused =>
    match s.verdict unpaused late with
    | some _ => { s with
      waiters := s.waiters.filter fun v => v.id ≠ w
      checking := none
      lock := .free }
    | none => { s with
      waiters := s.waiters.map fun v => if v.id = w then { v with asleep := true } else v
      checking := none
      lock := .free }
  | _, _ => s

/-- `quiesce_cv` lets the waiter go on at its deadline, or for no reason. -/
def wakeWaiter (s : State) (w : Nat) : State :=
  { s with waiters := s.waiters.map fun v => if v.id = w then { v with asleep := false } else v }

/-! ## The loops over the registry -/

def livePoint (s : State) (k : Nat) : Option SafePoint := s.points.find? fun p => p.id = k

/-- A dead registration is pruned. -/
def prune (s : State) (k : Nat) : State := { s with entries := s.entries.filter (· ≠ k) }

/-- Whoever holds the registry takes its next entry, or releases it. -/
def advance (s : State) : State :=
  match s.lock with
  | .free => s
  | .requesting i [] => { s.setPhase i .owned with lock := .free }
  | .requesting i (k :: rest) =>
    match s.livePoint k with
    | some _ => { (s.onPoint k fun p => { p with flags := ⟨true, p.flags.paused⟩ }) with
      lock := .requesting i rest }
    | none => { s.prune k with lock := .requesting i rest }
  | .resuming i [] => { s.setPhase i .resumed with lock := .free }
  | .resuming i (k :: rest) =>
    match s.livePoint k with
    | some _ => { (s.onPoint k fun p => { p with flags := ⟨false, p.flags.paused⟩ }) with
      lock := .waking i k rest }
    | none => { s.prune k with lock := .resuming i rest }
  | .waking i k rest => { s.wakePoint k with lock := .resuming i rest }
  | .scanning [] _ => s
  | .scanning (k :: rest) unpaused =>
    match s.livePoint k with
    | some p =>
      { s with lock := .scanning rest (if p.flags.paused then unpaused else unpaused ++ [p.name]) }
    | none => { s.prune k with lock := .scanning rest unpaused }

end State

/-! ## Runs -/

inductive Event where
  | enterMutation
  | dropMutation
  | notifyZero
  | register (k : Nat) (name : String)
  | dropHandle (k : Nat)
  | parkIfRequested (k : Nat)
  | parkUntilResumed (k : Nat)
  | bracket (k : Nat)
  | notifyProgress (k : Nat)
  | recheck (k : Nat)
  | wakePoint (k : Nat)
  | setDraining (enable : Bool)
  | begin (i : Nat)
  | requestPauseAll (i : Nat)
  | abort (i : Nat)
  | restore (i : Nat)
  | waitQuiesced (w i : Nat)
  | check (w : Nat)
  | scan
  | decide (late : Bool)
  | wakeWaiter (w : Nat)
  | advance

def State.step (s : State) : Event → State
  | .enterMutation => s.enterMutation
  | .dropMutation => s.dropMutation
  | .notifyZero => s.notifyZero
  | .register k name => s.registerSubsystem k name
  | .dropHandle k => s.dropHandle k
  | .parkIfRequested k => s.parkIfRequested k
  | .parkUntilResumed k => s.parkUntilResumed k
  | .bracket k => s.bracket k
  | .notifyProgress k => s.notifyProgress k
  | .recheck k => s.recheck k
  | .wakePoint k => s.wakePoint k
  | .setDraining enable => s.setDraining enable
  | .begin i => s.begin i
  | .requestPauseAll i => s.requestPauseAll i
  | .abort i => s.abort i
  | .restore i => s.restore i
  | .waitQuiesced w i => s.waitQuiesced w i
  | .check w => s.check w
  | .scan => s.scan
  | .decide late => s.decide late
  | .wakeWaiter w => s.wakeWaiter w
  | .advance => s.advance

end Restart
