import Mathlib
import ClaudeManager.Program.Containers

/-!
# Owner alerts and their relay

A host keeps the alerts of its sessions for Owner, by key. It sends snapshots of them to a hub, which
lists them and takes Seen marks; these go back to the host.

* `Source` — the alerts of a host, and the last snapshot of them
* `Source.take`, `Source.remint` — a snapshot, and another generation of snapshots
* `Hub.ingest` — what the hub does with a snapshot
* `Hub.seen`, `Hub.Listed` — Seen marks, and what is listed beside them
-/

namespace Alerts

open Containers

/-! ## Alerts of a host -/

/-- The first `n` bytes of a text, cut where a character begins. -/
def takeBytes : Nat → List Char → List Char
  | _, [] => []
  | n, c :: cs => if c.utf8Size ≤ n then c :: takeBytes (n - c.utf8Size) cs else []

def truncate (n : Nat) (text : String) : String :=
  if text.utf8ByteSize ≤ n then text else String.ofList (takeBytes n text.toList)

def maxMessage : Nat := 4096
def maxEntries : Nat := 4096

structure Alert where
  /-- A random id; ids are numbered as they are drawn. -/
  id : Nat
  sessionUid : String
  label : String
  message : String
  urgency : Option String
  /-- In seconds; missing for alerts of an old build. -/
  createdAt : Option Int
  deriving DecidableEq

/-- The alerts of a host as they are sent. -/
structure Snapshot where
  /-- A random id as well. -/
  generation : Nat
  revision : Nat
  hostLabel : String
  alerts : Map Alert
  deriving DecidableEq

structure Source where
  alerts : Map Alert
  nextId : Nat
  snapshot : Option Snapshot
  nextGeneration : Nat
  /-- The snapshots that were taken, the first one first. -/
  taken : List Snapshot

namespace Source

variable (s : Source)

/-- The pending alert under a key has the id. -/
def pending (key : String) (id : Nat) : Bool := (s.alerts[key]?).any fun a => a.id = id

/-- `deliver`: an alert that is pending under the key stays, unless it is to be replaced. -/
def deliver (key : String) (a : Alert) (replace : Bool) : Source :=
  if (s.alerts[key]?).isSome ∧ replace = false then s
  else if maxEntries ≤ s.alerts.size ∧ (s.alerts[key]?).isNone then s
  else { s with
    alerts := s.alerts.insert key { a with id := s.nextId, label := truncate maxMessage a.label }
    nextId := s.nextId + 1 }

/-- `notify`: the session's own request; one with the same text is pending already. -/
def notify (key : String) (a : Alert) : Source :=
  if (s.alerts[key]?).any (fun old => old.message = a.message) then s else s.deliver key a true

/-- `escalate`: a request of the daemon. -/
def escalate (key : String) (a : Alert) : Source :=
  s.deliver key { a with message := truncate maxMessage a.message } false

def withdraw (key : String) (id : Nat) : Source :=
  if s.pending key id then { s with alerts := s.alerts.erase key } else s

/-- `update_system_message`: another text for the alert with the id. -/
def update (key : String) (id : Nat) (message : String) : Source :=
  match s.alerts[key]? with
  | none => s
  | some a =>
    if a.id = id ∧ a.message ≠ message then
      { s with alerts := s.alerts.insert key { a with message := truncate maxMessage message } }
    else s

/-- `acknowledge_ids`: each alert with exactly its key and id is cleared. -/
def acknowledge (ids : List (String × Nat)) : Source :=
  ids.foldl (fun s x => s.withdraw x.1 x.2) s

end Source

/-! ## Snapshots -/

def maxHosts : Nat := 16

def isControl (c : Char) : Bool := c.val < 0x20 || (0x7f ≤ c.val && c.val < 0xa0)

namespace Snapshot

/-- `validate`; `fits` says that the text of the snapshot is not too long. -/
def validate (fits : Snapshot → Bool) (x : Snapshot) : Bool :=
  x.revision ≠ 0 && x.hostLabel ≠ "" && x.hostLabel.utf8ByteSize ≤ 256
    && !(x.hostLabel.toList.any isControl) && x.alerts.size ≤ maxEntries && fits x
    && x.alerts.toList.all fun e =>
      e.1 ≠ "" && e.1.utf8ByteSize ≤ 1024 && e.2.sessionUid.utf8ByteSize ≤ 1024
        && e.2.label.utf8ByteSize ≤ maxMessage && e.2.message.utf8ByteSize ≤ maxMessage

/-- Snapshots of one generation are ordered by revision, and generations as they are drawn. -/
def Before (x y : Snapshot) : Prop :=
  x.generation < y.generation ∨ x.generation = y.generation ∧ x.revision < y.revision

end Snapshot

namespace Source

variable (fits : Snapshot → Bool) (s : Source)

/-- The alerts as they are sent: labels of an old build may be too long. -/
def capped : Map Alert := s.alerts.map fun _ a => { a with label := truncate maxMessage a.label }

/-- What `source` returns. -/
def record (x : Snapshot) : Source := { s with taken := if x ∈ s.taken then s.taken else s.taken ++ [x] }

/-- A snapshot that is not the last one is checked and stored before it is returned. -/
def store (x : Snapshot) (nextGeneration : Nat) : Source :=
  if x.validate fits then
    { s with snapshot := some x, nextGeneration := nextGeneration }.record x
  else s

/-- `source`: the last snapshot while nothing changes, else one with the next revision. -/
def take (hostLabel : String) : Source :=
  match s.snapshot with
  | none => s.store fits ⟨s.nextGeneration, 1, hostLabel, s.capped⟩ (s.nextGeneration + 1)
  | some x =>
    if x.hostLabel = hostLabel ∧ x.alerts = s.capped then s.record x
    else if x.revision + 1 < 2 ^ 64 then
      s.store fits ⟨x.generation, x.revision + 1, hostLabel, s.capped⟩ s.nextGeneration
    else s

/-- `remint`: the generation that the hub refused is replaced. -/
def remint (expected : Nat) : Source :=
  match s.snapshot with
  | none => s
  | some x =>
    if x.generation = expected then
      { s with
        snapshot := some { x with generation := s.nextGeneration, revision := 1 }
        nextGeneration := s.nextGeneration + 1 }
    else s

end Source

/-! ## The hub -/

structure Remote where
  snapshot : Snapshot
  /-- What was marked Seen, while the snapshot has that id. -/
  pending : Map Nat

structure Hub where
  origins : Map Remote

inductive Refusal where
  | invalid
  /-- `RESYNC_REQUIRED`. -/
  | resync
  | full
  deriving DecidableEq

namespace Hub

variable (h : Hub)

/-- What is kept of the Seen marks: those of alerts that the snapshot still has. -/
def keep (pending : Map Nat) (x : Snapshot) : Map Nat :=
  pending.filter fun key id => (x.alerts[key]?).any fun a => a.id = id

/-- An alert is announced that the last snapshot did not have; of the first one, what is recent. -/
def news (old : Option Remote) (pending : Map Nat) (x : Snapshot) (now : Int) : List (String × Alert) :=
  x.alerts.toList.filter fun e =>
    pending[e.1]? ≠ some e.2.id
      && (old.isSome || e.2.createdAt.any fun t => now - 900 ≤ t)
      && old.all fun r => (r.snapshot.alerts[e.1]?).all fun prev => prev.id ≠ e.2.id

def accept (origin : String) (x : Snapshot) (now : Int) : Hub × List (String × Alert) :=
  let old := h.origins[origin]?
  let pending := keep ((old.map Remote.pending).getD ∅) x
  (⟨h.origins.insert origin ⟨x, pending⟩⟩, news old pending x now)

/-- `ingest`: a snapshot of the last one's generation is accepted if its revision is higher. -/
def ingest (fits : Snapshot → Bool) (origin : String) (x : Snapshot) (now : Int) :
    Except Refusal (Hub × List (String × Alert)) :=
  if x.validate fits = false then .error .invalid
  else
    match h.origins[origin]? with
    | none => if maxHosts ≤ h.origins.size then .error .full else .ok (h.accept origin x now)
    | some old =>
      if old.snapshot.generation = x.generation then
        if x.revision < old.snapshot.revision then .error .resync
        else if old.snapshot.revision = x.revision then
          if old.snapshot = x then .ok (h, []) else .error .resync
        else .ok (h.accept origin x now)
      else .ok (h.accept origin x now)

/-- `seen`: an alert of the snapshot with exactly the key and the id is marked. -/
def seen (origin key : String) (id : Nat) : Hub × Bool :=
  match h.origins[origin]? with
  | none => (h, false)
  | some r =>
    if (r.snapshot.alerts[key]?).any fun a => a.id = id then
      (⟨h.origins.insert origin { r with pending := r.pending.insert key id }⟩, true)
    else (h, false)

/-- `pending`: the marks that go to an origin. -/
def marks (origin : String) : List (String × Nat) :=
  ((h.origins[origin]?).map fun r => r.pending.toList).getD []

/-- What `list` shows of an origin. -/
def Listed (origin key : String) (a : Alert) : Prop :=
  ∃ r, h.origins[origin]? = some r ∧ r.snapshot.alerts[key]? = some a ∧ r.pending[key]? ≠ some a.id

end Hub

end Alerts
