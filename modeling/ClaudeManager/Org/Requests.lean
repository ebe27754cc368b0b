import Mathlib
import ClaudeManager.Org.Operations

/-!
# Requests to the organization

A request has an id, and is answered once: its response is stored, and the same request gets it again.
Most requests are one transaction. Owner's decisions on the roster are a transaction each, and their
response is stored after the last one.

* `Service` — the organization, stored responses, and calls that are under way
* `Decision.run` — one row of Owner's decisions
* `Service.step` — calls in any order, which may end at any point
-/

namespace Org

/-! ## Responses -/

inductive Method where
  | rosterApply
  | write (name : String)
  deriving DecidableEq

/-- The primary key of stored responses. -/
structure Key where
  actor : Pid
  method : Method
  request : String
  deriving DecidableEq

/-- What a transaction has committed. Rows are known by their position. -/
inductive Effect where
  | written
  | created (row : Nat) (proposal : String) (member : MemberId)
  | updated (row : Nat) (proposal : String) (member : MemberId)
  | declined (row : Nat) (proposal : String)
  deriving DecidableEq

def Effect.row : Effect → Option Nat
  | .written => none
  | .created row _ _ | .updated row _ _ | .declined row _ => some row

structure Rejection where
  row : Nat
  proposal : Option String
  refusal : Refusal
  deriving DecidableEq

/-- What was decided so far: created, updated and declined ones, and refusals. -/
structure Applied where
  created : List Effect
  updated : List Effect
  declined : List Effect
  rejected : List Rejection
  deriving DecidableEq

inductive Response where
  | written
  | applied (a : Applied)
  deriving DecidableEq

def Applied.effects (a : Applied) : List Effect := a.created ++ a.updated ++ a.declined

def Applied.add (a : Applied) : Effect → Applied
  | .written => a
  | .created row proposal member => { a with created := a.created ++ [.created row proposal member] }
  | .updated row proposal member => { a with updated := a.updated ++ [.updated row proposal member] }
  | .declined row proposal => { a with declined := a.declined ++ [.declined row proposal] }

def Response.effects : Response → List Effect
  | .written => [.written]
  | .applied a => a.effects

def Response.rejected : Response → List Rejection
  | .written => []
  | .applied a => a.rejected

/-! ## Calls -/

/-- A row of Owner's decisions; ids of what it creates are drawn for it. -/
inductive Decision where
  /-- There is no proposal id. -/
  | malformed
  | decline (proposal : String)
  | approve (proposal : String) (newTeam : TaskId → TeamId) (id : MemberId) (row : Store.Row)

def Decision.proposal : Decision → Option String
  | .malformed => none
  | .decline proposal => some proposal
  | .approve proposal _ _ _ => some proposal

/-- `states` is what the call tells about continuous tasks. -/
inductive Call (κ : Type) where
  | write (o : Op)
  | roster (states : κ) (rows : List Decision)

inductive Phase (κ : Type) where
  | begun (call : Call κ)
  /-- No response was found. -/
  | writing (o : Op)
  | deciding (states : κ) (left : List (Nat × Decision)) (done : Applied)
  | answered (r : Response)

structure Running (κ : Type) where
  key : Key
  phase : Phase κ

structure Service (κ : Type) where
  store : Store
  declines : List String
  requests : Key → Option Response
  calls : Nat → Option (Running κ)
  next : Nat
  /-- What was committed under a key, and by which call. -/
  committed : List (Key × Nat × Effect)
  /-- What calls returned. -/
  returned : List (Key × Response)

/-! ## Rows -/

def maxRows : Nat := 200

/-- `generate_roster`: a proposal by its id, with the place of its source in the order of rows. -/
abbrev Generate (κ : Type) := κ → Store → List String → String → Option (Nat × Store.Proposal)

variable {κ : Type} (generate : Generate κ)

/-- The transaction of a row. -/
def Decision.run (states : κ) (row : Nat) (s : Store) (declines : List String) :
    Decision → Except Refusal ((Store × List String) × Effect)
  | .malformed => .error ⟨422, "invalid_field"⟩
  | .decline proposal =>
    .ok ((s, if proposal ∈ declines then declines else declines ++ [proposal]), .declined row proposal)
  | .approve proposal newTeam id change =>
    match generate states s declines proposal with
    | none => .error ⟨409, "stale"⟩
    | some (_, p) =>
      match s.applyProposal newTeam id p change with
      | .error e => .error e
      | .ok s' =>
        .ok ((s', declines), match p.member with
          | some member => .updated row proposal member
          | none => .created row proposal id)

/-- Continuous tasks come first, then leads, then lanes. -/
def rowRank (states : κ) (s : Store) (declines : List String) (d : Decision) : Nat :=
  (d.proposal.bind fun proposal => (generate states s declines proposal).map Prod.fst).getD 9

/-- Rows in the order in which they are decided. -/
def orderRows (states : κ) (s : Store) (declines : List String) (rows : List Decision) :
    List (Nat × Decision) :=
  (rows.zipIdx.map fun x => (x.2, x.1)).mergeSort fun x y =>
    rowRank generate states s declines x.2 ≤ rowRank generate states s declines y.2

/-! ## Calls under way -/

namespace Service

variable (v : Service κ)

def setCall (i : Nat) (c : Option (Running κ)) : Service κ :=
  { v with calls := Function.update v.calls i c }

def advance (i : Nat) (key : Key) (phase : Phase κ) : Service κ := v.setCall i (some ⟨key, phase⟩)

/-- A call with a request id. -/
def begin (key : Key) (call : Call κ) : Service κ :=
  match key.method, call with
  | .write _, .write o => { v.advance v.next key (.begun (.write o)) with next := v.next + 1 }
  | .rosterApply, .roster states rows =>
    if key.actor = ownerPid ∧ rows ≠ [] ∧ rows.length ≤ maxRows then
      { v.advance v.next key (.begun (.roster states rows)) with next := v.next + 1 }
    else v
  | _, _ => v

/-- A stored response is looked for, outside of any transaction. -/
def look (i : Nat) : Service κ :=
  match v.calls i with
  | some ⟨key, .begun call⟩ =>
    match v.requests key, call with
    | some r, _ => v.advance i key (.answered r)
    | none, .write o => v.advance i key (.writing o)
    | none, .roster states rows =>
      v.advance i key (.deciding states (orderRows generate states v.store v.declines rows) ⟨[], [], [], []⟩)
  | _ => v

/-- The transaction of a write, which looks for a stored response again. -/
def transact (i : Nat) : Service κ :=
  match v.calls i with
  | some ⟨key, .writing o⟩ =>
    match v.requests key with
    | some r => v.advance i key (.answered r)
    | none =>
      match v.store.perform o with
      | .error _ => v.setCall i none
      | .ok s =>
        { v.advance i key (.answered .written) with
          store := s
          requests := Function.update v.requests key (some .written)
          committed := v.committed ++ [(key, i, .written)] }
  | _ => v

/-- The transaction of the next row. -/
def decideRow (i : Nat) : Service κ :=
  match v.calls i with
  | some ⟨key, .deciding states ((row, d) :: left) done⟩ =>
    match d.run generate states row v.store v.declines with
    | .error e =>
      v.advance i key (.deciding states left
        { done with rejected := done.rejected ++ [⟨row, d.proposal, e⟩] })
    | .ok ((s, declines), effect) =>
      { v.advance i key (.deciding states left (done.add effect)) with
        store := s
        declines := declines
        committed := v.committed ++ [(key, i, effect)] }
  | _ => v

/-- The last transaction, which stores the response, or finds another one. -/
def finish (i : Nat) : Service κ :=
  match v.calls i with
  | some ⟨key, .deciding _ [] done⟩ =>
    match v.requests key with
    | some r => v.advance i key (.answered r)
    | none =>
      { v.advance i key (.answered (.applied done)) with
        requests := Function.update v.requests key (some (.applied done)) }
  | _ => v

def reply (i : Nat) : Service κ :=
  match v.calls i with
  | some ⟨key, .answered r⟩ => { v.setCall i none with returned := v.returned ++ [(key, r)] }
  | _ => v

end Service

inductive RequestEvent (κ : Type) where
  | begin (key : Key) (call : Call κ)
  | look (i : Nat)
  | transact (i : Nat)
  | decideRow (i : Nat)
  | finish (i : Nat)
  | reply (i : Nat)
  /-- A call ends here; what it has committed stays. -/
  | crash (i : Nat)
  /-- Calls without an id, heartbeats, and whatever else changes the organization. -/
  | other (s : Store) (declines : List String)

def Service.step (v : Service κ) : RequestEvent κ → Service κ
  | .begin key call => v.begin key call
  | .look i => v.look generate i
  | .transact i => v.transact i
  | .decideRow i => v.decideRow generate i
  | .finish i => v.finish i
  | .reply i => v.reply i
  | .crash i => v.setCall i none
  | .other s declines => { v with store := s, declines := declines }

/-- No request has been made. -/
def Service.start (s : Store) (declines : List String) : Service κ :=
  ⟨s, declines, fun _ => none, fun _ => none, 0, [], []⟩

end Org
