import Mathlib
import ClaudeManager.Program.Permits
import ClaudeManager.Board.Reseats

/-!
# Seats and permits

Placed tasks as their launch grants see them: a chart of all seats, and who is permitted to
launch for which task.

* `Tidy` — one live link for each task, one owner on it, and nobody else permitted
* `Tidy.move` — one seat changes, and the permits of its task with it
* `permits_moveLaunchGrants` — the grants of a transaction move as the permits do
-/

namespace Board

open Json Python Containers Program BoardTx

/-! ## Charts -/

/-- The seats of all items, by board and number. -/
abbrev Chart := String → Nat → Option Seat

/-- Who may launch: the owner-role holder of an open item. -/
def Seat.launcher (s : Seat) : Option String := if s.closed then none else ownerOf s.holders

/-- The item is the live link of the task. -/
def Seat.Links (s : Seat) (task : String) : Prop := s.taskId = some task ∧ s.linkArchivedAt = none

/-- Every holder has a pid, and a placed item one owner at most. -/
structure Seat.Proper (s : Seat) : Prop where
  named : ∀ h ∈ s.holders, h.pid ≠ ""
  single : ∀ task, s.Links task → (ownerPids s.holders).length ≤ 1

theorem Seat.Links.unique {s : Seat} {task task' : String} (h : s.Links task)
    (h' : s.Links task') : task = task' := Option.some.inj (h.1.symm.trans h'.1)

/-- One live link for each task, one owner on it at most, and nobody else permitted; where `e`
holds, the owner is. -/
structure Tidy (e : Prop) (C : Chart) (P : Permits String String) : Prop where
  alone : ∀ {task : String} {a b : String} {n m : Nat} {s s' : Seat}, C a n = some s →
    C b m = some s' → s.Links task → s'.Links task → a = b ∧ n = m
  proper : ∀ {a : String} {n : Nat} {s : Seat}, C a n = some s → s.Proper
  within : ∀ {a : String} {n : Nat} {s : Seat} {task : String}, C a n = some s → s.Links task →
    Permits.Within (P task) s.launcher
  exact : e → ∀ {a : String} {n : Nat} {s : Seat} {task : String}, C a n = some s → s.Links task →
    Permits.Exact (P task) s.launcher
  loose : ∀ {task : String}, (∀ a n s, C a n = some s → ¬ s.Links task) → P task = ∅

/-- A chart with other seats on one board. -/
def Chart.on (C : Chart) (ref : String) (seat : Nat → Option Seat) : Chart :=
  Function.update C ref seat

/-- A chart with one other seat. -/
def Chart.put (C : Chart) (ref : String) (n : Nat) (s : Seat) : Chart :=
  C.on ref (Function.update (C ref) n (some s))

namespace Chart

variable {C : Chart} {a b : String} {n m : Nat} {s : Seat} {seat : Nat → Option Seat}

theorem on_self : C.on a seat a = seat := Function.update_self ..

theorem on_eq (h : C a = seat) : C.on a seat = C := by
  unfold on
  rw [← h, Function.update_eq_self]

theorem put_on : (C.on a seat).put a n s = C.on a (Function.update seat n (some s)) := by
  unfold put
  rw [on_self]
  exact Function.update_idem ..

theorem put_self : C.put a n s a n = some s := by
  unfold put
  rw [on_self, Function.update_self]

theorem put_other (h : ¬ (b = a ∧ m = n)) : C.put a n s b m = C b m := by
  unfold put on
  by_cases hb : b = a
  · subst hb
    rw [Function.update_self, Function.update_of_ne fun hm => h ⟨rfl, hm⟩]
  · rw [Function.update_of_ne hb]

/-- A seat of the changed chart is the new one or an old one. -/
theorem put_some {s' : Seat} (h : C.put a n s b m = some s') :
    (b = a ∧ m = n ∧ s' = s) ∨ (¬ (b = a ∧ m = n) ∧ C b m = some s') := by
  by_cases heq : b = a ∧ m = n
  · obtain ⟨rfl, rfl⟩ := heq
    exact .inl ⟨rfl, rfl, (Option.some.inj (put_self.symm.trans h)).symm⟩
  · rw [put_other heq] at h
    exact .inr ⟨heq, h⟩

end Chart

/-- One seat changes, and the permits of the task it links with it. -/
structure Move (e : Prop) (C : Chart) (P : Permits String String) (a : String) (n : Nat) (s' : Seat)
    (P' : Permits String String) : Prop where
  proper : s'.Proper
  alone : ∀ task, s'.Links task → ∀ b m s, C b m = some s → s.Links task → b = a ∧ m = n
  within : ∀ task, s'.Links task → Permits.Within (P' task) s'.launcher
  exact : e → ∀ task, s'.Links task → Permits.Exact (P' task) s'.launcher
  kept : ∀ task, ¬ s'.Links task → (∀ s, C a n = some s → ¬ s.Links task) → P' task = P task
  dropped : ∀ task, ¬ s'.Links task → ∀ s, C a n = some s → s.Links task → P' task = ∅

variable {e : Prop} {C : Chart} {P P' : Permits String String} {a : String} {n : Nat} {s s' : Seat}

/-- The permits of a task linked by another item stay. -/
theorem Move.other (hm : Move e C P a n s' P') (h : Tidy e C P) {b : String} {m : Nat} {s : Seat}
    {task : String} (hne : ¬ (b = a ∧ m = n)) (hs : C b m = some s) (hlink : s.Links task) :
    P' task = P task := by
  refine hm.kept task (fun hl => hne (hm.alone task hl b m s hs hlink)) ?_
  intro s0 hs0 hl0
  obtain ⟨hb, hn⟩ := h.alone hs hs0 hlink hl0
  exact hne ⟨hb, hn⟩

theorem Tidy.move (h : Tidy e C P) (hm : Move e C P a n s' P') : Tidy e (C.put a n s') P' where
  alone := by
    intro task b c k m s1 s2 h1 h2 hl1 hl2
    rcases Chart.put_some h1 with ⟨rfl, rfl, rfl⟩ | ⟨-, hold1⟩
    · rcases Chart.put_some h2 with ⟨rfl, rfl, rfl⟩ | ⟨-, hold2⟩
      · exact ⟨rfl, rfl⟩
      · obtain ⟨hb, hn⟩ := hm.alone task hl1 _ _ _ hold2 hl2
        exact ⟨hb.symm, hn.symm⟩
    · rcases Chart.put_some h2 with ⟨rfl, rfl, rfl⟩ | ⟨-, hold2⟩
      · exact hm.alone task hl2 _ _ _ hold1 hl1
      · exact h.alone hold1 hold2 hl1 hl2
  proper := by
    intro b m s1 h1
    rcases Chart.put_some h1 with ⟨-, -, rfl⟩ | ⟨-, h1⟩
    · exact hm.proper
    · exact h.proper h1
  within := by
    intro b m s1 task h1 hl1
    rcases Chart.put_some h1 with ⟨-, -, rfl⟩ | ⟨hne, h1⟩
    · exact hm.within task hl1
    · rw [hm.other h hne h1 hl1]
      exact h.within h1 hl1
  exact := by
    intro he b m s1 task h1 hl1
    rcases Chart.put_some h1 with ⟨-, -, rfl⟩ | ⟨hne, h1⟩
    · exact hm.exact he task hl1
    · rw [hm.other h hne h1 hl1]
      exact h.exact he h1 hl1
  loose := by
    intro task hnone
    have hself : ¬ s'.Links task := hnone a n s' Chart.put_self
    by_cases hold : ∃ s, C a n = some s ∧ s.Links task
    · obtain ⟨s, hs, hl⟩ := hold
      exact hm.dropped task hself s hs hl
    · rw [hm.kept task hself fun s hs hl => hold ⟨s, hs, hl⟩]
      refine h.loose fun b m s1 h1 hl1 => ?_
      by_cases hne : b = a ∧ m = n
      · obtain ⟨rfl, rfl⟩ := hne
        exact hold ⟨s1, h1, hl1⟩
      · exact hnone b m s1 (Chart.put_other hne ▸ h1) hl1

/-! ## Permits of a transaction -/

/-- Who is permitted to launch for which task. -/
def permits (grants : List LaunchGrant) : Permits String String :=
  fun task => {pid | ∃ g ∈ grants, g.live = true ∧ g.taskId = task ∧ g.pid = pid}

/-- Who may grant, as far as a transaction tells. -/
def Seating.mayGrant (σ : Seating) (orchestrator old : Option String) : Bool :=
  σ.actor.pid = ownerPid || (isSet old && old = some σ.actor.pid)
    || σ.board.stewardPid = some σ.actor.pid || σ.board.orchestratorPid = some σ.actor.pid
    || orchestrator = some σ.actor.pid

/-- The handover a recorded change of owner makes, if its item has a task. -/
def Seating.handover (σ : Seating) (orchestrator : Option String) (c : OwnerChange) :
    Option (Handover String String) :=
  (σ.seat c.1).bind fun s => s.taskId.map fun task =>
    ⟨task, c.2.1.filter (· ≠ ""),
      if s.linkArchivedAt = none ∧ s.closed = false ∧ σ.mayGrant orchestrator c.2.1 = true then
        c.2.2.map Holder.pid
      else none⟩

def Seating.move (σ : Seating) (orchestrator : Option String) (P : Permits String String)
    (c : OwnerChange) : Permits String String :=
  match σ.handover orchestrator c with
  | some h => P.hand h
  | none => P

/-- The permits once the recorded changes of owner are through. -/
def Seating.moved (σ : Seating) (orchestrator : Option String) (P : Permits String String) :
    Permits String String := σ.ownerChanges.foldl (σ.move orchestrator) P

variable {grants : List LaunchGrant}

theorem mem_permits_revokeGrants {s : String → String → Bool} {r : Revocation}
    {task pid : String} :
    pid ∈ permits (revokeGrants (fun g => s g.taskId g.pid) r grants) task ↔
      pid ∈ permits grants task ∧ s task pid = false := by
  unfold permits revokeGrants
  constructor
  · rintro ⟨g', hg', hlive, rfl, rfl⟩
    obtain ⟨g, hg, rfl⟩ := List.mem_map.mp hg'
    split at hlive
    · cases hlive
    · next hnot =>
      rw [if_neg hnot]
      refine ⟨⟨g, hg, hlive, rfl, rfl⟩, ?_⟩
      simpa [hlive] using hnot
  · rintro ⟨⟨g, hg, hlive, rfl, rfl⟩, hsel⟩
    refine ⟨g, List.mem_map.mpr ⟨g, hg, ?_⟩, hlive, rfl, rfl⟩
    rw [if_neg (by simp [hsel])]

theorem mem_permits_insertGrant {g : LaunchGrant} (hlive : g.live = true) {task pid : String} :
    pid ∈ permits (insertGrant g grants) task ↔
      pid ∈ permits grants task ∨ (g.taskId = task ∧ g.pid = pid) := by
  unfold insertGrant
  split
  · next hany =>
    constructor
    · exact .inl
    · rintro (hmem | ⟨rfl, rfl⟩)
      · exact hmem
      · obtain ⟨g', hg', hsame⟩ := List.any_eq_true.mp hany
        simp only [Bool.and_eq_true, decide_eq_true_eq] at hsame
        exact ⟨g', hg', hsame.1.1, hsame.1.2, hsame.2⟩
  · unfold permits
    constructor
    · rintro ⟨g', hg', hl, ht, hp⟩
      rcases List.mem_append.mp hg' with hg' | hg'
      · exact .inl ⟨g', hg', hl, ht, hp⟩
      · obtain rfl := List.mem_singleton.mp hg'
        exact .inr ⟨ht, hp⟩
    · rintro (⟨g', hg', hrest⟩ | hself)
      · exact ⟨g', List.mem_append_left _ hg', hrest⟩
      · exact ⟨g, List.mem_append_right _ (List.mem_singleton.mpr rfl), hlive, hself⟩

/-- One recorded change of owner moves the grants as it moves the permits. -/
theorem permits_moveGrant {tx : BoardTx} {orchestrator : Option String} {c : OwnerChange} :
    permits (tx.moveGrant orchestrator grants c) =
      tx.seating.move orchestrator (permits grants) c := by
  obtain ⟨n, old, new⟩ := c
  have hseat : tx.seating.seat n = tx.items[n]?.map Item.seat := rfl
  unfold moveGrant Seating.move Seating.handover
  simp only [hseat]
  cases tx.items[n]? with
  | none => rfl
  | some it =>
    simp only [Option.map_some, Option.bind_some, Item.seat]
    cases it.taskId with
    | none => rfl
    | some task =>
      simp only [Option.map_some]
      obtain ⟨mid, hmid⟩ : ∃ mid, (if isSet old = true then revokeGrants
        (fun g => decide (g.taskId = task) && decide (old = some g.pid)) (tx.revocation it new)
          grants else grants) = mid := ⟨_, rfl⟩
      have hold : ∀ (key pid : String), pid ∈ permits mid key ↔ pid ∈ permits grants key ∧
          (key = task → old.filter (· ≠ "") ≠ some pid) := by
        intro key pid
        rw [← hmid]
        cases old with
        | none => simp [isSet]
        | some p =>
          by_cases hp : p = ""
          · simp [isSet, hp]
          · have hset : isSet (some p) = true := by simp [isSet, hp]
            rw [if_pos hset, mem_permits_revokeGrants
              (s := fun t q => decide (t = task) && decide (some p = some q)),
              Option.filter_some, if_pos (by simpa using hp)]
            simp
      rw [hmid]
      funext key
      ext pid
      have hmay : tx.mayGrant orchestrator old = tx.seating.mayGrant orchestrator old := rfl
      unfold Permits.hand
      by_cases hkey : key = task
      · subst hkey
        rw [Function.update_self]
        unfold Permits.passed
        cases new with
        | none => simpa using hold key pid
        | some new =>
          simp only [Option.map_some, hmay]
          split
          · rw [mem_permits_insertGrant rfl, hold]
            simp [BoardTx.grantOf]
          · simpa using hold key pid
      · rw [Function.update_of_ne hkey]
        have hmem := hold key pid
        rw [and_iff_left fun h => absurd h hkey] at hmem
        cases new with
        | none => exact hmem
        | some new =>
          simp only
          split
          · rw [mem_permits_insertGrant rfl, hmem]
            simp [BoardTx.grantOf, Ne.symm hkey]
          · exact hmem

/-- The grants of a transaction move as the permits do. -/
theorem permits_moveLaunchGrants {tx : BoardTx} {orchestrator : Option String} :
    permits (tx.moveLaunchGrants orchestrator grants) =
      tx.seating.moved orchestrator (permits grants) := by
  unfold moveLaunchGrants Seating.moved
  show permits (tx.ownerChanges.foldl _ _) = tx.ownerChanges.foldl _ _
  induction tx.ownerChanges generalizing grants with
  | nil => rfl
  | cons c cs ih => rw [List.foldl_cons, List.foldl_cons, ih, permits_moveGrant]

/-- All grants of a task are revoked. -/
theorem permits_revokeTaskGrants {task : String} {actor : Actor} {now : Instant}
    {reason : String} : permits (revokeTaskGrants task actor now reason grants) =
      (permits grants).clear task := by
  funext key
  ext pid
  unfold revokeTaskGrants
  rw [mem_permits_revokeGrants (s := fun t _ => decide (t = task))]
  by_cases hkey : key = task
  · rw [hkey, Permits.clear_self]
    simp
  · rw [Permits.clear_other hkey]
    simp [hkey]

/-- Changes of owner see only the seats of their own items. -/
theorem Seating.moved_congr {σ σ' : Seating} {orchestrator : Option String}
    (hchanges : σ'.ownerChanges = σ.ownerChanges)
    (hseat : ∀ c ∈ σ.ownerChanges, σ'.seat c.1 = σ.seat c.1)
    (hmay : ∀ old, σ'.mayGrant orchestrator old = σ.mayGrant orchestrator old) :
    σ'.moved orchestrator P = σ.moved orchestrator P := by
  unfold Seating.moved
  rw [hchanges]
  refine List.foldl_ext _ _ _ fun Q c hc => ?_
  unfold Seating.move Seating.handover
  rw [hseat c hc]
  simp only [hmay]

end Board
