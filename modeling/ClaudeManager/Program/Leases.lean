import Mathlib
import ClaudeManager.Program.Runs

/-!
# Leases

One worker at a time is to work under a lease. A worker takes the lease when nobody holds it and
gives it back when it has finished, without looking whether it still is its own; and the lease
can be revoked by somebody who thinks that its holder has gone.

* `Lease.Step` — what workers and revokers do
* `Lease.Exclusive` — whoever is at work is the only one, and holds the lease
* `Lease.Exclusive.step` — kept as long as no lease is revoked under its holder's work
-/

namespace Program

/-- A lease, and who is at work. -/
structure Lease (ι : Type) where
  holder : Option ι
  working : List ι

namespace Lease

variable {ι : Type} [DecidableEq ι] {l l' : Lease ι} {i j : ι}

/-- Take the lease and start to work. -/
def take (i : ι) (l : Lease ι) : Lease ι := ⟨some i, i :: l.working⟩

/-- Finish, and give back whatever lease there is. -/
def finish (i : ι) (l : Lease ι) : Lease ι := ⟨none, l.working.erase i⟩

/-- Stop without giving the lease back. -/
def lose (i : ι) (l : Lease ι) : Lease ι := ⟨l.holder, l.working.erase i⟩

/-- Withdraw the lease. -/
def revoke (l : Lease ι) : Lease ι := ⟨none, l.working⟩

/-- Everybody stops at once. -/
def crash (l : Lease ι) : Lease ι := ⟨l.holder, []⟩

/-- What workers and revokers do. -/
inductive Step : Lease ι → Lease ι → Prop
  | idle (l : Lease ι) : Step l l
  | take (i : ι) (l : Lease ι) (free : l.holder = none) : Step l (l.take i)
  | finish (i : ι) (l : Lease ι) (mem : i ∈ l.working) : Step l (l.finish i)
  | lose (i : ι) (l : Lease ι) (mem : i ∈ l.working) : Step l (l.lose i)
  | revoke (l : Lease ι) (calm : l.working = []) : Step l l.revoke
  | crash (l : Lease ι) : Step l l.crash

/-- Whoever is at work is the only one, and holds the lease. -/
def Exclusive (l : Lease ι) : Prop :=
  l.working = [] ∨ ∃ i, l.working = [i] ∧ l.holder = some i

omit [DecidableEq ι] in
/-- Nobody works under a lease that is free. -/
theorem Exclusive.working_nil (h : l.Exclusive) (free : l.holder = none) : l.working = [] := by
  rcases h with h | ⟨i, -, hi⟩
  · exact h
  · rw [free] at hi
    cases hi

omit [DecidableEq ι] in
/-- Whoever is at work is alone and holds the lease. -/
theorem Exclusive.of_mem (h : l.Exclusive) (hi : i ∈ l.working) :
    l.working = [i] ∧ l.holder = some i := by
  rcases h with h | ⟨j, hj, hheld⟩
  · rw [h] at hi
    cases hi
  · rw [hj, List.mem_singleton] at hi
    subst hi
    exact ⟨hj, hheld⟩

/-- The work of the one worker ends. -/
theorem Exclusive.erase (h : l.Exclusive) (hi : i ∈ l.working) : l.working.erase i = [] := by
  rw [(h.of_mem hi).1, List.erase_cons_head]

/-- No step lets a second worker in, as long as nobody's lease is revoked. -/
theorem Exclusive.step (h : l.Exclusive) (hstep : Step l l') : l'.Exclusive := by
  cases hstep with
  | idle => exact h
  | take i _ free =>
    refine .inr ⟨i, ?_, rfl⟩
    show i :: l.working = [i]
    rw [h.working_nil free]
  | finish i _ mem => exact .inl (h.erase mem)
  | lose i _ mem => exact .inl (h.erase mem)
  | revoke _ calm => exact .inl calm
  | crash => exact .inl rfl

end Lease

end Program
