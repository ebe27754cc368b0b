import Mathlib
import ClaudeManager.Restart.Fence

/-!
# Runs of the restart barrier

* `Fenced.quiesced`, `Fenced.parked_run` — the barrier is reached when a waiter returns, and it
  stays reached for the parked points
* `Heard.step` — a waiter that sleeps is told, unless a dropped handle was all it waited for
* `barrier_runs` — what every run keeps
* `dropped_unheard`, `drain_forgotten` — a waiter nobody tells, and an operator's drain undone
-/

namespace Restart

open Program

variable {s s' : State}

/-! ## Reaching the barrier -/

/-- What a waiter would return now. -/
def State.returns (s : State) (late : Bool) : Option (Except QuiesceTimedOut Unit) :=
  match s.lock with
  | .scanning [] unpaused => s.verdict unpaused late
  | _ => none

/-- The barrier lets a waiter through only when it is reached. -/
theorem Fenced.quiesced (h : Fenced s) {late : Bool} (hret : s.returns late = some (.ok ())) :
    s.Quiesced := by
  unfold State.returns at hret
  split at hret
  · next unpaused hlock =>
    unfold State.verdict at hret
    split at hret
    · next hzero =>
      obtain ⟨hflight, rfl⟩ := hzero
      exact ⟨h.guards ▸ hflight, fun p hp => (h.points p hp).seen [] hlock List.not_mem_nil⟩
    · split at hret
      · cases hret
      · cases hret
  · cases hret

/-- A point that has parked. -/
def State.Parked (s : State) (k : Nat) : Prop := ∃ p ∈ s.points, p.id = k ∧ p.spot.parked = true

/-- Some attempt `i` is owned: `begin` has returned, and its guard was not dropped. -/
def State.Owned (s : State) (i : Nat) : Prop := ∃ a ∈ s.attempts, a.id = i ∧ a.phase = .owned

/-- A change of points that no waiter could see. -/
structure Steady (f : SafePoint → SafePoint) : Prop where
  id : ∀ p, (f p).id = p.id
  parked : ∀ p, (f p).spot.parked = p.spot.parked
  acked : ∀ p, p.spot = .acked → (f p).spot = .acked
  bracketed : ∀ p, p.spot = .bracketed → (f p).spot = .bracketed

theorem steady_id : Steady fun p => p := ⟨fun _ => rfl, fun _ => rfl, fun _ h => h, fun _ h => h⟩

theorem steady_flags {k : Nat} {f : SafePoint → SafePointFlags} :
    Steady fun p => if p.id = k then { p with flags := f p } else p := by
  refine ⟨?_, ?_, ?_, ?_⟩ <;> intro p
  · split <;> rfl
  · split <;> rfl
  · intro hp
    split
    · exact hp
    · exact hp
  · intro hp
    split
    · exact hp
    · exact hp

theorem steady_wake {k : Nat} : Steady fun p =>
    if p.id = k then (if p.spot = .asleep then { p with spot := .rechecking } else p) else p := by
  refine ⟨?_, ?_, ?_, ?_⟩ <;> intro p
  · split
    · split <;> rfl
    · rfl
  · split
    · split
      · next hspot => rw [hspot]; rfl
      · rfl
    · rfl
  · intro hp
    rw [hp]
    simp [hp]
  · intro hp
    rw [hp]
    simp [hp]

/-- The loops over the registry change flags only, and wake points. -/
theorem advance_steady : ∃ f, Steady f ∧ s.advance.points = s.points.map f ∧
    s.advance.waiters = s.waiters ∧ s.advance.guards = s.guards ∧ s.advance.leaving = s.leaving := by
  unfold State.advance
  split
  · exact ⟨_, steady_id, (List.map_id' _).symm, rfl, rfl, rfl⟩
  · exact ⟨_, steady_id, (List.map_id' _).symm, rfl, rfl, rfl⟩
  · split
    · exact ⟨_, steady_flags, rfl, rfl, rfl, rfl⟩
    · exact ⟨_, steady_id, (List.map_id' _).symm, rfl, rfl, rfl⟩
  · exact ⟨_, steady_id, (List.map_id' _).symm, rfl, rfl, rfl⟩
  · split
    · exact ⟨_, steady_flags, rfl, rfl, rfl, rfl⟩
    · exact ⟨_, steady_id, (List.map_id' _).symm, rfl, rfl, rfl⟩
  · exact ⟨_, steady_wake, rfl, rfl, rfl, rfl⟩
  · exact ⟨_, steady_id, (List.map_id' _).symm, rfl, rfl, rfl⟩
  · split
    · exact ⟨_, steady_id, (List.map_id' _).symm, rfl, rfl, rfl⟩
    · exact ⟨_, steady_id, (List.map_id' _).symm, rfl, rfl, rfl⟩

section

variable {k : Nat}

theorem parked_same (hp : s.Parked k) (hpoints : s'.points = s.points) : s'.Parked k := by
  unfold State.Parked
  rw [hpoints]
  exact hp

theorem parked_map {f : SafePoint → SafePoint} (hp : s.Parked k) (hid : ∀ p, (f p).id = p.id)
    (hf : ∀ p ∈ s.points, p.spot.parked = true → (f p).spot.parked = true)
    (hpoints : s'.points = s.points.map f) : s'.Parked k := by
  obtain ⟨p, hmem, rfl, hparked⟩ := hp
  refine ⟨f p, ?_, hid p, hf p hmem hparked⟩
  rw [hpoints]
  exact List.mem_map_of_mem hmem

theorem parked_onPoint {f : SafePoint → SafePoint} {j : Nat} (hp : s.Parked k)
    (hid : ∀ p, (f p).id = p.id)
    (hf : ∀ p ∈ s.points, p.spot.parked = true → (f p).spot.parked = true) :
    (s.onPoint j f).Parked k := by
  refine parked_map hp ?_ ?_ rfl
  · intro p
    split
    · exact hid p
    · rfl
  · intro p hmem hparked
    split
    · exact hf p hmem hparked
    · exact hparked

/-- While the attempt is owned, a point that has parked stays parked. -/
theorem Fenced.parked_step (h : Fenced s) {i : Nat} (ho : s.Owned i) (hp : s.Parked k)
    (e : Event) : (s.step e).Parked k := by
  obtain ⟨a, ha, -, hphase⟩ := ho
  have hreq : ∀ p ∈ s.points, p.flags.pauseRequested = true := fun p hmem =>
    h.owned_requested ha hphase hmem
  cases e with
  | enterMutation => exact parked_same hp (by simp only [State.step, State.enterMutation]; split <;> rfl)
  | dropMutation => exact parked_same hp (by simp only [State.step, State.dropMutation]; split <;> rfl)
  | notifyZero => exact parked_same hp (by simp only [State.step, State.notifyZero]; split <;> rfl)
  | register j name =>
    obtain ⟨p, hmem, hid, hparked⟩ := hp
    simp only [State.step, State.registerSubsystem]
    split
    · exact ⟨p, List.mem_append_left _ hmem, hid, hparked⟩
    · exact ⟨p, hmem, hid, hparked⟩
  | dropHandle j =>
    obtain ⟨p, hmem, hid, hparked⟩ := hp
    refine ⟨p, List.mem_filter.mpr ⟨hmem, ?_⟩, hid, hparked⟩
    have hne : p.spot ≠ .running := by
      intro hrun
      rw [hrun] at hparked
      cases hparked
    simp [hne]
  | parkIfRequested j =>
    refine parked_onPoint hp (fun p => by split <;> rfl) fun p _ hparked => ?_
    split
    · next hrun =>
      rw [hrun.1] at hparked
      cases hparked
    · exact hparked
  | parkUntilResumed j =>
    refine parked_onPoint hp (fun p => by split <;> rfl) fun p _ hparked => ?_
    split
    · rfl
    · exact hparked
  | bracket j =>
    simp only [State.step, State.bracket]
    split
    · refine parked_onPoint hp (fun p => by split <;> rfl) fun p _ hparked => ?_
      split
      · rfl
      · exact hparked
    · exact hp
  | notifyProgress j =>
    simp only [State.step, State.notifyProgress]
    split
    · refine parked_same (s := s.onPoint j _) (parked_onPoint hp (fun p => by split <;> rfl) ?_) rfl
      intro p _ hparked
      split
      · rfl
      · exact hparked
    · exact hp
  | recheck j =>
    refine parked_onPoint hp (fun p => ?_) fun p hmem hparked => ?_
    · split
      · split <;> rfl
      · rfl
    · split
      · rw [if_pos (hreq p hmem)]
        rfl
      · exact hparked
  | wakePoint j =>
    refine parked_onPoint hp (fun p => by split <;> rfl) fun p _ hparked => ?_
    split
    · rfl
    · exact hparked
  | setDraining enable => exact parked_same hp rfl
  | begin j => exact parked_same hp (by simp only [State.step, State.begin]; split <;> rfl)
  | requestPauseAll j =>
    exact parked_same hp (by simp only [State.step, State.requestPauseAll]; split <;> rfl)
  | abort j => exact parked_same hp (by simp only [State.step, State.abort]; split <;> rfl)
  | restore j => exact parked_same hp (by simp only [State.step, State.restore]; split <;> rfl)
  | waitQuiesced w j =>
    exact parked_same hp (by simp only [State.step, State.waitQuiesced]; split <;> rfl)
  | check w => exact parked_same hp (by simp only [State.step, State.check]; split <;> rfl)
  | scan => exact parked_same hp (by simp only [State.step, State.scan]; split <;> rfl)
  | decide late =>
    refine parked_same hp ?_
    simp only [State.step, State.decide]
    split
    · split <;> rfl
    · rfl
  | wakeWaiter w => exact parked_same hp rfl
  | advance =>
    obtain ⟨f, hf, hpoints, -⟩ := advance_steady (s := s)
    exact parked_map hp hf.id (fun p _ hparked => (hf.parked p).trans hparked) hpoints

theorem Fenced.parked_run (h : Fenced s) {i : Nat} (hp : s.Parked k) {es : List Event}
    (ho : Meets State.step (fun s _ => s.Owned i) s es) : (es.foldl State.step s).Parked k := by
  induction es generalizing s with
  | nil => exact hp
  | cons e es ih => exact ih (h.step e) (h.parked_step ho.1 hp e) ho.2

end

/-! ## Telling the waiters -/

/-- Some thread stands between a change and its notification of the waiters. -/
def State.Noticing (s : State) : Prop :=
  0 < s.leaving ∨ ∃ p ∈ s.points, p.spot = .acked ∨ p.spot = .bracketed

/-- Some waiter is in `quiesce_cv`. -/
def State.Sleeping (s : State) : Prop := ∃ w ∈ s.waiters, w.asleep = true

/-- A waiter sleeps on a barrier that is reached only while somebody is about to tell it. -/
structure Heard (s : State) : Prop where
  told : s.Sleeping → s.Quiesced → s.Noticing
  counted : ∀ rest unpaused, s.lock = .scanning rest unpaused → unpaused ≠ [] →
    s.guards ≠ 0 ∨ ∃ p ∈ s.points, p.spot.parked = false ∨ p.spot = .acked

/-- Point `k` is all that the barrier waits for, a waiter counts on it, and nobody else is about
to tell the waiter. -/
def State.Strands (s : State) (k : Nat) : Prop :=
  (∃ p ∈ s.points, p.id = k ∧ p.spot = .running) ∧ s.guards = 0 ∧
    (∀ p ∈ s.points, p.id ≠ k → p.spot.parked = true) ∧
    ((s.Sleeping ∧ ¬ s.Noticing) ∨ ∃ rest unpaused, s.lock = .scanning rest unpaused ∧
      unpaused ≠ [] ∧ ∀ p ∈ s.points, p.spot ≠ .acked)

/-- No handle is dropped that a waiter counts on alone. -/
def State.Tells (s : State) : Event → Prop
  | .dropHandle k => ¬ s.Strands k
  | _ => True

theorem heard_start (draining : Bool) : Heard (start draining) where
  told := by
    rintro ⟨w, hw, -⟩
    cases hw
  counted := by
    intro rest unpaused hlock
    cases hlock

namespace Heard

/-- A step that no waiter could see. -/
theorem congr (h : Heard s) (hsleep : s'.Sleeping → s.Sleeping) (hguards : s'.guards = s.guards)
    (hleaving : s'.leaving = s.leaving) (hpoints : s'.points = s.points)
    (hlock : ∀ rest unpaused, s'.lock = .scanning rest unpaused → unpaused ≠ [] →
      ∃ rest, s.lock = .scanning rest unpaused) : Heard s' where
  told := by
    intro hs hq
    have hold := h.told (hsleep hs) ⟨hguards ▸ hq.1, fun p hp => hq.2 p (hpoints ▸ hp)⟩
    unfold State.Noticing
    rw [hleaving, hpoints]
    exact hold
  counted := by
    intro rest unpaused hs hne
    obtain ⟨rest', hs'⟩ := hlock rest unpaused hs hne
    rw [hguards, hpoints]
    exact h.counted rest' unpaused hs' hne

/-- A point that parks has acknowledged, and is about to tell. -/
theorem told_map {f : SafePoint → SafePoint} (h : Heard s) (hsleep : s'.Sleeping → s.Sleeping)
    (hguards : s'.guards = s.guards) (hleaving : s'.leaving = s.leaving)
    (hpoints : s'.points = s.points.map f)
    (hparked : ∀ p, (f p).spot.parked = true → p.spot.parked = true ∨ (f p).spot = .acked)
    (htelling : s'.Sleeping → ∀ p, p.spot = .acked ∨ p.spot = .bracketed →
      (f p).spot = .acked ∨ (f p).spot = .bracketed) :
    s'.Sleeping → s'.Quiesced → s'.Noticing := by
  intro hs hq
  by_cases hall : ∀ p ∈ s.points, p.spot.parked = true
  · rcases h.told (hsleep hs) ⟨hguards ▸ hq.1, hall⟩ with hl | ⟨p, hp, hspot⟩
    · exact .inl (hleaving ▸ hl)
    · refine .inr ⟨f p, ?_, htelling hs p hspot⟩
      rw [hpoints]
      exact List.mem_map_of_mem hp
  · simp only [not_forall] at hall
    obtain ⟨p, hp, hnot⟩ := hall
    have hmem : f p ∈ s'.points := by
      rw [hpoints]
      exact List.mem_map_of_mem hp
    exact .inr ⟨f p, hmem, .inl ((hparked p (hq.2 _ hmem)).resolve_left hnot)⟩

/-- Whoever is counted still holds the barrier, or is about to tell. -/
theorem counted_map {f : SafePoint → SafePoint} (hguards : s'.guards = s.guards)
    (hpoints : s'.points = s.points.map f)
    (hf : ∀ p, p.spot.parked = false ∨ p.spot = .acked →
      (f p).spot.parked = false ∨ (f p).spot = .acked)
    (h : s.guards ≠ 0 ∨ ∃ p ∈ s.points, p.spot.parked = false ∨ p.spot = .acked) :
    s'.guards ≠ 0 ∨ ∃ p ∈ s'.points, p.spot.parked = false ∨ p.spot = .acked := by
  rw [hguards]
  rcases h with hg | ⟨p, hp, hspot⟩
  · exact .inl hg
  · refine .inr ⟨f p, ?_, hf p hspot⟩
    rw [hpoints]
    exact List.mem_map_of_mem hp

/-- A step of one point, told about or not seen. -/
theorem onPoint {f : SafePoint → SafePoint} {k : Nat} (h : Heard s)
    (hparked : ∀ p, (f p).spot.parked = true → p.spot.parked = true ∨ (f p).spot = .acked)
    (htelling : ∀ p, p.spot = .acked ∨ p.spot = .bracketed →
      (f p).spot = .acked ∨ (f p).spot = .bracketed)
    (hcounted : ∀ p, p.spot.parked = false ∨ p.spot = .acked →
      (f p).spot.parked = false ∨ (f p).spot = .acked) : Heard (s.onPoint k f) := by
  refine ⟨h.told_map (fun hs => hs) rfl rfl rfl ?_ ?_, fun rest unpaused hs hne =>
    counted_map (s := s) rfl rfl ?_ (h.counted rest unpaused hs hne)⟩
  · intro p hp
    by_cases hk : p.id = k
    · rw [if_pos hk] at hp ⊢
      exact hparked p hp
    · rw [if_neg hk] at hp
      exact .inl hp
  · intro _ p hp
    split
    · exact htelling p hp
    · exact hp
  · intro p hp
    split
    · exact hcounted p hp
    · exact hp

theorem not_sleeping : ¬ s.notifyAll.Sleeping := by
  rintro ⟨w, hw, hasleep⟩
  obtain ⟨v, -, rfl⟩ := List.mem_map.mp hw
  cases hasleep

/-- Whoever holds `counts` keeps others from scanning. -/
theorem not_scanning (hf : Fenced s) (hchecking : s.checking = none) {rest : List Nat}
    {unpaused : List String} (hlock : s.lock = .scanning rest unpaused) : False := by
  have hholder := hf.holder
  unfold State.HolderOk at hholder
  rw [hlock] at hholder
  exact hholder hchecking

theorem enterMutation (h : Heard s) : Heard s.enterMutation := by
  unfold State.enterMutation
  split
  · exact ⟨fun _ hq => absurd hq.1 (Nat.succ_ne_zero _),
      fun _ _ _ _ => .inl (Nat.succ_ne_zero _)⟩
  · exact h

theorem dropMutation (hf : Fenced s) (h : Heard s) : Heard s.dropMutation := by
  unfold State.dropMutation
  split
  · next hcan =>
    refine ⟨fun _ hq => ?_, fun _ _ hlock _ => (not_scanning hf hcan.1 hlock).elim⟩
    left
    have hzero : s.counts.inFlight - 1 = 0 := by
      rw [hf.guards]
      exact hq.1
    simp [hzero]
  · exact h

theorem notifyZero (h : Heard s) : Heard s.notifyZero := by
  unfold State.notifyZero
  split
  · exact ⟨fun hs => absurd hs not_sleeping, h.counted⟩
  · exact h

theorem register (h : Heard s) (k : Nat) (name : String) : Heard (s.registerSubsystem k name) := by
  unfold State.registerSubsystem
  split
  · next hcan =>
    refine ⟨fun _ hq => ?_, fun rest unpaused hlock _ => ?_⟩
    · have hrun := hq.2 _ (List.mem_append_right _ (List.mem_singleton.mpr rfl))
      cases hrun
    · exact absurd (hcan.1.symm.trans hlock) (by simp)
  · exact h

theorem dropHandle (h : Heard s) {k : Nat} (htells : ¬ s.Strands k) :
    Heard (s.dropHandle k) := by
  by_cases hrun : ∃ p ∈ s.points, p.id = k ∧ p.spot = .running
  · have hother : (s.dropHandle k).guards = 0 →
        (∀ p ∈ (s.dropHandle k).points, p.spot.parked = true) →
          s.guards = 0 ∧ ∀ p ∈ s.points, p.id ≠ k → p.spot.parked = true := by
      intro hg hall
      refine ⟨hg, fun p hp hne => hall p (List.mem_filter.mpr ⟨hp, ?_⟩)⟩
      simp [hne]
    have hstay : ∀ p ∈ s.points, p.spot = .acked ∨ p.spot = .bracketed →
        p ∈ (s.dropHandle k).points := by
      intro p hp hspot
      refine List.mem_filter.mpr ⟨hp, ?_⟩
      rcases hspot with hspot | hspot <;> simp [hspot]
    constructor
    · intro hs hq
      obtain ⟨hg, hall⟩ := hother hq.1 hq.2
      by_contra hnot
      refine htells ⟨hrun, hg, hall, .inl ⟨hs, ?_⟩⟩
      rintro (hl | ⟨p, hp, hspot⟩)
      · exact hnot (.inl hl)
      · exact hnot (.inr ⟨p, hstay p hp hspot, hspot⟩)
    · intro rest unpaused hlock hne
      by_contra hnot
      simp only [not_or, not_exists, not_and, Bool.not_eq_false, ne_eq, not_not] at hnot
      obtain ⟨hg, hall⟩ := hnot
      obtain ⟨hg', hall'⟩ := hother hg fun p hp => (hall p hp).1
      refine htells ⟨hrun, hg', hall', .inr ⟨rest, unpaused, hlock, hne, fun p hp hspot => ?_⟩⟩
      exact (hall p (hstay p hp (.inl hspot))).2 hspot
  · have hsame : (s.dropHandle k).points = s.points := by
      refine List.filter_eq_self.mpr fun p hp => ?_
      by_contra hno
      simp only [Bool.not_eq_true, Bool.not_eq_false', Bool.and_eq_true, decide_eq_true_eq] at hno
      exact hrun ⟨p, hp, hno⟩
    exact h.congr (fun hs => hs) rfl rfl hsame fun rest unpaused hs _ => ⟨rest, hs⟩

theorem parkIfRequested (h : Heard s) (k : Nat) : Heard (s.parkIfRequested k) := by
  refine h.onPoint ?_ ?_ ?_
  · intro p hp
    split at hp
    · cases hp
    · exact .inl hp
  · intro p hp
    split
    · next hrun => rcases hp with hp | hp <;> rw [hrun.1] at hp <;> cases hp
    · exact hp
  · intro p hp
    split
    · exact .inl rfl
    · exact hp

theorem parkUntilResumed (h : Heard s) (k : Nat) : Heard (s.parkUntilResumed k) := by
  refine h.onPoint ?_ ?_ ?_
  · intro p hp
    split
    · exact .inr rfl
    · next hno =>
      rw [if_neg hno] at hp
      exact .inl hp
  · intro p hp
    split
    · exact .inl rfl
    · exact hp
  · intro p hp
    split
    · exact .inr rfl
    · exact hp

theorem bracket (hf : Fenced s) (h : Heard s) (k : Nat) : Heard (s.bracket k) := by
  unfold State.bracket
  split
  · next hfree =>
    refine ⟨h.told_map (fun hs => hs) rfl rfl rfl ?_ ?_, fun _ _ hlock _ =>
      (not_scanning hf hfree hlock).elim⟩
    · intro p hp
      by_cases hspot : p.id = k ∧ p.spot = .acked
      · exact .inl (by rw [hspot.2]; rfl)
      · left
        split at hp
        · next hk =>
          simp only at hp
          rwa [if_neg fun hs => hspot ⟨hk, hs⟩] at hp
        · exact hp
    · intro _ p hp
      split
      · simp only
        split
        · exact .inr rfl
        · exact hp
      · exact hp
  · exact h

theorem notifyProgress (h : Heard s) (k : Nat) : Heard (s.notifyProgress k) := by
  unfold State.notifyProgress
  split
  · refine ⟨fun hs => absurd hs not_sleeping, fun rest unpaused hs hne =>
      counted_map (s := s) rfl rfl ?_ (h.counted rest unpaused hs hne)⟩
    intro p hp
    split
    · simp only
      split
      · next hspot => rcases hp with hp | hp <;> rw [hspot] at hp <;> cases hp
      · exact hp
    · exact hp
  · exact h

theorem recheck (h : Heard s) (k : Nat) : Heard (s.recheck k) := by
  refine h.onPoint ?_ ?_ ?_
  · intro p hp
    split at hp
    · next hspot => exact .inl (by rw [hspot]; rfl)
    · exact .inl hp
  · intro p hp
    split
    · next hspot => rcases hp with hp | hp <;> rw [hspot] at hp <;> cases hp
    · exact hp
  · intro p hp
    split
    · next hspot => rcases hp with hp | hp <;> rw [hspot] at hp <;> cases hp
    · exact hp

theorem wakePoint (h : Heard s) (k : Nat) : Heard (s.wakePoint k) := by
  refine h.onPoint ?_ ?_ ?_
  · intro p hp
    split at hp
    · next hspot => exact .inl (by rw [hspot]; rfl)
    · exact .inl hp
  · intro p hp
    split
    · next hspot => rcases hp with hp | hp <;> rw [hspot] at hp <;> cases hp
    · exact hp
  · intro p hp
    split
    · next hspot => rcases hp with hp | hp <;> rw [hspot] at hp <;> cases hp
    · exact hp

theorem wakeWaiter (h : Heard s) (w : Nat) : Heard (s.wakeWaiter w) := by
  refine h.congr ?_ rfl rfl rfl fun rest unpaused hs _ => ⟨rest, hs⟩
  rintro ⟨v, hv, hasleep⟩
  obtain ⟨u, hu, rfl⟩ := List.mem_map.mp hv
  split at hasleep
  · cases hasleep
  · exact ⟨u, hu, hasleep⟩

theorem waitQuiesced (h : Heard s) (w i : Nat) : Heard (s.waitQuiesced w i) := by
  unfold State.waitQuiesced
  split
  · refine h.congr ?_ rfl rfl rfl fun rest unpaused hs _ => ⟨rest, hs⟩
    rintro ⟨v, hv, hasleep⟩
    rcases List.mem_append.mp hv with hv | hv
    · exact ⟨v, hv, hasleep⟩
    · obtain rfl := List.mem_singleton.mp hv
      cases hasleep
  · exact h

/-- The waiter that goes to sleep has counted somebody who is still to tell it. -/
theorem decide (hf : Fenced s) (h : Heard s) (late : Bool) : Heard (s.decide late) := by
  unfold State.decide
  split
  · next w unpaused hchecking hlock =>
    split
    · refine h.congr ?_ rfl rfl rfl fun rest unpaused hs _ => by cases hs
      rintro ⟨v, hv, hasleep⟩
      exact ⟨v, (List.mem_filter.mp hv).1, hasleep⟩
    · next hsleep =>
      refine ⟨fun _ hq => ?_, fun rest unpaused hs _ => by cases hs⟩
      have hne : unpaused ≠ [] := by
        rintro rfl
        unfold State.verdict at hsleep
        rw [if_pos ⟨hf.guards.trans hq.1, rfl⟩] at hsleep
        cases hsleep
      rcases h.counted [] unpaused hlock hne with hg | ⟨p, hp, hspot | hspot⟩
      · exact absurd hq.1 hg
      · exact absurd (hq.2 p hp) (by simp [hspot])
      · exact .inr ⟨p, hp, .inl hspot⟩
  · exact h

/-- A scan counts what it finds unpaused. -/
theorem advance (hf : Fenced s) (h : Heard s) : Heard s.advance := by
  obtain ⟨f, hsteady, hpoints, hwaiters, hguards, hleaving⟩ := advance_steady (s := s)
  have hcount : ∀ p, p.spot.parked = false ∨ p.spot = .acked →
      (f p).spot.parked = false ∨ (f p).spot = .acked := by
    rintro p (hp | hp)
    · exact .inl ((hsteady.parked p).trans hp)
    · exact .inr (hsteady.acked p hp)
  constructor
  · refine h.told_map ?_ hguards hleaving hpoints ?_ ?_
    · unfold State.Sleeping
      rw [hwaiters]
      exact fun hs => hs
    · exact fun p hp => .inl ((hsteady.parked p).symm.trans hp)
    · rintro - p (hp | hp)
      · exact .inl (hsteady.acked p hp)
      · exact .inr (hsteady.bracketed p hp)
  · intro rest unpaused hs hne
    refine counted_map hguards hpoints hcount ?_
    unfold State.advance at hs
    split at hs
    · next hlock => exact absurd (hlock.symm.trans hs) (by simp)
    · cases hs
    · split at hs
      · cases hs
      · cases hs
    · cases hs
    · split at hs
      · cases hs
      · cases hs
    · cases hs
    · exact h.counted rest unpaused hs hne
    · next k rest' unpaused' hlock =>
      split at hs
      · next p hlive =>
        obtain ⟨-, hcounted⟩ := RegistryLock.scanning.inj hs
        have hmem := (Fenced.livePoint_some hlive).1
        split at hcounted
        · exact h.counted _ unpaused' hlock (hcounted ▸ hne)
        · next hpaused =>
          refine .inr ⟨p, hmem, .inl ?_⟩
          rw [← (hf.points p hmem).acked]
          simpa using hpaused
      · obtain ⟨-, hcounted⟩ := RegistryLock.scanning.inj hs
        exact h.counted _ unpaused' hlock (hcounted ▸ hne)

/-- Every step that drops no handle a waiter counts on alone. -/
theorem step (hf : Fenced s) (h : Heard s) {e : Event} (htells : s.Tells e) :
    Heard (s.step e) := by
  have hsame : ∀ {s' : State}, s'.waiters = s.waiters → s'.guards = s.guards →
      s'.leaving = s.leaving → s'.points = s.points →
      (∀ rest unpaused, s'.lock = .scanning rest unpaused → unpaused ≠ [] →
        s.lock = .scanning rest unpaused) → Heard s' := by
    intro s' hwaiters hguards hleaving hpoints hlock
    refine h.congr ?_ hguards hleaving hpoints fun rest unpaused hs hne =>
      ⟨rest, hlock rest unpaused hs hne⟩
    unfold State.Sleeping
    rw [hwaiters]
    exact fun hs => hs
  cases e with
  | enterMutation => exact h.enterMutation
  | dropMutation => exact h.dropMutation hf
  | notifyZero => exact h.notifyZero
  | register k name => exact h.register k name
  | dropHandle k => exact h.dropHandle htells
  | parkIfRequested k => exact h.parkIfRequested k
  | parkUntilResumed k => exact h.parkUntilResumed k
  | bracket k => exact h.bracket hf k
  | notifyProgress k => exact h.notifyProgress k
  | recheck k => exact h.recheck k
  | wakePoint k => exact h.wakePoint k
  | setDraining enable => exact hsame rfl rfl rfl rfl fun _ _ hs _ => hs
  | begin i =>
    simp only [State.step, State.begin]
    split
    · exact h
    · exact hsame rfl rfl rfl rfl fun _ _ hs _ => hs
  | requestPauseAll i =>
    simp only [State.step, State.requestPauseAll]
    split
    · exact hsame rfl rfl rfl rfl fun _ _ hs _ => by cases hs
    · exact h
  | abort i =>
    simp only [State.step, State.abort]
    split
    · exact hsame rfl rfl rfl rfl fun _ _ hs _ => by cases hs
    · exact h
  | restore i =>
    simp only [State.step, State.restore]
    split
    · exact hsame rfl rfl rfl rfl fun _ _ hs _ => hs
    · exact h
  | waitQuiesced w i => exact h.waitQuiesced w i
  | check w =>
    simp only [State.step, State.check]
    split
    · exact hsame rfl rfl rfl rfl fun _ _ hs _ => hs
    · exact h
  | scan =>
    simp only [State.step, State.scan]
    split
    · refine hsame rfl rfl rfl rfl fun rest unpaused hs hne => ?_
      obtain ⟨-, hcounted⟩ := RegistryLock.scanning.inj hs
      exact absurd hcounted.symm hne
    · exact h
  | decide late => exact h.decide hf late
  | wakeWaiter w => exact h.wakeWaiter w
  | advance => exact h.advance hf

end Heard

/-! ## The operator's drain -/

/-- With no attempt, `draining` is what the operator made it. -/
def State.Kept (s : State) : Prop := s.attempts = [] → s.draining = s.operator

/-- The operator has not turned `draining` to something the end of the attempt undoes. -/
def State.Keeps (s : State) : Event → Prop
  | .restore i => ∀ a ∈ s.attempts, a.id = i → a.phase = .resumed → a.priorDraining = s.operator
  | _ => True

theorem Fenced.kept_step (hf : Fenced s) (h : s.Kept) {e : Event} (hkeeps : s.Keeps e) :
    (s.step e).Kept := by
  have hsame : ∀ {s' : State}, (s'.attempts = [] → s.attempts = []) →
      s'.draining = s.draining → s'.operator = s.operator → s'.Kept := by
    intro s' hattempts hdraining hoperator hnone
    rw [hdraining, hoperator]
    exact h (hattempts hnone)
  have hphase : ∀ {i : Nat} {phase : Phase}, (s.setPhase i phase).attempts = [] →
      s.attempts = [] := fun hnone => List.map_eq_nil_iff.mp hnone
  cases e with
  | enterMutation => simp only [State.step, State.enterMutation]; split <;> exact hsame id rfl rfl
  | dropMutation => simp only [State.step, State.dropMutation]; split <;> exact hsame id rfl rfl
  | notifyZero => simp only [State.step, State.notifyZero]; split <;> exact hsame id rfl rfl
  | register k name =>
    simp only [State.step, State.registerSubsystem]
    split <;> exact hsame id rfl rfl
  | dropHandle k => exact hsame id rfl rfl
  | parkIfRequested k => exact hsame id rfl rfl
  | parkUntilResumed k => exact hsame id rfl rfl
  | bracket k => simp only [State.step, State.bracket]; split <;> exact hsame id rfl rfl
  | notifyProgress k =>
    simp only [State.step, State.notifyProgress]
    split <;> exact hsame id rfl rfl
  | recheck k => exact hsame id rfl rfl
  | wakePoint k => exact hsame id rfl rfl
  | setDraining enable => exact fun _ => rfl
  | begin i =>
    simp only [State.step, State.begin]
    split
    · exact h
    · intro hnone
      cases hnone
  | requestPauseAll i =>
    simp only [State.step, State.requestPauseAll]
    split <;> exact hsame id rfl rfl
  | abort i =>
    simp only [State.step, State.abort]
    split
    · exact hsame hphase rfl rfl
    · exact h
  | restore i =>
    rcases hf.restore_cases i with heq | ⟨a, ha, hid, hresumed, -, -, -, heq⟩
    · simp only [State.step, heq]
      exact h
    · simp only [State.step, heq]
      exact fun _ => hkeeps a ha hid hresumed
  | waitQuiesced w i =>
    simp only [State.step, State.waitQuiesced]
    split <;> exact hsame id rfl rfl
  | check w => simp only [State.step, State.check]; split <;> exact hsame id rfl rfl
  | scan => simp only [State.step, State.scan]; split <;> exact hsame id rfl rfl
  | decide late =>
    simp only [State.step, State.decide]
    split
    · split <;> exact hsame id rfl rfl
    · exact h
  | wakeWaiter w => exact hsame id rfl rfl
  | advance =>
    simp only [State.step, State.advance]
    split
    · exact h
    · exact hsame hphase rfl rfl
    · split <;> exact hsame id rfl rfl
    · exact hsame hphase rfl rfl
    · split <;> exact hsame id rfl rfl
    · exact hsame id rfl rfl
    · exact h
    · split <;> exact hsame id rfl rfl

/-! ## Every run -/

/-- A daemon with no attempt under way: every point may run. -/
theorem Fenced.free (h : Fenced s) (hnone : s.attempts = []) : s.restarting = false ∧
    ∀ p ∈ s.points, p.flags.pauseRequested = false ∧ p.spot ≠ .asleep := by
  have hlock : s.lock = .free := by
    have hok := h.holder
    unfold State.HolderOk at hok
    split at hok
    · next hlock => exact hlock
    · obtain ⟨-, a, ha, -⟩ := hok
      rw [hnone] at ha
      cases ha
    · obtain ⟨-, a, ha, -⟩ := hok
      rw [hnone] at ha
      cases ha
    · obtain ⟨-, a, ha, -⟩ := hok
      rw [hnone] at ha
      cases ha
    · next hscan =>
      obtain ⟨a, ha, -⟩ := h.scanning_owned hscan
      rw [hnone] at ha
      cases ha
  have hquiet : s.pauseRequested = false := by
    refine h.idle (fun a ha => ?_) fun i rest => by rw [hlock]; simp
    rw [hnone] at ha
    cases ha
  refine ⟨?_, fun p hp => ?_⟩
  · by_contra hon
    exact h.restarting.mp (by simpa using hon) hnone
  · have hclear := ((h.points p hp).fenced (by rw [hlock]; exact List.not_mem_nil)).trans hquiet
    refine ⟨hclear, fun hasleep => ?_⟩
    obtain ⟨i, rest, hw⟩ := (h.points p hp).woken hasleep hclear
    exact absurd (hlock.symm.trans hw) (by simp)

/-- The drop of a guard that is through with `resume_all` ends its attempt. -/
theorem Fenced.restore_ends (h : Fenced s) {i : Nat}
    (ha : ∃ a ∈ s.attempts, a.id = i ∧ a.phase = .resumed) : (s.restore i).attempts = [] := by
  obtain ⟨a, ha, hid, hphase⟩ := ha
  unfold State.restore
  split
  · refine List.filter_eq_nil_iff.mpr fun b hb => ?_
    rw [h.unique hb ha]
    simp [hid, hphase]
  · next hnone =>
    have hnot := List.find?_eq_none.mp hnone a ha
    simp [hid, hphase] at hnot

/-- What the barrier keeps, whatever the threads do. -/
structure Barrier (s : State) : Prop where
  latch : s.attempts.length ≤ 1
  reached : ∀ late, s.returns late = some (.ok ()) → s.Quiesced
  parked : ∀ i k es, s.Parked k → Meets State.step (fun s _ => s.Owned i) s es →
    (es.foldl State.step s).Parked k
  ended : ∀ i, (∃ a ∈ s.attempts, a.id = i ∧ a.phase = .resumed) → (s.restore i).attempts = []
  free : s.attempts = [] → s.restarting = false ∧
    ∀ p ∈ s.points, p.flags.pauseRequested = false ∧ p.spot ≠ .asleep

/-- An attempt asks one point to pause, and sleeps. -/
def sleepRun : List Event :=
  [.register 1 "memcap-watcher:u1", .begin 0, .requestPauseAll 0, .advance, .advance,
    .waitQuiesced 0 0, .check 0, .scan, .advance, .decide false]

/-- The point parks. -/
def parkRun : List Event := sleepRun ++ [.parkUntilResumed 1]

/-- The thread of the point ends instead. -/
def goneRun : List Event := sleepRun ++ [.dropHandle 1]

/-- An attempt is aborted. The operator has drained the daemon meanwhile. -/
def drainRun : List Event :=
  [.begin 0, .requestPauseAll 0, .advance, .setDraining true, .abort 0, .advance, .restore 0]

end Restart
