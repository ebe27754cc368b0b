import Mathlib
import ClaudeManager.Restart.Barrier

/-!
# The fence of a restart attempt

* `Fenced` — one attempt, a request on every point while it is owned, and on none without it
* `Fenced.step` — every step keeps the fence
* `Fenced.quiesced` — the barrier lets a waiter through only when it is reached
* `Fenced.parked_step` — a parked point stays parked while the attempt is owned
-/

namespace Restart

/-- No mutation is in flight, and every point is parked. -/
def State.Quiesced (s : State) : Prop := s.guards = 0 ∧ ∀ p ∈ s.points, p.spot.parked = true

/-- The thread that holds the registry may hold it. -/
def State.HolderOk (s : State) : Prop :=
  match s.lock with
  | .free => True
  | .requesting i _ => s.pauseRequested = true ∧ ∃ a ∈ s.attempts, a.id = i ∧ a.phase = .begun
  | .resuming i _ | .waking i _ _ =>
    s.pauseRequested = false ∧ ∃ a ∈ s.attempts, a.id = i ∧ a.phase = .aborting
  | .scanning _ _ => s.checking ≠ none

/-- What every point keeps. -/
structure SafePoint.Kept (s : State) (p : SafePoint) : Prop where
  registered : p.id ∈ s.entries
  fenced : p.id ∉ s.lock.todo → p.flags.pauseRequested = s.pauseRequested
  acked : p.flags.paused = p.spot.parked
  woken : p.spot = .asleep → p.flags.pauseRequested = false →
    ∃ i rest, s.lock = .waking i p.id rest
  seen : ∀ rest, s.lock = .scanning rest [] → p.id ∉ rest → p.spot.parked = true

/-- The fence: one attempt, and requests where it wants them. -/
structure Fenced (s : State) : Prop where
  latch : s.attempts.length ≤ 1
  restarting : s.restarting = true ↔ s.attempts ≠ []
  guards : s.counts.inFlight = s.guards
  distinct : ∀ p ∈ s.points, ∀ q ∈ s.points, p.id = q.id → p = q
  points : ∀ p ∈ s.points, p.Kept s
  holder : s.HolderOk
  owned : ∀ a ∈ s.attempts, a.phase = .owned → s.pauseRequested = true
  idle : (∀ a ∈ s.attempts, a.phase = .begun ∨ a.phase = .resumed) →
    (∀ i rest, s.lock ≠ .requesting i rest) → s.pauseRequested = false
  waiters : ∀ w ∈ s.waiters, ∃ a ∈ s.attempts, a.id = w.attempt ∧ a.phase = .owned
  checker : ∀ w, s.checking = some w → ∃ v ∈ s.waiters, v.id = w

variable {s : State}

theorem fenced_start (draining : Bool) : Fenced (start draining) where
  latch := Nat.zero_le 1
  restarting := by simp [start]
  guards := rfl
  distinct := by simp [start]
  points := by simp [start]
  holder := trivial
  owned := by simp [start]
  idle := fun _ _ => rfl
  waiters := by simp [start]
  checker := by simp [start]

namespace Fenced

/-- The attempts are all one. -/
theorem unique (h : Fenced s) {a b : QuiesceGuard} (ha : a ∈ s.attempts) (hb : b ∈ s.attempts) :
    a = b := by
  match hl : s.attempts, h.latch with
  | [], _ =>
    rw [hl] at ha
    cases ha
  | [c], _ =>
    rw [hl] at ha hb
    rw [List.mem_singleton.mp ha, List.mem_singleton.mp hb]

/-- While an attempt is owned, the registry is at rest or being scanned. -/
theorem owned_todo (h : Fenced s) {a : QuiesceGuard} (ha : a ∈ s.attempts)
    (hphase : a.phase = .owned) : s.lock.todo = [] := by
  have hholder := h.holder
  unfold State.HolderOk at hholder
  cases hlock : s.lock with
  | free => rfl
  | scanning rest unpaused => rfl
  | requesting i rest =>
    rw [hlock] at hholder
    obtain ⟨-, b, hb, -, hbegun⟩ := hholder
    rw [h.unique hb ha, hphase] at hbegun
    cases hbegun
  | resuming i rest =>
    rw [hlock] at hholder
    obtain ⟨-, b, hb, -, haborting⟩ := hholder
    rw [h.unique hb ha, hphase] at haborting
    cases haborting
  | waking i k rest =>
    rw [hlock] at hholder
    obtain ⟨-, b, hb, -, haborting⟩ := hholder
    rw [h.unique hb ha, hphase] at haborting
    cases haborting

/-- While an attempt is owned, every point has its request. -/
theorem owned_requested (h : Fenced s) {a : QuiesceGuard} (ha : a ∈ s.attempts)
    (hphase : a.phase = .owned) {p : SafePoint} (hp : p ∈ s.points) :
    p.flags.pauseRequested = true := by
  rw [(h.points p hp).fenced (by rw [h.owned_todo ha hphase]; exact List.not_mem_nil)]
  exact h.owned a ha hphase

/-- A scan runs for an owned attempt. -/
theorem scanning_owned (h : Fenced s) {rest : List Nat} {unpaused : List String}
    (hlock : s.lock = .scanning rest unpaused) : ∃ a ∈ s.attempts, a.phase = .owned := by
  have hholder := h.holder
  unfold State.HolderOk at hholder
  rw [hlock] at hholder
  obtain ⟨w, hw⟩ := Option.ne_none_iff_exists'.mp hholder
  obtain ⟨v, hv, -⟩ := h.checker w hw
  obtain ⟨a, ha, -, hphase⟩ := h.waiters v hv
  exact ⟨a, ha, hphase⟩

/-! ## Points -/

/-- Steps of the points' own threads. -/
structure Moves (f : SafePoint → SafePoint) : Prop where
  id : ∀ p, (f p).id = p.id
  request : ∀ p, (f p).flags.pauseRequested = p.flags.pauseRequested
  acked : ∀ p, p.flags.paused = p.spot.parked → (f p).flags.paused = (f p).spot.parked
  asleep : ∀ p, (f p).spot = .asleep → p.spot = .asleep ∨ p.flags.pauseRequested = true
  parked : ∀ p, p.flags.pauseRequested = true → p.spot.parked = true → (f p).spot.parked = true

theorem Moves.at {f : SafePoint → SafePoint} (hf : Moves f) (k : Nat) :
    Moves fun p => if p.id = k then f p else p where
  id := by
    intro p
    split
    · exact hf.id p
    · rfl
  request := by
    intro p
    split
    · exact hf.request p
    · rfl
  acked := by
    intro p hp
    split
    · exact hf.acked p hp
    · exact hp
  asleep := by
    intro p hp
    split at hp
    · exact hf.asleep p hp
    · exact .inl hp
  parked := by
    intro p hreq hp
    split
    · exact hf.parked p hreq hp
    · exact hp

theorem mapPoints (h : Fenced s) {f : SafePoint → SafePoint} (hf : Moves f) :
    Fenced { s with points := s.points.map f } where
  latch := h.latch
  restarting := h.restarting
  guards := h.guards
  distinct := by
    intro p hp q hq heq
    obtain ⟨p', hp', rfl⟩ := List.mem_map.mp hp
    obtain ⟨q', hq', rfl⟩ := List.mem_map.mp hq
    rw [hf.id, hf.id] at heq
    rw [h.distinct p' hp' q' hq' heq]
  points := by
    intro p hp
    obtain ⟨p', hp', rfl⟩ := List.mem_map.mp hp
    have hkept := h.points p' hp'
    refine ⟨?_, ?_, hf.acked p' hkept.acked, ?_, ?_⟩
    · rw [hf.id]
      exact hkept.registered
    · rw [hf.id, hf.request]
      exact hkept.fenced
    · intro hasleep hclear
      rw [hf.request] at hclear
      rw [hf.id]
      rcases hf.asleep p' hasleep with hold | hreq
      · exact hkept.woken hold hclear
      · rw [hclear] at hreq
        cases hreq
    · intro rest hlock hseen
      rw [hf.id] at hseen
      obtain ⟨a, ha, hphase⟩ := h.scanning_owned hlock
      exact hf.parked p' (h.owned_requested ha hphase hp') (hkept.seen rest hlock hseen)
  holder := h.holder
  owned := h.owned
  idle := h.idle
  waiters := h.waiters
  checker := h.checker

theorem onPoint (h : Fenced s) {f : SafePoint → SafePoint} (hf : Moves f) (k : Nat) :
    Fenced (s.onPoint k f) := h.mapPoints (hf.at k)

theorem notifyAll (h : Fenced s) : Fenced s.notifyAll where
  latch := h.latch
  restarting := h.restarting
  guards := h.guards
  distinct := h.distinct
  points := fun p hp => ⟨(h.points p hp).registered, (h.points p hp).fenced, (h.points p hp).acked,
    (h.points p hp).woken, (h.points p hp).seen⟩
  holder := h.holder
  owned := h.owned
  idle := h.idle
  waiters := by
    intro w hw
    obtain ⟨v, hv, rfl⟩ := List.mem_map.mp hw
    exact h.waiters v hv
  checker := by
    intro w hw
    obtain ⟨v, hv, rfl⟩ := h.checker w hw
    exact ⟨_, List.mem_map_of_mem hv, rfl⟩

theorem parkIfRequested (h : Fenced s) (k : Nat) : Fenced (s.parkIfRequested k) := by
  refine h.onPoint ⟨?_, ?_, ?_, ?_, ?_⟩ k
  · intro p
    split <;> rfl
  · intro p
    split <;> rfl
  · intro p hp
    split
    · next hrun => rw [hp, hrun.1]; rfl
    · exact hp
  · intro p hp
    split at hp
    · cases hp
    · exact .inl hp
  · intro p _ hp
    split
    · next hrun => rw [hrun.1] at hp; cases hp
    · exact hp

theorem parkUntilResumed (h : Fenced s) (k : Nat) : Fenced (s.parkUntilResumed k) := by
  refine h.onPoint ⟨?_, ?_, ?_, ?_, ?_⟩ k
  · intro p
    split <;> rfl
  · intro p
    split <;> rfl
  · intro p hp
    split
    · rfl
    · exact hp
  · intro p hp
    split at hp
    · cases hp
    · exact .inl hp
  · intro p _ hp
    split
    · rfl
    · exact hp

/-- A parked thread goes on inside its park call. -/
theorem Moves.shift {a b : Spot} (ha : a.parked = true) (hb : b.parked = true) (hne : b ≠ .asleep) :
    Moves fun p => if p.spot = a then { p with spot := b } else p where
  id := by
    intro p
    split <;> rfl
  request := by
    intro p
    split <;> rfl
  acked := by
    intro p hp
    split
    · next hspot =>
      show p.flags.paused = b.parked
      rw [hp, hspot, ha, hb]
    · exact hp
  asleep := by
    intro p hp
    split at hp
    · exact absurd hp hne
    · exact .inl hp
  parked := by
    intro p _ hp
    split
    · exact hb
    · exact hp

theorem bracket (h : Fenced s) (k : Nat) : Fenced (s.bracket k) := by
  unfold State.bracket
  split
  · exact h.onPoint (Moves.shift rfl rfl (by decide)) k
  · exact h

theorem notifyProgress (h : Fenced s) (k : Nat) : Fenced (s.notifyProgress k) := by
  unfold State.notifyProgress
  split
  · exact (h.onPoint (Moves.shift rfl rfl (by decide)) k).notifyAll
  · exact h

theorem wakePoint (h : Fenced s) (k : Nat) : Fenced (s.wakePoint k) :=
  h.onPoint (Moves.shift rfl rfl (by decide)) k

theorem recheck (h : Fenced s) (k : Nat) : Fenced (s.recheck k) := by
  refine h.onPoint ⟨?_, ?_, ?_, ?_, ?_⟩ k
  · intro p
    split
    · split <;> rfl
    · rfl
  · intro p
    split
    · split
      · rfl
      · next hno => simpa using hno
    · rfl
  · intro p hp
    split
    · next hspot =>
      split
      · rw [hp, hspot]; rfl
      · rfl
    · exact hp
  · intro p hp
    split at hp
    · split at hp
      · next hreq => exact .inr hreq
      · cases hp
    · exact .inl hp
  · intro p hreq hp
    split
    · next hspot => simp [Spot.parked]
    · exact hp

theorem register (h : Fenced s) (k : Nat) (name : String) : Fenced (s.registerSubsystem k name) := by
  unfold State.registerSubsystem
  split
  · next hfree =>
    obtain ⟨hlock, hfresh⟩ := hfree
    have hnew : ∀ p ∈ s.points, p.id ≠ k := fun p hp he => hfresh (he ▸ (h.points p hp).registered)
    exact { h with
      distinct := by
        intro p hp q hq heq
        rcases List.mem_append.mp hp with hp | hp <;> rcases List.mem_append.mp hq with hq | hq
        · exact h.distinct p hp q hq heq
        · obtain rfl := List.mem_singleton.mp hq
          exact absurd heq (hnew p hp)
        · obtain rfl := List.mem_singleton.mp hp
          exact absurd heq.symm (hnew q hq)
        · rw [List.mem_singleton.mp hp, List.mem_singleton.mp hq]
      points := by
        intro p hp
        rcases List.mem_append.mp hp with hp | hp
        · exact ⟨List.mem_append_left _ (h.points p hp).registered, (h.points p hp).fenced,
            (h.points p hp).acked, (h.points p hp).woken, (h.points p hp).seen⟩
        · obtain rfl := List.mem_singleton.mp hp
          refine ⟨List.mem_append_right _ (List.mem_singleton.mpr rfl), fun _ => rfl, rfl, ?_, ?_⟩
          · intro hasleep
            cases hasleep
          · intro rest hscan
            exact absurd (hlock.symm.trans hscan) (by simp) }
  · exact h

theorem dropHandle (h : Fenced s) (k : Nat) : Fenced (s.dropHandle k) :=
  { h with
    distinct := fun p hp q hq => h.distinct p (List.mem_filter.mp hp).1 q (List.mem_filter.mp hq).1
    points := fun p hp =>
      have hkept := h.points p (List.mem_filter.mp hp).1
      ⟨hkept.registered, hkept.fenced, hkept.acked, hkept.woken, hkept.seen⟩ }

/-! ## Mutations, the operator and the waiters -/

/-- What the points keep does not depend on these. -/
theorem keepPoints {s' : State} (h : Fenced s) (hpoints : s'.points = s.points)
    (hentries : s'.entries = s.entries) (hlock : s'.lock = s.lock)
    (hpause : s'.pauseRequested = s.pauseRequested) : ∀ p ∈ s'.points, p.Kept s' := by
  intro p hp
  have hkept := h.points p (hpoints ▸ hp)
  refine ⟨hentries ▸ hkept.registered, ?_, hkept.acked, ?_, ?_⟩
  · rw [hlock, hpause]
    exact hkept.fenced
  · rw [hlock]
    exact hkept.woken
  · rw [hlock]
    exact hkept.seen

theorem enterMutation (h : Fenced s) : Fenced s.enterMutation := by
  unfold State.enterMutation
  split
  · exact { h with
      guards := congrArg (· + 1) h.guards
      points := h.keepPoints rfl rfl rfl rfl }
  · exact h

theorem dropMutation (h : Fenced s) : Fenced s.dropMutation := by
  unfold State.dropMutation
  split
  · exact { h with
      guards := congrArg (· - 1) h.guards
      points := h.keepPoints rfl rfl rfl rfl }
  · exact h

theorem notifyZero (h : Fenced s) : Fenced s.notifyZero := by
  unfold State.notifyZero
  split
  · exact notifyAll { h with points := h.keepPoints rfl rfl rfl rfl }
  · exact h

theorem setDraining (h : Fenced s) (enable : Bool) : Fenced (s.setDraining enable) :=
  { h with points := h.keepPoints rfl rfl rfl rfl }

theorem waitQuiesced (h : Fenced s) (w i : Nat) : Fenced (s.waitQuiesced w i) := by
  unfold State.waitQuiesced
  split
  · next hcan =>
    exact { h with
      points := h.keepPoints rfl rfl rfl rfl
      waiters := by
        intro v hv
        rcases List.mem_append.mp hv with hv | hv
        · exact h.waiters v hv
        · obtain rfl := List.mem_singleton.mp hv
          exact hcan.1
      checker := by
        intro v hv
        obtain ⟨u, hu, heq⟩ := h.checker v hv
        exact ⟨u, List.mem_append_left _ hu, heq⟩ }
  · exact h

theorem check (h : Fenced s) (w : Nat) : Fenced (s.check w) := by
  unfold State.check
  split
  · next hcan =>
    obtain ⟨hfree, v, hv, hid, -⟩ := hcan
    refine { h with
      points := h.keepPoints rfl rfl rfl rfl
      holder := ?_
      checker := ?_ }
    · have hholder := h.holder
      unfold State.HolderOk at hholder ⊢
      simp only
      split at hholder
      · trivial
      · exact hholder
      · exact hholder
      · exact hholder
      · next rest unpaused hlock => exact absurd hfree hholder
    · intro u hu
      obtain rfl := Option.some.inj hu
      exact ⟨v, hv, hid⟩
  · exact h

theorem wakeWaiter (h : Fenced s) (w : Nat) : Fenced (s.wakeWaiter w) :=
  { h with
    points := h.keepPoints rfl rfl rfl rfl
    waiters := by
      intro v hv
      obtain ⟨u, hu, rfl⟩ := List.mem_map.mp hv
      split
      · exact h.waiters u hu
      · exact h.waiters u hu
    checker := by
      intro v hv
      obtain ⟨u, hu, rfl⟩ := h.checker v hv
      refine ⟨_, List.mem_map_of_mem hu, ?_⟩
      split <;> rfl }

theorem scan (h : Fenced s) : Fenced s.scan := by
  unfold State.scan
  split
  · next hcan =>
    obtain ⟨hchecking, hlock⟩ := hcan
    refine { h with points := ?_, holder := hchecking, idle := ?_ }
    · intro p hp
      have hkept := h.points p hp
      refine ⟨hkept.registered, fun _ => hkept.fenced (by rw [hlock]; exact List.not_mem_nil),
        hkept.acked, ?_, ?_⟩
      · intro hasleep hclear
        obtain ⟨i, rest, hwaking⟩ := hkept.woken hasleep hclear
        exact absurd (hlock.symm.trans hwaking) (by simp)
      · intro rest hscan hseen
        obtain ⟨rfl, -⟩ := RegistryLock.scanning.inj hscan
        exact absurd hkept.registered hseen
    · intro hphases _
      exact h.idle hphases fun i rest => by rw [hlock]; simp
  · exact h

theorem decide (h : Fenced s) (late : Bool) : Fenced (s.decide late) := by
  unfold State.decide
  split
  · next w unpaused hchecking hlock =>
    have hpoints : ∀ {s' : State}, s'.points = s.points → s'.entries = s.entries →
        s'.lock = .free → s'.pauseRequested = s.pauseRequested → ∀ p ∈ s'.points, p.Kept s' := by
      intro s' hsame hentries hfree hpause p hp
      have hkept := h.points p (hsame ▸ hp)
      refine ⟨hentries ▸ hkept.registered, ?_, hkept.acked, ?_, ?_⟩
      · intro _
        rw [hpause]
        exact hkept.fenced (by rw [hlock]; exact List.not_mem_nil)
      · intro hasleep hclear
        obtain ⟨i, rest, hwaking⟩ := hkept.woken hasleep hclear
        exact absurd (hlock.symm.trans hwaking) (by simp)
      · intro rest hscan
        exact absurd (hfree.symm.trans hscan) (by simp)
    have hidle : (∀ a ∈ s.attempts, a.phase = .begun ∨ a.phase = .resumed) →
        s.pauseRequested = false := fun hphases =>
      h.idle hphases fun i rest => by rw [hlock]; simp
    split
    · exact { h with
        points := hpoints rfl rfl rfl rfl
        holder := trivial
        idle := fun hphases _ => hidle hphases
        waiters := fun v hv => h.waiters v (List.mem_filter.mp hv).1
        checker := fun v hv => by cases hv }
    · exact { h with
        points := hpoints rfl rfl rfl rfl
        holder := trivial
        idle := fun hphases _ => hidle hphases
        waiters := by
          intro v hv
          obtain ⟨u, hu, rfl⟩ := List.mem_map.mp hv
          split
          · exact h.waiters u hu
          · exact h.waiters u hu
        checker := fun v hv => by cases hv }
  · exact h

/-! ## Attempts -/

theorem begin (h : Fenced s) (i : Nat) : Fenced (s.begin i) := by
  unfold State.begin
  split
  · exact h
  · next hfree =>
    have hnone : s.attempts = [] := by
      by_contra hne
      exact hfree (h.restarting.mpr hne)
    have hnobody : ∀ w ∈ s.waiters, False := by
      intro w hw
      obtain ⟨a, ha, -⟩ := h.waiters w hw
      rw [hnone] at ha
      cases ha
    have hholder : s.lock = .free := by
      have hok := h.holder
      unfold State.HolderOk at hok
      split at hok
      · next hlock => exact hlock
      · obtain ⟨-, a, ha, -⟩ := hok
        rw [hnone] at ha
        cases ha
      · obtain ⟨-, a, ha, -⟩ := hok
        rw [hnone] at ha
        cases ha
      · obtain ⟨-, a, ha, -⟩ := hok
        rw [hnone] at ha
        cases ha
      · next hlock =>
        obtain ⟨a, ha, -⟩ := h.scanning_owned hlock
        rw [hnone] at ha
        cases ha
    have hquiet : s.pauseRequested = false := by
      refine h.idle (fun a ha => ?_) (fun j rest => by rw [hholder]; simp)
      rw [hnone] at ha
      cases ha
    exact { h with
      latch := by simp [hnone]
      restarting := by simp
      points := h.keepPoints rfl rfl rfl rfl
      holder := by
        unfold State.HolderOk
        simp only [hholder]
      owned := by
        intro a ha hphase
        rw [hnone] at ha
        obtain rfl := List.mem_singleton.mp ha
        cases hphase
      idle := fun _ _ => hquiet
      waiters := fun w hw => (hnobody w hw).elim }

/-- The one attempt goes from phase to phase. -/
theorem setPhase_mem (h : Fenced s) {a : QuiesceGuard} (ha : a ∈ s.attempts) {i : Nat}
    (hid : a.id = i) (phase : Phase) :
    (s.setPhase i phase).attempts = [{ a with phase := phase }] := by
  have hone : s.attempts = [a] := by
    match hl : s.attempts, h.latch with
    | [], _ =>
      rw [hl] at ha
      cases ha
    | [c], _ =>
      rw [hl] at ha
      rw [List.mem_singleton.mp ha]
  unfold State.setPhase
  simp [hone, hid]

theorem requestPauseAll (h : Fenced s) (i : Nat) : Fenced (s.requestPauseAll i) := by
  unfold State.requestPauseAll
  split
  · next hcan =>
    obtain ⟨hlock, a, ha, hid, hphase⟩ := hcan
    refine { h with points := ?_, holder := ⟨rfl, a, ha, hid, hphase⟩, owned := ?_, idle := ?_ }
    · intro p hp
      have hkept := h.points p hp
      refine ⟨hkept.registered, fun hnot => absurd hkept.registered hnot, hkept.acked, ?_, ?_⟩
      · intro hasleep hclear
        obtain ⟨j, rest, hwaking⟩ := hkept.woken hasleep hclear
        exact absurd (hlock.symm.trans hwaking) (by simp)
      · intro rest hscan
        cases hscan
    · exact fun _ _ _ => rfl
    · exact fun _ hno => absurd rfl (hno i s.entries)
  · exact h

theorem abort (h : Fenced s) (i : Nat) : Fenced (s.abort i) := by
  unfold State.abort
  split
  · next hcan =>
    obtain ⟨hlock, ⟨a, ha, hid, -⟩, hnobody⟩ := hcan
    have hone := h.setPhase_mem ha hid .aborting
    have hwaiters : ∀ w ∈ s.waiters, False := by
      intro w hw
      obtain ⟨b, hb, hattempt, -⟩ := h.waiters w hw
      rw [h.unique hb ha] at hattempt
      exact hnobody w hw (hattempt.symm.trans hid)
    have hattempts : ∀ {s' : State}, s'.attempts = (s.setPhase i .aborting).attempts →
        s'.attempts = [{ a with phase := .aborting }] := fun heq => heq.trans hone
    refine { h with
      latch := by rw [hattempts rfl]; exact Nat.le_refl 1
      restarting := ?_
      points := ?_
      holder := ⟨rfl, { a with phase := .aborting }, ?_, hid, rfl⟩
      owned := ?_
      idle := fun _ _ => rfl
      waiters := fun w hw => (hwaiters w hw).elim }
    · rw [hattempts rfl]
      refine ⟨fun _ => by simp, fun _ => h.restarting.mpr fun hnone => ?_⟩
      rw [hnone] at ha
      cases ha
    · intro p hp
      have hkept := h.points p hp
      refine ⟨hkept.registered, fun hnot => absurd hkept.registered hnot, hkept.acked, ?_, ?_⟩
      · intro hasleep hclear
        obtain ⟨j, rest, hwaking⟩ := hkept.woken hasleep hclear
        exact absurd (hlock.symm.trans hwaking) (by simp)
      · intro rest hscan
        cases hscan
    · rw [hattempts rfl]
      exact List.mem_singleton.mpr rfl
    · intro b hb hphase
      rw [hattempts rfl] at hb
      obtain rfl := List.mem_singleton.mp hb
      cases hphase
  · exact h

/-- An attempt whose drop is about to end is the only one, and nothing is requested. -/
theorem restore_cases (h : Fenced s) (i : Nat) :
    s.restore i = s ∨ ∃ a ∈ s.attempts, a.id = i ∧ a.phase = .resumed ∧ s.lock = .free ∧
      s.pauseRequested = false ∧ s.waiters = [] ∧
      s.restore i = { s with restarting := false, draining := a.priorDraining, attempts := [] } := by
  unfold State.restore
  split
  · next a hfind =>
    right
    have ha := List.mem_of_find?_eq_some hfind
    have hcond := List.find?_some hfind
    simp only [Bool.and_eq_true, decide_eq_true_eq] at hcond
    obtain ⟨hid, hphase⟩ := hcond
    have hone : s.attempts = [a] := by
      match hl : s.attempts, h.latch with
      | [], _ =>
        rw [hl] at ha
        cases ha
      | [c], _ =>
        rw [hl] at ha
        rw [List.mem_singleton.mp ha]
    have hother : ∀ b ∈ s.attempts, b.phase = .resumed := fun b hb => h.unique ha hb ▸ hphase
    have hlock : s.lock = .free := by
      have hok := h.holder
      unfold State.HolderOk at hok
      split at hok
      · next hlock => exact hlock
      · obtain ⟨-, b, hb, -, hb'⟩ := hok
        rw [hother b hb] at hb'
        cases hb'
      · obtain ⟨-, b, hb, -, hb'⟩ := hok
        rw [hother b hb] at hb'
        cases hb'
      · obtain ⟨-, b, hb, -, hb'⟩ := hok
        rw [hother b hb] at hb'
        cases hb'
      · next hscan =>
        obtain ⟨b, hb, hb'⟩ := h.scanning_owned hscan
        rw [hother b hb] at hb'
        cases hb'
    have hquiet : s.pauseRequested = false :=
      h.idle (fun b hb => .inr (hother b hb)) fun j rest => by rw [hlock]; simp
    have hwaiters : s.waiters = [] := by
      refine List.eq_nil_iff_forall_not_mem.mpr fun w hw => ?_
      obtain ⟨b, hb, -, hb'⟩ := h.waiters w hw
      rw [hother b hb] at hb'
      cases hb'
    refine ⟨a, ha, hid, hphase, hlock, hquiet, hwaiters, ?_⟩
    simp [hone, hid, hphase]
  · exact .inl rfl

theorem restore (h : Fenced s) (i : Nat) : Fenced (s.restore i) := by
  rcases h.restore_cases i with hsame | ⟨a, ha, -, -, hlock, hquiet, hwaiters, heq⟩
  · rw [hsame]
    exact h
  · rw [heq]
    refine { h with
      latch := Nat.zero_le 1
      restarting := by simp
      points := h.keepPoints rfl rfl rfl rfl
      holder := ?_
      owned := fun b hb => by cases hb
      idle := fun _ _ => hquiet
      waiters := ?_ }
    · unfold State.HolderOk
      simp only [hlock]
    · intro w hw
      change w ∈ s.waiters at hw
      rw [hwaiters] at hw
      cases hw

/-! ## The loops -/

theorem livePoint_some {k : Nat} {p : SafePoint} (hp : s.livePoint k = some p) :
    p ∈ s.points ∧ p.id = k := by
  unfold State.livePoint at hp
  exact ⟨List.mem_of_find?_eq_some hp, by simpa using List.find?_some hp⟩

theorem livePoint_none {k : Nat} (hp : s.livePoint k = none) : ∀ p ∈ s.points, p.id ≠ k := by
  unfold State.livePoint at hp
  simpa using hp

theorem mem_prune {k : Nat} (hdead : s.livePoint k = none) (h : Fenced s) {p : SafePoint}
    (hp : p ∈ s.points) : p.id ∈ (s.prune k).entries := by
  refine List.mem_filter.mpr ⟨(h.points p hp).registered, ?_⟩
  simpa using livePoint_none hdead p hp

/-- The owner of the registry reaches the end of its loop: the attempt goes on. -/
theorem finish (h : Fenced s) {i : Nat} {phase : Phase} {a : QuiesceGuard} (ha : a ∈ s.attempts)
    (hid : a.id = i) (hbusy : a.phase = .begun ∨ a.phase = .aborting) (htodo : s.lock.todo = [])
    (hnot : ∀ j k rest, s.lock ≠ .waking j k rest)
    (howned : phase = .owned → s.pauseRequested = true)
    (hidle : phase ≠ .owned → s.pauseRequested = false) :
    Fenced { s.setPhase i phase with lock := .free } := by
  have hone := h.setPhase_mem ha hid phase
  have hattempts : ∀ {s' : State}, s'.attempts = (s.setPhase i phase).attempts →
      s'.attempts = [{ a with phase := phase }] := fun heq => heq.trans hone
  refine { h with
    latch := by rw [hattempts rfl]; exact Nat.le_refl 1
    restarting := ?_
    points := ?_
    holder := trivial
    owned := ?_
    idle := ?_
    waiters := ?_ }
  · rw [hattempts rfl]
    refine ⟨fun _ => by simp, fun _ => h.restarting.mpr fun hnone => ?_⟩
    rw [hnone] at ha
    cases ha
  · intro p hp
    have hkept := h.points p hp
    refine ⟨hkept.registered, fun _ => hkept.fenced (by rw [htodo]; exact List.not_mem_nil),
      hkept.acked, ?_, ?_⟩
    · intro hasleep hclear
      obtain ⟨j, rest, hwaking⟩ := hkept.woken hasleep hclear
      exact absurd hwaking (hnot j p.id rest)
    · intro rest hscan
      cases hscan
  · intro b hb hphase
    rw [hattempts rfl] at hb
    obtain rfl := List.mem_singleton.mp hb
    exact howned hphase
  · intro hphases _
    rw [hattempts rfl] at hphases
    refine hidle fun heq => ?_
    have hlast := hphases _ (List.mem_singleton.mpr rfl)
    simp [heq] at hlast
  · intro w hw
    obtain ⟨b, hb, -, hphase⟩ := h.waiters w hw
    rw [h.unique hb ha] at hphase
    rcases hbusy with hbegun | haborting
    · rw [hbegun] at hphase
      cases hphase
    · rw [haborting] at hphase
      cases hphase

/-- A loop takes its next entry, which may set or clear the request of a point. -/
theorem next (h : Fenced s) (lock : RegistryLock) {entries : List Nat}
    {f : SafePoint → SafePoint} (hid : ∀ p, (f p).id = p.id)
    (hacked : ∀ p, p.flags.paused = p.spot.parked → (f p).flags.paused = (f p).spot.parked)
    (hentries : ∀ p ∈ s.points, p.id ∈ entries)
    (hfenced : ∀ p ∈ s.points, p.id ∉ lock.todo → (f p).flags.pauseRequested = s.pauseRequested)
    (hwoken : ∀ p ∈ s.points, (f p).spot = .asleep → (f p).flags.pauseRequested = false →
      ∃ i rest, lock = .waking i p.id rest)
    (hseen : ∀ p ∈ s.points, ∀ rest, lock = .scanning rest [] → p.id ∉ rest →
      (f p).spot.parked = true)
    (hholder : State.HolderOk { s with lock := lock })
    (hidle : (∀ i rest, lock ≠ .requesting i rest) → ∀ i rest, s.lock ≠ .requesting i rest) :
    Fenced { s with points := s.points.map f, entries := entries, lock := lock } :=
  { h with
    distinct := by
      intro p hp q hq heq
      obtain ⟨p', hp', rfl⟩ := List.mem_map.mp hp
      obtain ⟨q', hq', rfl⟩ := List.mem_map.mp hq
      rw [hid, hid] at heq
      rw [h.distinct p' hp' q' hq' heq]
    points := by
      intro p hp
      obtain ⟨p', hp', rfl⟩ := List.mem_map.mp hp
      refine ⟨?_, ?_, hacked p' (h.points p' hp').acked, ?_, ?_⟩
      · rw [hid]
        exact hentries p' hp'
      · rw [hid]
        exact hfenced p' hp'
      · rw [hid]
        exact hwoken p' hp'
      · intro rest hscan
        rw [hid]
        exact hseen p' hp' rest hscan
    holder := hholder
    idle := fun hphases hno => h.idle hphases (hidle hno) }

/-- A dead entry is pruned: no point has it. -/
theorem skip (h : Fenced s) {k : Nat} {lock : RegistryLock} (hdead : s.livePoint k = none)
    (htodo : ∀ j, j ≠ k → j ∉ lock.todo → j ∉ s.lock.todo)
    (hwaking : ∀ i j rest, s.lock ≠ .waking i j rest)
    (hseen : ∀ p ∈ s.points, ∀ rest, lock = .scanning rest [] → p.id ∉ rest →
      p.spot.parked = true)
    (hholder : State.HolderOk { s with lock := lock })
    (hidle : (∀ i rest, lock ≠ .requesting i rest) → ∀ i rest, s.lock ≠ .requesting i rest) :
    Fenced { s.prune k with lock := lock } := by
  have hall := h.next (f := fun p => p) lock (fun _ => rfl) (fun _ hp => hp)
    (fun p hp => mem_prune hdead h hp)
    (fun p hp hnot => (h.points p hp).fenced (htodo p.id (livePoint_none hdead p hp) hnot))
    (fun p hp hasleep hclear => by
      obtain ⟨i, rest, hw⟩ := (h.points p hp).woken hasleep hclear
      exact absurd hw (hwaking i p.id rest))
    hseen hholder hidle
  rw [List.map_id'] at hall
  exact hall

theorem advance (h : Fenced s) : Fenced s.advance := by
  have hholder := h.holder
  unfold State.HolderOk at hholder
  unfold State.advance
  cases hlock : s.lock with
  | free => exact h
  | requesting i rest =>
    rw [hlock] at hholder
    obtain ⟨hrequested, a, ha, hid, hphase⟩ := hholder
    have hmine : ∀ rest', State.HolderOk { s with lock := .requesting i rest' } := fun _ =>
      ⟨hrequested, a, ha, hid, hphase⟩
    have hnot : ∀ j m l, s.lock ≠ .waking j m l := fun j m l => by rw [hlock]; simp
    cases rest with
    | nil =>
      exact h.finish ha hid (.inl hphase) (by rw [hlock]; rfl) hnot (fun _ => hrequested)
        fun hne => absurd rfl hne
    | cons k rest =>
      simp only
      split
      · next q hq =>
        refine h.next _ ?_ ?_ (fun p hp => (h.points p hp).registered) ?_ ?_ ?_ (hmine rest) ?_
        · intro p
          split <;> rfl
        · intro p hp
          split
          · exact hp
          · exact hp
        · intro p hp hnot'
          split
          · exact hrequested.symm
          · next hne =>
            refine (h.points p hp).fenced ?_
            rw [hlock]
            exact fun hmem => (List.mem_cons.mp hmem).elim hne hnot'
        · intro p hp hasleep hclear
          split at hasleep
          · next heq =>
            rw [if_pos heq] at hclear
            cases hclear
          · next hne =>
            rw [if_neg hne] at hclear
            obtain ⟨j, l, hw⟩ := (h.points p hp).woken hasleep hclear
            exact absurd hw (hnot j p.id l)
        · intro p hp l hscan
          cases hscan
        · exact fun hno => absurd rfl (hno i rest)
      · next hdead =>
        refine h.skip hdead ?_ hnot (fun p hp l hscan => by cases hscan) (hmine rest)
          fun hno => absurd rfl (hno i rest)
        intro j hne hnot'
        rw [hlock]
        exact fun hmem => (List.mem_cons.mp hmem).elim hne hnot'
  | resuming i rest =>
    rw [hlock] at hholder
    obtain ⟨hcleared, a, ha, hid, hphase⟩ := hholder
    have hnot : ∀ j m l, s.lock ≠ .waking j m l := fun j m l => by rw [hlock]; simp
    have hidle : ∀ j l, s.lock ≠ .requesting j l := fun j l => by rw [hlock]; simp
    cases rest with
    | nil =>
      exact h.finish ha hid (.inr hphase) (by rw [hlock]; rfl) hnot (fun heq => by cases heq)
        fun _ => hcleared
    | cons k rest =>
      simp only
      split
      · next q hq =>
        refine h.next _ ?_ ?_ (fun p hp => (h.points p hp).registered) ?_ ?_ ?_
          ⟨hcleared, a, ha, hid, hphase⟩ fun _ => hidle
        · intro p
          split <;> rfl
        · intro p hp
          split
          · exact hp
          · exact hp
        · intro p hp hnot'
          split
          · exact hcleared.symm
          · next hne =>
            refine (h.points p hp).fenced ?_
            rw [hlock]
            exact fun hmem => (List.mem_cons.mp hmem).elim hne hnot'
        · intro p hp hasleep hclear
          split at hasleep
          · next heq => exact ⟨i, rest, by rw [heq]⟩
          · next hne =>
            rw [if_neg hne] at hclear
            obtain ⟨j, l, hw⟩ := (h.points p hp).woken hasleep hclear
            exact absurd hw (hnot j p.id l)
        · intro p hp l hscan
          cases hscan
      · next hdead =>
        refine h.skip hdead ?_ hnot (fun p hp l hscan => by cases hscan)
          ⟨hcleared, a, ha, hid, hphase⟩ fun _ => hidle
        intro j hne hnot'
        rw [hlock]
        exact fun hmem => (List.mem_cons.mp hmem).elim hne hnot'
  | waking i k rest =>
    rw [hlock] at hholder
    obtain ⟨hcleared, a, ha, hid, hphase⟩ := hholder
    have hf : Moves fun p => if p.id = k then
        (if p.spot = .asleep then { p with spot := .rechecking } else p) else p :=
      (Moves.shift rfl rfl (by decide)).at k
    refine h.next _ hf.id hf.acked (fun p hp => (h.points p hp).registered) ?_ ?_ ?_
      ⟨hcleared, a, ha, hid, hphase⟩ fun _ j l => by rw [hlock]; simp
    · intro p hp hnot
      exact (hf.request p).trans ((h.points p hp).fenced (by rw [hlock]; exact hnot))
    · intro p hp hasleep hclear
      by_cases heq : p.id = k
      · rw [if_pos heq] at hasleep
        simp only at hasleep
        split at hasleep
        · cases hasleep
        · next hne => exact absurd hasleep hne
      · rw [if_neg heq] at hasleep hclear
        obtain ⟨j, l, hw⟩ := (h.points p hp).woken hasleep hclear
        obtain ⟨-, hk, -⟩ := RegistryLock.waking.inj (hlock.symm.trans hw)
        exact absurd hk.symm heq
    · intro p hp l hscan
      cases hscan
  | scanning rest unpaused =>
    rw [hlock] at hholder
    have hnot : ∀ j m l, s.lock ≠ .waking j m l := fun j m l => by rw [hlock]; simp
    have hidle : ∀ j l, s.lock ≠ .requesting j l := fun j l => by rw [hlock]; simp
    cases rest with
    | nil => exact h
    | cons k rest =>
      simp only
      split
      · next q hq =>
        obtain ⟨hmem, hqid⟩ := livePoint_some hq
        have hall := h.next (f := fun p => p) (.scanning rest
          (if q.flags.paused then unpaused else unpaused ++ [q.name])) (fun _ => rfl)
          (fun _ hp => hp) (fun p hp => (h.points p hp).registered)
          (fun p hp _ => (h.points p hp).fenced (by rw [hlock]; exact List.not_mem_nil))
          (fun p hp hasleep hclear => by
            obtain ⟨j, l, hw⟩ := (h.points p hp).woken hasleep hclear
            exact absurd hw (hnot j p.id l))
          ?_ hholder fun _ => hidle
        · rw [List.map_id'] at hall
          exact hall
        · intro p hp l hscan hseen
          obtain ⟨rfl, hempty⟩ := RegistryLock.scanning.inj hscan
          by_cases hpk : p.id = k
          · obtain rfl := h.distinct p hp q hmem (hpk.trans hqid.symm)
            split at hempty
            · next hpaused => rw [← (h.points p hp).acked, hpaused]
            · simp at hempty
          · split at hempty
            · refine (h.points p hp).seen (k :: rest) ?_ ?_
              · rw [hlock, hempty]
              · exact fun hin => (List.mem_cons.mp hin).elim hpk hseen
            · simp at hempty
      · next hdead =>
        refine h.skip hdead (fun j _ _ => by rw [hlock]; exact List.not_mem_nil) hnot ?_ hholder
          fun _ => hidle
        intro p hp l hscan hseen
        obtain ⟨rfl, rfl⟩ := RegistryLock.scanning.inj hscan
        refine (h.points p hp).seen (k :: rest) hlock ?_
        exact fun hin => (List.mem_cons.mp hin).elim (livePoint_none hdead p hp) hseen

/-- Every step keeps the fence. -/
theorem step (h : Fenced s) (e : Event) : Fenced (s.step e) := by
  cases e with
  | enterMutation => exact h.enterMutation
  | dropMutation => exact h.dropMutation
  | notifyZero => exact h.notifyZero
  | register k name => exact h.register k name
  | dropHandle k => exact h.dropHandle k
  | parkIfRequested k => exact h.parkIfRequested k
  | parkUntilResumed k => exact h.parkUntilResumed k
  | bracket k => exact h.bracket k
  | notifyProgress k => exact h.notifyProgress k
  | recheck k => exact h.recheck k
  | wakePoint k => exact h.wakePoint k
  | setDraining enable => exact h.setDraining enable
  | begin i => exact h.begin i
  | requestPauseAll i => exact h.requestPauseAll i
  | abort i => exact h.abort i
  | restore i => exact h.restore i
  | waitQuiesced w i => exact h.waitQuiesced w i
  | check w => exact h.check w
  | scan => exact h.scan
  | decide late => exact h.decide late
  | wakeWaiter w => exact h.wakeWaiter w
  | advance => exact h.advance

theorem run (h : Fenced s) (es : List Event) : Fenced (es.foldl State.step s) := by
  induction es generalizing s with
  | nil => exact h
  | cons e es ih => exact ih (h.step e)

end Fenced

end Restart
