import Mathlib
import ClaudeManager.Continuous.Batches

/-!
# Items that are consumed

What a consumer's fires have claimed stays claimed until they acknowledge or release it, and the
staged files of runs that may still need them stay as they were written.

* `Sound` — the steps in which no fire loses its session, its record or its guard
* `FiresSound`, `RowsSound`, `TraceSound` — the fires at work, the rows they have claimed and what
  they have done, each kept by every such step
* `AcknowledgedSeen`, `UnfinishedKept`, `BatchesKept` — what a step leaves of items and files
* `delivery_runs` — all of this along every run
* `unseen_items` — runs where it fails
-/

namespace Continuous

open Program

/-! ## Staged files -/

/-- A protected file survives a prune. -/
theorem prune_protected {keep : Nat} {protectedSeqs : List Nat} {files : List StagedBatch}
    {b : StagedBatch} (h : b.seq ∈ protectedSeqs) :
    b ∈ pruneStagedBatches keep protectedSeqs files ↔ b ∈ files := by
  unfold pruneStagedBatches
  split
  · exact Iff.rfl
  split
  · exact Iff.rfl
  · rw [List.mem_filter, decide_eq_true_eq, List.mem_filter, decide_eq_true_eq]
    exact ⟨fun hb => hb.1, fun hb => ⟨hb, fun hdoomed => hdoomed.2 h⟩⟩

/-- Writing one file leaves the others alone. -/
theorem StagedBatch.mem_write {b new : StagedBatch} {files : List StagedBatch}
    (h : b.seq ≠ new.seq) : b ∈ new.write files ↔ b ∈ files := by
  have hne : b ≠ new := fun heq => h (congrArg StagedBatch.seq heq)
  rw [StagedBatch.write, List.mem_cons, List.mem_filter, decide_eq_true_eq]
  exact ⟨fun hb => (hb.resolve_left hne).1, fun hb => .inr ⟨hb, h⟩⟩

theorem mem_protectedBatchSeqs {task : Task} {stagingSeq : Nat} {run : RunRecord}
    (h : task.lastRun = some run) (hrunning : run.status = .running) :
    run.seq ∈ protectedBatchSeqs task stagingSeq := by
  refine List.mem_cons_of_mem _ (List.mem_append_left _ ?_)
  rw [h, Option.filter_some, if_pos (by rw [hrunning]; rfl)]
  exact List.mem_singleton.mpr rfl

namespace Consumer

variable {s s' : Consumer} {c c' d : Carried} {e : Event}

/-! ## Steps in which no fire loses anything -/

/-- No guard is withdrawn under a fire in progress, a fire with items finds its session alive and
its record written, and nobody else ends its claims. -/
def Sound (s : Consumer) : Event → Prop
  | .task e => s.sys.NoFireUnderWithdrawal e ∧ s.sys.BelowMaximum e
  | .handOver c _ => c.ids = [] ∨ c.fire.sessionUid ∈ s.sys.live
  | .record c saved => (c.ids = [] ∨ saved = true) ∧ s.sys.task.runCount + 1 < 2 ^ 32
  | .outside op => ∀ c ∈ s.carried, ∀ id ∈ c.ids, ¬ op.EndsClaim id
  | _ => True

/-! ## The fires at work -/

/-- A fire at work has its admission; no two have the same. -/
structure FiresSound (s : Consumer) : Prop where
  level : s.sys.LevelInvariant
  distinct : (s.carried.map (·.fire)).Nodup
  numbered : ∀ c ∈ s.carried, c.fire.id < s.sys.nextFire
  working : ∀ c ∈ s.carried, c.stage.working = true → s.sys.Admitted c.snapshot c.fire

theorem FiresSound.mem_erase (h : s.FiresSound) : d ∈ s.carried.erase c ↔ d ≠ c ∧ d ∈ s.carried :=
  h.distinct.of_map.mem_erase_iff

/-- Only one fire at work has not been recorded. -/
theorem FiresSound.only (h : s.FiresSound) (hc : c ∈ s.carried) (hd : d ∈ s.carried)
    (hwc : c.stage.working = true) (hwd : d.stage.working = true) : d = c := by
  have hone := (h.level.guard_of_mem (h.working c hc hwc).mem).1
  have hmem := (h.working d hd hwd).mem
  rw [hone, List.mem_singleton] at hmem
  exact List.inj_on_of_nodup_map h.distinct hd hc hmem

/-- The fires at work, one of which has taken a step. -/
theorem FiresSound.replaced (h : s.FiresSound) (hc : c ∈ s.carried)
    (hcarried : s'.carried = c' :: s.carried.erase c) (hfire : c'.fire = c.fire) (hlevel : s'.sys.LevelInvariant)
    (hnext : s'.sys.nextFire = s.sys.nextFire)
    (hnew : c'.stage.working = true → s'.sys.Admitted c'.snapshot c'.fire)
    (hothers : ∀ d ∈ s.carried, d ≠ c → d.stage.working = true →
      s'.sys.Admitted d.snapshot d.fire) : s'.FiresSound where
  level := hlevel
  distinct := by
    rw [hcarried, List.map_cons, hfire]
    exact (((List.perm_cons_erase hc).map (·.fire)).nodup_iff).mp h.distinct
  numbered := by
    intro d hd
    rw [hnext]
    rw [hcarried] at hd
    rcases List.mem_cons.mp hd with rfl | hmem
    · rw [hfire]
      exact h.numbered c hc
    · exact h.numbered d (List.mem_of_mem_erase hmem)
  working := by
    intro d hd hw
    rw [hcarried] at hd
    rcases List.mem_cons.mp hd with rfl | hmem
    · exact hnew hw
    · obtain ⟨hne, hold⟩ := h.mem_erase.mp hmem
      exact hothers d hold hne hw

/-- A fire takes a step that the task does not see. -/
theorem FiresSound.replace (h : s.FiresSound) (hc : c ∈ s.carried) (hw : c.stage.working = true)
    (hcarried : s'.carried = c' :: s.carried.erase c) (hfire : c'.fire = c.fire)
    (hsnap : c'.snapshot = c.snapshot) (hsys : s'.sys = s.sys) : s'.FiresSound := by
  refine h.replaced hc hcarried hfire (by rw [hsys]; exact h.level) (by rw [hsys]) (fun _ => ?_)
    (fun d hd _ hwd => ?_)
  · rw [hsys, hfire, hsnap]
    exact h.working c hc hw
  · rw [hsys]
    exact h.working d hd hwd

/-- The fires at work after one of them is through. -/
theorem FiresSound.dropped (h : s.FiresSound) (hcarried : s'.carried = s.carried.erase c)
    (hlevel : s'.sys.LevelInvariant) (hnext : s'.sys.nextFire = s.sys.nextFire)
    (hothers : ∀ d ∈ s.carried, d ≠ c → d.stage.working = true →
      s'.sys.Admitted d.snapshot d.fire) : s'.FiresSound where
  level := hlevel
  distinct := by
    rw [hcarried]
    exact h.distinct.sublist (List.Sublist.map _ List.erase_sublist)
  numbered := by
    intro d hd
    rw [hcarried] at hd
    rw [hnext]
    exact h.numbered d (List.mem_of_mem_erase hd)
  working := by
    intro d hd hw
    rw [hcarried] at hd
    obtain ⟨hne, hold⟩ := h.mem_erase.mp hd
    exact hothers d hold hne hw

/-- A step of the task that no fire takes. -/
theorem FiresSound.aside (h : s.FiresSound) {e : Continuous.Event} (haside : e.aside = true)
    (hcalm : s.sys.NoFireUnderWithdrawal e) (hmax : s.sys.BelowMaximum e) :
    (s.sys.step e).LevelInvariant ∧ (s.sys.step e).nextFire = s.sys.nextFire ∧
      ∀ d ∈ s.carried, d.stage.working = true → (s.sys.step e).Admitted d.snapshot d.fire := by
  have hstep := s.sys.stepped e
  exact ⟨h.level.step e hcalm hmax, (hstep.aside haside).2, fun d hd hw =>
    hstep.admitted h.level (h.working d hd hw) haside⟩

/-- A step of the task that lets no fire in. -/
theorem nextFire_step {sys : System} {e : Continuous.Event} (h : e.admits = false) :
    (sys.step e).nextFire = sys.nextFire := by
  have hstep := sys.stepped e
  generalize hsys : sys.step e = sys' at hstep
  cases hstep with
  | arm origin snapshot fireToken minted alive now => cases h
  | write snapshot w may =>
    obtain ⟨tick, reopened, heq⟩ := sys.afterWrite_eq w
    rw [heq]
    rfl
  | _ => rfl

/-- Every sound step keeps the fires at work. -/
theorem FiresSound.step (h : s.FiresSound) (hok : s.Sound e) : (s.step e).FiresSound := by
  cases e with
  | task e =>
    dsimp only [Consumer.step]
    split
    · next haside =>
      obtain ⟨hlevel, hnext, hadm⟩ := h.aside haside hok.1 hok.2
      exact ⟨hlevel, h.distinct, fun c hc => hnext ▸ h.numbered c hc, hadm⟩
    · exact h
  | admitFire origin snapshot fireToken minted alive now =>
    have hstep := s.sys.stepped (.arm origin snapshot fireToken minted alive now)
    have hlevel := hstep.level h.level trivial trivial
    dsimp only [Consumer.step]
    split
    · next hsame =>
      refine ⟨hlevel, h.distinct, fun c hc => hsame ▸ h.numbered c hc, fun c hc hw => ?_⟩
      -- nothing was let in: the step left the task alone
      have hadm := h.working c hc hw
      generalize hsys : s.sys.step _ = sys' at hstep hsame
      cases hstep with
      | quiet _ live => exact ⟨hadm.mem, hadm.unheld, hadm.run⟩
      | arm _ _ _ _ _ _ t _ may armed eq =>
        obtain ⟨tick, heq⟩ := System.letIn_or origin s.sys
          (s.sys.newFire origin snapshot fireToken minted alive now) t
        rw [eq, heq] at hsame
        exact absurd hsame (Nat.succ_ne_self _)
    · next hnew =>
      obtain ⟨hnext, hnone, hadm⟩ := hstep.admits h.level hnew
      have hidle : ∀ c ∈ s.carried, c.stage.working = false := by
        intro c hc
        by_contra hw
        have hmem := (h.working c hc (Bool.eq_true_of_not_eq_false hw)).mem
        rw [hnone] at hmem
        cases hmem
      refine ⟨hlevel, ?_, fun c hc => ?_, fun c hc hw => ?_⟩
      · refine List.nodup_cons.mpr ⟨fun hmem => ?_, h.distinct⟩
        obtain ⟨c, hc, heq⟩ := List.mem_map.mp hmem
        have hlt := h.numbered c hc
        rw [heq] at hlt
        exact absurd hlt (lt_irrefl _)
      · show c.fire.id < (s.sys.step _).nextFire
        rw [hnext]
        rcases List.mem_cons.mp hc with rfl | hold
        · exact Nat.lt_succ_self _
        · exact Nat.lt_succ_of_lt (h.numbered c hold)
      · rcases List.mem_cons.mp hc with rfl | hold
        · exact hadm
        · rw [hidle c hold] at hw
          cases hw
  | claim c reached answered =>
    dsimp only [Consumer.step]
    split
    · next hat =>
      have hw : c.stage.working = true := by rw [hat.2]; rfl
      split
      · exact h.replace hat.1 hw rfl rfl rfl rfl
      · split <;> exact h.replace hat.1 hw rfl rfl rfl rfl
    · exact h
  | stage c opened written listed =>
    dsimp only [Consumer.step]
    split
    · next hat =>
      have hw : c.stage.working = true := by rw [hat.2]; rfl
      split <;> exact h.replace hat.1 hw rfl rfl rfl rfl
    · exact h
  | spawn c ok =>
    dsimp only [Consumer.step]
    split
    · next hat =>
      have hw : c.stage.working = true := by rw [hat.1.2]; rfl
      split
      · obtain ⟨hlevel, hnext, hadm⟩ :=
          h.aside (e := .spawned c.fire.sessionUid) rfl trivial trivial
        exact h.replaced hat.1.1 rfl rfl hlevel hnext (fun _ => hadm c hat.1.1 hw)
          fun d hd _ hwd => hadm d hd hwd
      · exact h.replace hat.1.1 hw rfl rfl rfl rfl
    · exact h
  | handOver c registered =>
    dsimp only [Consumer.step]
    split
    · next hat =>
      have hc : c ∈ s.carried := by
        rcases hat with hat | ⟨-, hat⟩
        · exact hat.1
        · exact hat.1
      have hw : c.stage.working = true := by
        rcases hat with hat | ⟨-, hat⟩ <;> rw [hat.2] <;> rfl
      exact h.replace hc hw rfl rfl rfl rfl
    · exact h
  | record c saved =>
    dsimp only [Consumer.step]
    split
    · next hat =>
      have hw : c.stage.working = true := by rw [hat.2]; rfl
      have hothers : ∀ d ∈ s.carried, d ≠ c → ¬ d.stage.working = true :=
        fun d hd hne hwd => hne (h.only hat.1 hd hw hwd)
      split
      · exact h.replaced hat.1 rfl rfl (h.level.step (.record c.fire) trivial hok.2)
          (nextFire_step rfl) nofun fun d hd hne hwd => absurd hwd (hothers d hd hne)
      · exact h.replaced hat.1 rfl rfl (h.level.step (.lose c.fire) trivial trivial)
          (nextFire_step rfl) nofun fun d hd hne hwd => absurd hwd (hothers d hd hne)
    · exact h
  | acknowledge c reached =>
    dsimp only [Consumer.step]
    split
    · exact h.dropped rfl h.level rfl fun d hd _ hw => h.working d hd hw
    · exact h
  | release c reached =>
    dsimp only [Consumer.step]
    split
    · next hat => exact h.replace hat.1 (by rw [hat.2]; rfl) rfl rfl rfl rfl
    · exact h
  | clear c saved =>
    dsimp only [Consumer.step]
    split
    · next hat =>
      have hw : c.stage.working = true := by rw [hat.2]; rfl
      refine h.dropped rfl ?_ ?_ fun d hd hne hwd => absurd (h.only hat.1 hd hw hwd) hne
      · cases saved
        · exact h.level.step (.lose c.fire) trivial trivial
        · exact h.level.step (.cleanUp c.fire) trivial trivial
      · cases saved
        · exact nextFire_step (e := .lose c.fire) rfl
        · exact nextFire_step (e := .cleanUp c.fire) rfl
    · exact h
  | outside op => exact ⟨h.level, h.distinct, h.numbered, h.working⟩
  | crash =>
    exact ⟨h.level.step .crash trivial trivial, .nil, fun c hc => (by cases hc),
      fun c hc => (by cases hc)⟩

/-! ## The rows they have claimed -/

/-- The rows of a fire are not consumed, and are claimed unless the fire has failed. -/
structure Holds (q : QueueStore) (c : Carried) : Prop where
  named : ∀ id ∈ c.ids, id ∈ q.items.map (·.id)
  unconsumed : ∀ id ∈ c.ids, q.Only id (· ≠ .consumed)
  claimed : c.stage.failed = false → ∀ id ∈ c.ids, q.Only id (· = .claimed)

variable {q : QueueStore}

/-- A request that ends no claim of the fire. -/
theorem Holds.request (h : Holds q c) (op : QueueOp) (hends : ∀ id ∈ c.ids, ¬ op.EndsClaim id) :
    Holds (op.apply q) c where
  named := fun id hid => op.apply_names (h.named id hid)
  unconsumed := fun id hid => op.apply_unconsumed (h.unconsumed id hid) fun queue ids hop hmem =>
    hends id hid (by rw [hop]; exact hmem)
  claimed := fun hf id hid => op.apply_claimed (h.named id hid) (h.claimed hf id hid) (hends id hid)

/-- A fire goes on with the rows it has. -/
theorem Holds.further (h : Holds q c) (hids : c'.ids = c.ids)
    (hfailed : c'.stage.failed = false → c.stage.failed = false) : Holds q c' where
  named := by
    rw [hids]
    exact h.named
  unconsumed := by
    rw [hids]
    exact h.unconsumed
  claimed := by
    rw [hids]
    exact fun hf => h.claimed (hfailed hf)

/-- A failed fire gives its rows back. -/
theorem Holds.released (h : Holds q c) (hids : c'.ids = c.ids) (hfailed : c'.stage.failed = true)
    (queue : String) : Holds (q.requeueQueueItems queue (some c.ids)) c' where
  named := by
    rw [hids]
    exact fun id hid => (QueueOp.requeue queue (some c.ids)).apply_names (h.named id hid)
  unconsumed := by
    rw [hids]
    exact fun id hid => QueueStore.requeue_unconsumed (h.unconsumed id hid)
  claimed := fun hf => by
    rw [hfailed] at hf
    cases hf

/-- What the service has just claimed for a fire. -/
theorem Holds.picked {queue by' : String} {maxItems : Nat}
    (hids : c.ids = (q.claimQueueItems queue maxItems by').1.map (·.id)) :
    Holds (q.claimQueueItems queue maxItems by').2 c where
  named := by
    rw [hids]
    exact fun id hid => (QueueOp.claim queue maxItems by').apply_names (QueueStore.picked_names hid)
  unconsumed := by
    rw [hids]
    intro id hid i hi hname
    rw [QueueStore.claim_claimed hid i hi hname]
    nofun
  claimed := by
    rw [hids]
    exact fun _ id hid => QueueStore.claim_claimed hid

/-- The rows of the fires at work: no two have one in common. -/
structure RowsSound (s : Consumer) : Prop where
  holds : ∀ c ∈ s.carried, Holds s.queue c
  apart : ∀ c ∈ s.carried, ∀ d ∈ s.carried, d ≠ c → c.ids.Disjoint d.ids

/-- One of the fires at work has taken a step, with the rows it had. -/
theorem RowsSound.replaced (h : s.RowsSound) (hf : s.FiresSound)
    (hcarried : s'.carried = c' :: s.carried.erase c) (hnew : Holds s'.queue c')
    (hothers : ∀ d ∈ s.carried, d ≠ c → Holds s'.queue d ∧ c'.ids.Disjoint d.ids) :
    s'.RowsSound where
  holds := by
    intro d hd
    rw [hcarried] at hd
    rcases List.mem_cons.mp hd with rfl | hmem
    · exact hnew
    · obtain ⟨hne, hold⟩ := hf.mem_erase.mp hmem
      exact (hothers d hold hne).1
  apart := by
    intro a ha b hb hne
    rw [hcarried] at ha hb
    rcases List.mem_cons.mp ha with rfl | ha
    · rcases List.mem_cons.mp hb with rfl | hb
      · exact absurd rfl hne
      · obtain ⟨hbc, hb⟩ := hf.mem_erase.mp hb
        exact (hothers b hb hbc).2
    · obtain ⟨hac, hold⟩ := hf.mem_erase.mp ha
      rcases List.mem_cons.mp hb with rfl | hb
      · exact (hothers a hold hac).2.symm
      · exact h.apart a hold b (hf.mem_erase.mp hb).2 hne

/-- A fire takes a step that the queue does not see. -/
theorem RowsSound.replace (h : s.RowsSound) (hf : s.FiresSound) (hc : c ∈ s.carried)
    (hcarried : s'.carried = c' :: s.carried.erase c) (hids : c'.ids = c.ids)
    (hfailed : c'.stage.failed = false → c.stage.failed = false) (hqueue : s'.queue = s.queue) :
    s'.RowsSound := by
  refine h.replaced hf hcarried ?_ fun d hd hne => ?_
  · rw [hqueue]
    exact (h.holds c hc).further hids hfailed
  · rw [hqueue, hids]
    exact ⟨h.holds d hd, h.apart c hc d hd hne⟩

/-- A fire is through, and its last request was about its own rows. -/
theorem RowsSound.dropped (h : s.RowsSound) (hf : s.FiresSound)
    (hcarried : s'.carried = s.carried.erase c)
    (hothers : ∀ d ∈ s.carried, d ≠ c → Holds s'.queue d) : s'.RowsSound where
  holds := by
    intro d hd
    rw [hcarried] at hd
    obtain ⟨hne, hold⟩ := hf.mem_erase.mp hd
    exact hothers d hold hne
  apart := by
    intro a ha b hb
    rw [hcarried] at ha hb
    exact h.apart a (hf.mem_erase.mp ha).2 b (hf.mem_erase.mp hb).2

/-- The rows of the others, while one fire acknowledges or gives back its own. -/
theorem RowsSound.others (h : s.RowsSound) (hc : c ∈ s.carried) (hd : d ∈ s.carried)
    (hne : d ≠ c) (op : QueueOp) (hop : ∀ id, op.EndsClaim id → id ∈ c.ids) :
    Holds (op.apply s.queue) d :=
  (h.holds d hd).request op fun id hid hends => h.apart c hc d hd hne (hop id hends) hid

/-- Every sound step keeps the rows of the fires at work. -/
theorem RowsSound.step (h : s.RowsSound) (hf : s.FiresSound) (hok : s.Sound e) :
    (s.step e).RowsSound := by
  cases e with
  | task e =>
    dsimp only [Consumer.step]
    split
    · exact ⟨h.holds, h.apart⟩
    · exact h
  | admitFire origin snapshot fireToken minted alive now =>
    dsimp only [Consumer.step]
    split
    · exact ⟨h.holds, h.apart⟩
    · refine ⟨fun c hc => ?_, fun a ha b hb hne => ?_⟩
      · rcases List.mem_cons.mp hc with rfl | hold
        · exact ⟨nofun, nofun, fun _ => nofun⟩
        · exact h.holds c hold
      · rcases List.mem_cons.mp ha with rfl | ha
        · exact List.disjoint_nil_left _
        · rcases List.mem_cons.mp hb with rfl | hb
          · exact List.disjoint_nil_right _
          · exact h.apart a ha b hb hne
  | claim c reached answered =>
    dsimp only [Consumer.step]
    split
    · next hat =>
      have hc := hat.1
      have hw : c.stage.working = true := by rw [hat.2]; rfl
      have hstart : c.stage.failed = false := by rw [hat.2]; rfl
      split
      · exact h.replace hf hc rfl rfl (fun _ => hstart) rfl
      · next queue maxItems _ =>
        split
        · refine h.replaced hf rfl (Holds.picked rfl) fun d hd hne => ⟨?_, ?_⟩
          · exact (h.holds d hd).request (.claim queue maxItems c.claimedBy) fun _ _ => id
          · -- the others are through with their records, and have their rows claimed
            have hdone : d.stage = .finished := by
              by_contra hnot
              refine hne (hf.only hc hd hw ?_)
              cases hs : d.stage <;> first | rfl | exact absurd hs hnot
            have hclaimed := (h.holds d hd).claimed (by rw [hdone]; rfl)
            refine fun id hpicked hid => QueueStore.claim_not_picked (fun i hi hname => ?_) hpicked
            rw [hclaimed id hid i hi hname]
            nofun
        · exact h.replace hf hc rfl rfl nofun rfl
    · exact h
  | stage c opened written listed =>
    dsimp only [Consumer.step]
    split
    · next hat =>
      have hstart : c.stage.failed = false := by rw [hat.2]; rfl
      split
      · exact h.replace hf hat.1 rfl rfl (fun _ => hstart) rfl
      · exact h.replace hf hat.1 rfl rfl nofun rfl
    · exact h
  | spawn c ok =>
    dsimp only [Consumer.step]
    split
    · next hat =>
      have hstart : c.stage.failed = false := by rw [hat.1.2]; rfl
      split
      · exact h.replace hf hat.1.1 rfl rfl (fun _ => hstart) rfl
      · exact h.replace hf hat.1.1 rfl rfl nofun rfl
    · exact h
  | handOver c registered =>
    dsimp only [Consumer.step]
    split
    · next hat =>
      rcases hat with hat | ⟨-, hat⟩
      · exact h.replace hf hat.1 rfl rfl (fun _ => by rw [hat.2]; rfl) rfl
      · exact h.replace hf hat.1 rfl rfl (fun _ => by rw [hat.2]; rfl) rfl
    · exact h
  | record c saved =>
    dsimp only [Consumer.step]
    split
    · next hat =>
      have hstart : c.stage.failed = false := by rw [hat.2]; rfl
      split <;> exact h.replace hf hat.1 rfl rfl (fun _ => hstart) rfl
    · exact h
  | acknowledge c reached =>
    dsimp only [Consumer.step]
    split
    · next hat =>
      refine h.dropped hf rfl fun d hd hne => ?_
      show Holds (if reached then s.queue.ackQueueItems c.queue c.ids else s.queue) d
      split
      · exact h.others hat.1 hd hne (.ack c.queue c.ids) fun _ hid => hid
      · exact h.holds d hd
    · exact h
  | release c reached =>
    dsimp only [Consumer.step]
    split
    · next hat =>
      have hfailed : c.stage.failed = true := by rw [hat.2]; rfl
      refine h.replaced hf rfl ?_ fun d hd hne => ⟨?_, h.apart c hat.1 d hd hne⟩
      · show Holds (if reached then s.queue.requeueQueueItems c.queue (some c.ids) else s.queue) _
        split
        · refine (h.holds c hat.1).released ?_ ?_ c.queue <;> rfl
        · exact (h.holds c hat.1).further rfl nofun
      · show Holds (if reached then s.queue.requeueQueueItems c.queue (some c.ids) else s.queue) d
        split
        · exact h.others hat.1 hd hne (.requeue c.queue (some c.ids)) fun _ hid => hid _ rfl
        · exact h.holds d hd
    · exact h
  | clear c saved =>
    dsimp only [Consumer.step]
    split
    · exact h.dropped hf rfl fun d hd _ => h.holds d hd
    · exact h
  | outside op =>
    exact ⟨fun c hc => (h.holds c hc).request op (hok c hc), h.apart⟩
  | crash => exact ⟨fun c hc => (by cases hc), fun c hc => (by cases hc)⟩

/-! ## What they have done -/

/-- What a fire with items has done by now. -/
structure Traced (s : Consumer) (c : Carried) : Prop where
  fresh : c.stage = .admitted → c.ids = []
  file : c.ids ≠ [] → c.stage.hasFile = true → (c.fire, c.ids) ∈ s.staged
  prompt : c.ids ≠ [] → c.stage.hasPrompt = true → c.fire ∈ s.handed
  run : c.ids ≠ [] → c.stage = .finished → c.fire ∈ s.recorded

/-- Nothing that has been done is forgotten. -/
structure Grows (s s' : Consumer) : Prop where
  staged : s.staged ⊆ s'.staged
  handed : s.handed ⊆ s'.handed
  recorded : s.recorded ⊆ s'.recorded

theorem Grows.refl (s : Consumer) : s.Grows s := ⟨fun _ h => h, fun _ h => h, fun _ h => h⟩

theorem Traced.mono (h : s.Traced c) (hgrows : s.Grows s') : s'.Traced c where
  fresh := h.fresh
  file := fun hids hfile => hgrows.staged (h.file hids hfile)
  prompt := fun hids hprompt => hgrows.handed (h.prompt hids hprompt)
  run := fun hids hrun => hgrows.recorded (h.run hids hrun)

def TraceSound (s : Consumer) : Prop := ∀ c ∈ s.carried, s.Traced c

theorem TraceSound.replaced (h : s.TraceSound) (hcarried : s'.carried = c' :: s.carried.erase c)
    (hgrows : s.Grows s') (hnew : s'.Traced c') : s'.TraceSound := by
  intro d hd
  rw [hcarried] at hd
  rcases List.mem_cons.mp hd with rfl | hmem
  · exact hnew
  · exact (h d (List.mem_of_mem_erase hmem)).mono hgrows

/-- Every sound step keeps account of what the fires at work have done. -/
theorem TraceSound.step (h : s.TraceSound) (hok : s.Sound e) : (s.step e).TraceSound := by
  cases e with
  | task e =>
    dsimp only [Consumer.step]
    split
    · exact fun c hc => (h c hc).mono ⟨fun _ h => h, fun _ h => h, fun _ h => h⟩
    · exact h
  | admitFire origin snapshot fireToken minted alive now =>
    dsimp only [Consumer.step]
    split
    · exact fun c hc => (h c hc).mono ⟨fun _ h => h, fun _ h => h, fun _ h => h⟩
    · intro c hc
      rcases List.mem_cons.mp hc with rfl | hold
      · exact ⟨fun _ => rfl, fun hids => absurd rfl hids, fun hids => absurd rfl hids,
          fun hids => absurd rfl hids⟩
      · exact (h c hold).mono ⟨fun _ h => h, fun _ h => h, fun _ h => h⟩
  | claim c reached answered =>
    dsimp only [Consumer.step]
    split
    · next hat =>
      have hnil := (h c hat.1).fresh hat.2
      split
      · refine h.replaced rfl ⟨fun _ h => h, fun _ h => h, fun _ h => h⟩ ?_
        exact ⟨nofun, fun hids => absurd hnil hids, fun _ => nofun, fun _ => nofun⟩
      · split
        · refine h.replaced rfl ⟨fun _ h => h, fun _ h => h, fun _ h => h⟩ ?_
          cases answered
          · exact ⟨nofun, fun _ => nofun, fun _ => nofun, fun _ => nofun⟩
          · exact ⟨nofun, fun _ => nofun, fun _ => nofun, fun _ => nofun⟩
        · exact h.replaced rfl ⟨fun _ h => h, fun _ h => h, fun _ h => h⟩
            ⟨nofun, fun _ => nofun, fun _ => nofun, fun _ => nofun⟩
    · exact h
  | stage c opened written listed =>
    dsimp only [Consumer.step]
    split
    · split
      · refine h.replaced rfl ⟨List.subset_cons_self _ _, fun _ h => h, fun _ h => h⟩ ?_
        exact ⟨nofun, fun _ _ => List.mem_cons_self, fun _ => nofun, fun _ => nofun⟩
      · exact h.replaced rfl ⟨fun _ h => h, fun _ h => h, fun _ h => h⟩
          ⟨nofun, fun _ => nofun, fun _ => nofun, fun _ => nofun⟩
    · exact h
  | spawn c ok =>
    dsimp only [Consumer.step]
    split
    · next hat =>
      split
      · refine h.replaced rfl ⟨fun _ h => h, fun _ h => h, fun _ h => h⟩ ?_
        exact ⟨nofun, fun hids _ => (h c hat.1.1).file hids (by rw [hat.1.2]; rfl), fun _ => nofun,
          fun _ => nofun⟩
      · exact h.replaced rfl ⟨fun _ h => h, fun _ h => h, fun _ h => h⟩
          ⟨nofun, fun _ => nofun, fun _ => nofun, fun _ => nofun⟩
    · exact h
  | handOver c registered =>
    dsimp only [Consumer.step]
    split
    · next hat =>
      have hfile : c.ids ≠ [] → (c.fire, c.ids) ∈ s.staged := by
        intro hids
        rcases hat with hat | ⟨-, hat⟩
        · exact (h c hat.1).file hids (by rw [hat.2]; rfl)
        · exact (h c hat.1).file hids (by rw [hat.2]; rfl)
      refine h.replaced rfl ⟨fun _ h => h, fun f hmem => ?_, fun _ h => h⟩ ?_
      · show f ∈ if _ then c.fire :: s.handed else s.handed
        split
        · exact List.mem_cons_of_mem _ hmem
        · exact hmem
      · refine ⟨nofun, fun hids _ => hfile hids, fun hids _ => ?_, fun _ => nofun⟩
        have hlive := hok.resolve_left hids
        show c.fire ∈ if _ then c.fire :: s.handed else s.handed
        rw [if_pos (by simp only [hlive, decide_true, Bool.or_true, Bool.and_true])]
        exact List.mem_cons_self
    · exact h
  | record c saved =>
    dsimp only [Consumer.step]
    split
    · next hat =>
      have hold := h c hat.1
      split
      · refine h.replaced rfl ⟨fun _ h => h, fun _ h => h, List.subset_cons_self _ _⟩ ?_
        exact ⟨nofun, fun hids _ => hold.file hids (by rw [hat.2]; rfl),
          fun hids _ => hold.prompt hids (by rw [hat.2]; rfl), fun _ _ => List.mem_cons_self⟩
      · next hlost =>
        have hnil := hok.1.resolve_right hlost
        refine h.replaced rfl ⟨fun _ h => h, fun _ h => h, fun _ h => h⟩ ?_
        exact ⟨nofun, fun hids => absurd hnil hids, fun hids => absurd hnil hids,
          fun hids => absurd hnil hids⟩
    · exact h
  | acknowledge c reached =>
    dsimp only [Consumer.step]
    split
    · exact fun d hd => (h d (List.mem_of_mem_erase hd)).mono
        ⟨fun _ h => h, fun _ h => h, fun _ h => h⟩
    · exact h
  | release c reached =>
    dsimp only [Consumer.step]
    split
    · exact h.replaced rfl ⟨fun _ h => h, fun _ h => h, fun _ h => h⟩
        ⟨nofun, fun _ => nofun, fun _ => nofun, fun _ => nofun⟩
    · exact h
  | clear c saved =>
    dsimp only [Consumer.step]
    split
    · exact fun d hd => (h d (List.mem_of_mem_erase hd)).mono
        ⟨fun _ h => h, fun _ h => h, fun _ h => h⟩
    · exact h
  | outside op => exact fun c hc => (h c hc).mono ⟨fun _ h => h, fun _ h => h, fun _ h => h⟩
  | crash => exact fun c hc => by cases hc

/-! ## What a step leaves of items and files -/

/-- An item that a fire acknowledges was listed in the staged file of a recorded run, whose prompt
went to a delivery for a session that was live. -/
def AcknowledgedSeen (s : Consumer) (e : Event) (s' : Consumer) : Prop :=
  ∀ id, ¬ s.queue.Consumed id → s'.queue.Consumed id → (∃ op, e = .outside op) ∨
    ∃ f ids, (f, ids) ∈ s.staged ∧ id ∈ ids ∧ f ∈ s.handed ∧ f ∈ s.recorded

/-- The items of a fire that has not recorded its run, which may have failed, are not consumed. -/
def UnfinishedKept (s s' : Consumer) : Prop :=
  ∀ c, c ∈ s.carried ∨ c ∈ s'.carried → c.stage.working = true → ∀ id ∈ c.ids,
    s'.queue.Only id fun state => state = .pending ∨ state = .claimed

/-- The staged file of a run that needs it stays as it is. -/
def BatchesKept (s s' : Consumer) : Prop :=
  ∀ seq, s.sys.task.NeedsBatch seq → ∀ b : StagedBatch, b.seq = seq →
    (b ∈ s'.files ↔ b ∈ s.files)

/-- An item becomes consumed by its fire's acknowledgement, or by somebody else's. -/
theorem consumed_by {id : String} (hbefore : ¬ s.queue.Consumed id)
    (hafter : (s.step e).queue.Consumed id) : (∃ op, e = .outside op) ∨
      ∃ c ∈ s.carried, c.stage = .finished ∧ id ∈ c.ids := by
  rw [QueueStore.not_consumed_iff] at hbefore
  have hunchanged : (s.step e).queue.Only id (· ≠ .consumed) → False := fun hnot =>
    QueueStore.not_consumed_iff.mpr hnot hafter
  cases e with
  | task e =>
    refine (hunchanged ?_).elim
    dsimp only [Consumer.step]
    split <;> exact hbefore
  | admitFire origin snapshot fireToken minted alive now =>
    refine (hunchanged ?_).elim
    dsimp only [Consumer.step]
    split <;> exact hbefore
  | claim c reached answered =>
    refine (hunchanged ?_).elim
    dsimp only [Consumer.step]
    split
    · split
      · exact hbefore
      · next queue maxItems _ =>
        split
        · exact (QueueOp.claim queue maxItems c.claimedBy).apply_unconsumed hbefore nofun
        · exact hbefore
    · exact hbefore
  | stage c opened written listed =>
    refine (hunchanged ?_).elim
    dsimp only [Consumer.step]
    split
    · split <;> exact hbefore
    · exact hbefore
  | spawn c ok =>
    refine (hunchanged ?_).elim
    dsimp only [Consumer.step]
    split
    · split <;> exact hbefore
    · exact hbefore
  | handOver c registered =>
    refine (hunchanged ?_).elim
    dsimp only [Consumer.step]
    split <;> exact hbefore
  | record c saved =>
    refine (hunchanged ?_).elim
    dsimp only [Consumer.step]
    split
    · split <;> exact hbefore
    · exact hbefore
  | acknowledge c reached =>
    refine .inr ?_
    dsimp only [Consumer.step] at hunchanged
    split at hunchanged
    · next hat =>
      refine ⟨c, hat.1, hat.2, ?_⟩
      by_contra hid
      apply hunchanged
      show (if reached then s.queue.ackQueueItems c.queue c.ids else s.queue).Only id _
      split
      · exact QueueStore.ack_only hbefore hid
      · exact hbefore
    · exact (hunchanged hbefore).elim
  | release c reached =>
    refine (hunchanged ?_).elim
    dsimp only [Consumer.step]
    split
    · show (if reached then s.queue.requeueQueueItems c.queue (some c.ids) else s.queue).Only id _
      split
      · exact QueueStore.requeue_unconsumed hbefore
      · exact hbefore
    · exact hbefore
  | clear c saved =>
    refine (hunchanged ?_).elim
    dsimp only [Consumer.step]
    split <;> exact hbefore
  | outside op => exact .inl ⟨op, rfl⟩
  | crash => exact (hunchanged hbefore).elim

theorem AcknowledgedSeen.of_trace (h : s.TraceSound) : s.AcknowledgedSeen e (s.step e) := by
  intro id hbefore hafter
  rcases consumed_by hbefore hafter with hout | ⟨c, hc, hdone, hid⟩
  · exact .inl hout
  · have hids : c.ids ≠ [] := List.ne_nil_of_mem hid
    have htraced := h c hc
    exact .inr ⟨c.fire, c.ids, htraced.file hids (by rw [hdone]; rfl), hid,
      htraced.prompt hids (by rw [hdone]; rfl), htraced.run hids hdone⟩

theorem UnfinishedKept.of_rows (h : s.RowsSound) (h' : (s.step e).RowsSound) (hok : s.Sound e) :
    s.UnfinishedKept (s.step e) := by
  have hopen : ∀ {id : String}, (s.step e).queue.Only id (· ≠ .consumed) →
      (s.step e).queue.Only id fun state => state = .pending ∨ state = .claimed := by
    intro id hnot i hi hname
    have hne := hnot i hi hname
    cases hs : i.state with
    | pending => exact .inl rfl
    | claimed => exact .inr rfl
    | consumed => exact absurd hs hne
  intro c hc hw id hid
  refine hopen ?_
  rcases hc with hc | hc
  · rw [← QueueStore.not_consumed_iff]
    intro hafter
    have hbefore := QueueStore.not_consumed_iff.mpr ((h.holds c hc).unconsumed id hid)
    rcases consumed_by hbefore hafter with ⟨op, rfl⟩ | ⟨d, hd, hdone, hmem⟩
    · have hkept := ((h.holds c hc).request op (hok c hc)).unconsumed id hid
      exact QueueStore.not_consumed_iff.mpr hkept hafter
    · have hne : d ≠ c := by
        rintro rfl
        rw [hdone] at hw
        cases hw
      exact h.apart c hc d hd hne hid hmem
  · exact (h'.holds c hc).unconsumed id hid

/-- While a fire is staging, the runs whose file is needed are protected and have other numbers. -/
theorem FiresSound.needed (h : s.FiresSound) (hc : c ∈ s.carried) (hw : c.stage.working = true)
    {seq : Nat} (hneeds : s.sys.task.NeedsBatch seq) :
    seq ≠ c.fire.seq ∧ seq ∈ protectedBatchSeqs c.snapshot c.fire.seq := by
  have hadm := h.working c hc hw
  rcases hneeds with ⟨run, hrun, hrunning, rfl⟩ | ⟨block, hblock, -⟩ | ⟨hold, hhold, -⟩
  · obtain ⟨read, hread, hstatus, hseq⟩ := hadm.run run hrun hrunning
    have hcount := h.level.counted _ h.level.current run hrun
    have hnext := h.level.fires c.fire hadm.mem
    refine ⟨by omega, ?_⟩
    rw [← hseq]
    exact mem_protectedBatchSeqs hread hstatus
  · rw [hadm.unheld.2] at hblock
    cases hblock
  · rw [hadm.unheld.1] at hhold
    cases hhold

theorem BatchesKept.of_fires (h : s.FiresSound) : s.BatchesKept (s.step e) := by
  rintro seq hneeds b rfl
  cases e with
  | stage c opened written listed =>
    dsimp only [Consumer.step]
    split
    · next hat =>
      obtain ⟨hne, hprot⟩ := h.needed hat.1 (by rw [hat.2]; rfl) hneeds
      split
      · show b ∈ s.writeBatch c listed ↔ _
        unfold writeBatch
        dsimp only
        split
        · rw [prune_protected hprot]
          exact StagedBatch.mem_write hne
        · exact StagedBatch.mem_write hne
      · show b ∈ (if opened then _ else s.files) ↔ _
        split
        · exact StagedBatch.mem_write hne
        · exact Iff.rfl
    · exact Iff.rfl
  | task e =>
    dsimp only [Consumer.step]
    split <;> exact Iff.rfl
  | admitFire origin snapshot fireToken minted alive now =>
    dsimp only [Consumer.step]
    split <;> exact Iff.rfl
  | claim c reached answered =>
    dsimp only [Consumer.step]
    split
    · split
      · exact Iff.rfl
      · split <;> exact Iff.rfl
    · exact Iff.rfl
  | spawn c ok =>
    dsimp only [Consumer.step]
    split
    · split <;> exact Iff.rfl
    · exact Iff.rfl
  | handOver c registered =>
    dsimp only [Consumer.step]
    split <;> exact Iff.rfl
  | record c saved =>
    dsimp only [Consumer.step]
    split
    · split <;> exact Iff.rfl
    · exact Iff.rfl
  | acknowledge c reached =>
    dsimp only [Consumer.step]
    split <;> exact Iff.rfl
  | release c reached =>
    dsimp only [Consumer.step]
    split <;> exact Iff.rfl
  | clear c saved =>
    dsimp only [Consumer.step]
    split <;> exact Iff.rfl
  | outside op => exact Iff.rfl
  | crash => exact Iff.rfl

/-! ## Along a run -/

/-- The fires at work, their rows and what they have done. -/
structure DeliveryInvariant (s : Consumer) : Prop where
  fires : s.FiresSound
  rows : s.RowsSound
  trace : s.TraceSound

theorem DeliveryInvariant.step (h : s.DeliveryInvariant) (hok : s.Sound e) :
    (s.step e).DeliveryInvariant :=
  ⟨h.fires.step hok, h.rows.step h.fires hok, h.trace.step hok⟩

theorem start_delivery {t : Task} (ht : t.Unfired) (queue : QueueStore)
    (files : List StagedBatch) (keep : Nat) : (start t queue files keep).DeliveryInvariant where
  fires := ⟨System.start_level ht, .nil, fun c hc => (by cases hc), fun c hc => (by cases hc)⟩
  rows := ⟨fun c hc => (by cases hc), fun c hc => (by cases hc)⟩
  trace := fun c hc => by cases hc

/-- Along every run in which no fire loses its session, its record or its guard, items are
acknowledged only when they have been seen, the items of failed fires are not consumed, and the
files of runs that need them are kept. -/
theorem delivery_runs {t : Task} (ht : t.Unfired) {queue : QueueStore} {files : List StagedBatch}
    {keep : Nat} {es : List Event} {e : Event}
    (hok : Meets step Sound (start t queue files keep) (es ++ [e])) :
    let s := es.foldl step (start t queue files keep)
    s.AcknowledgedSeen e (s.step e) ∧ s.UnfinishedKept (s.step e) ∧ s.BatchesKept (s.step e) := by
  intro s
  obtain ⟨hbefore, hlast, -⟩ := Meets.of_append hok
  have hinv : s.DeliveryInvariant :=
    Meets.invariant (I := DeliveryInvariant) (fun s e hs he => hs.step he)
      (start_delivery ht queue files keep) hbefore
  exact ⟨.of_trace hinv.trace, .of_rows hinv.rows (hinv.step hlast).rows hlast,
    .of_fires hinv.fires⟩

end Consumer

/-! ## Items consumed unseen, and a file that is lost -/

/-- A consumer that has never fired. -/
def scrapeTask : Task := Task.new "scrape" "/w" .claude .fresh (.consumer "urls" 10 60 1)

/-- Its queue, with one pending item. -/
def oneItem : QueueStore := ⟨[⟨"i1", "urls", "x", none, none, 1, .pending, none⟩], []⟩

/-- A fire of the task at work; the first one has claimed the item. -/
def carriedFire (id : Nat) (token uid : String) (now : Nat) (ids : List String) (stage : Stage) :
    Carried :=
  ⟨⟨id, 1, token, uid, now, false, "operator", false⟩, scrapeTask, false, ids, stage⟩

def firstCarried (ids : List String) (stage : Stage) : Carried :=
  carriedFire 0 "f1" "s1" 1000 ids stage

/-- The first fire up to the end of its spawn. -/
def firstSpawn : List Consumer.Event :=
  [.admitFire (.caller (.operator "op")) scrapeTask "f1" "s1" false 1000,
    .claim (firstCarried [] .admitted) true true, .stage (firstCarried ["i1"] .claimed) true true true,
    .spawn (firstCarried ["i1"] .staged) true]

/-- The session exits before its prompt is handed over; the run is recorded all the same. -/
def vanishedSession : List Consumer.Event :=
  firstSpawn ++ [.task (.died "s1"), .handOver (firstCarried ["i1"] .spawned) false,
    .record (firstCarried ["i1"] .handedOver) true]

/-- The task while its first fire waits for the service. -/
def claimingTask : Task := { scrapeTask with inFlight := some ⟨"f1", "s1", 1000⟩ }

def secondCarried (ids : List String) (stage : Stage) : Carried :=
  carriedFire 1 "f2" "s2" 1200 ids stage

/-- The first fire's claim outlasts the grace; a second fire runs, and then the claim comes back. -/
def slowClaim : List Consumer.Event :=
  [.admitFire (.caller (.operator "op")) scrapeTask "f1" "s1" false 1000,
    .task (.judge claimingTask 1100),
    .task (.write claimingTask
      (.orphan ⟨some ⟨"f1", "s1", 1000⟩, some "s1", 1000, 0, "f1"⟩ 1100)),
    .admitFire (.caller (.operator "op")) scrapeTask "f2" "s2" false 1200,
    .claim (secondCarried [] .admitted) true true,
    .stage (secondCarried ["i1"] .claimed) true true true, .spawn (secondCarried ["i1"] .staged) true,
    .handOver (secondCarried ["i1"] .spawned) true, .record (secondCarried ["i1"] .handedOver) true,
    .claim (firstCarried [] .admitted) true true]

/-- The run `es` of the task that has never fired. -/
def scrapeRun (es : List Consumer.Event) : Consumer :=
  es.foldl Consumer.step (.start scrapeTask oneItem [] 5)

/-- An item is acknowledged though its prompt went to no session, and the batch file of a running
run is overwritten. -/
theorem unseen_items : scrapeTask.Unfired ∧
    ¬ (scrapeRun vanishedSession).AcknowledgedSeen (.acknowledge (firstCarried ["i1"] .finished) true)
      ((scrapeRun vanishedSession).step (.acknowledge (firstCarried ["i1"] .finished) true)) ∧
    ¬ (scrapeRun slowClaim).BatchesKept
      ((scrapeRun slowClaim).step (.stage (firstCarried [] .claimed) true true true)) := by
  refine ⟨⟨rfl, rfl, rfl, rfl, rfl, rfl⟩, fun hseen => ?_, fun hkept => ?_⟩
  · have hnone : (scrapeRun vanishedSession).handed = [] := by decide +kernel
    have hbefore : (scrapeRun vanishedSession).queue.items.map (·.state) = [.claimed] := by
      decide +kernel
    have hafter : ((scrapeRun vanishedSession).step
        (.acknowledge (firstCarried ["i1"] .finished) true)).queue.items =
          [⟨"i1", "urls", "x", none, none, 1, .consumed, some "scrape#1"⟩] := by decide +kernel
    have hnot : ¬ (scrapeRun vanishedSession).queue.Consumed "i1" := by
      rintro ⟨i, hi, -, hconsumed⟩
      have hmem : i.state ∈ (scrapeRun vanishedSession).queue.items.map (·.state) :=
        List.mem_map_of_mem hi
      rw [hbefore, hconsumed] at hmem
      exact absurd hmem (by decide)
    rcases hseen "i1" hnot ⟨_, by rw [hafter]; exact List.mem_singleton.mpr rfl, rfl, rfl⟩ with
      ⟨op, hop⟩ | ⟨f, ids, -, -, hhanded, -⟩
    · cases hop
    · rw [hnone] at hhanded
      cases hhanded
  · have hrun : (scrapeRun slowClaim).sys.task.lastRun.map (fun run => (run.seq, run.status)) =
        some (1, .running) := by decide +kernel
    have hbefore : (scrapeRun slowClaim).files = [⟨1, "urls", ["i1"]⟩] := by decide +kernel
    have hafter : ((scrapeRun slowClaim).step
        (.stage (firstCarried [] .claimed) true true true)).files = [⟨1, "urls", []⟩] := by
      decide +kernel
    obtain ⟨run, hlast, heq⟩ := Option.map_eq_some_iff.mp hrun
    have hneeds : (scrapeRun slowClaim).sys.task.NeedsBatch 1 :=
      .inl ⟨run, hlast, congrArg Prod.snd heq, congrArg Prod.fst heq⟩
    have hmem := (hkept 1 hneeds ⟨1, "urls", ["i1"]⟩ rfl).mpr
      (by rw [hbefore]; exact List.mem_singleton.mpr rfl)
    rw [hafter] at hmem
    exact absurd hmem (by decide)

/-- The whole of a first fire that loses nothing. -/
def deliveredFire : List Consumer.Event :=
  firstSpawn ++ [.handOver (firstCarried ["i1"] .spawned) true,
    .record (firstCarried ["i1"] .handedOver) true]

theorem delivery_runs_delivered :
    (scrapeRun deliveredFire).AcknowledgedSeen (.acknowledge (firstCarried ["i1"] .finished) true)
      ((scrapeRun deliveredFire).step (.acknowledge (firstCarried ["i1"] .finished) true)) :=
  (@Consumer.delivery_runs scrapeTask ⟨rfl, rfl, rfl, rfl, rfl, rfl⟩ oneItem [] 5 deliveredFire
    (.acknowledge (firstCarried ["i1"] .finished) true)
    ⟨trivial, trivial, trivial, trivial, .inr (by decide +kernel),
      ⟨.inr rfl, by decide +kernel⟩, trivial, trivial⟩).1

end Continuous
