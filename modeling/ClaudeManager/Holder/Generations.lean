import ClaudeManager.Holder.ExitRuns

/-!
# Exits over whole runs

The books are kept across brain generations, holder upgrades and deploys, until the process
ends; what its history shows outlives it.
-/

namespace Holder

open Containers Program

/-! ## Ledgers -/

/-- What remains to be said of a history when the records are gone. -/
structure Ledger (l : List Happening) : Prop where
  allowed : Justified Allowed l
  answered : Answered Due l
  delivered : ∀ child, .consumed child .exit ∈ l → ∃ event, .pending child event ∈ l

theorem Books.ledger {b : Book} (h : Books b) : Ledger b.history :=
  ⟨h.allowed, h.answered, h.delivered⟩

/-- The wait statuses consumed so far are those of the children reaped. -/
def Reaped (s : Serving) : Prop :=
  ∀ child, s.kernel.procs child = .reaped ↔ ∃ r, .consumed child r ∈ s.history

/-- A child is waited for outside the exit pipeline. -/
theorem ledger_reap {s : Serving} (h : Ledger s.history) (hr : Reaped s) (child : Nat)
    {reaper : Reaper} (hreaper : reaper ≠ .exit) :
    Ledger (s.reap child reaper).history ∧ Reaped (s.reap child reaper) := by
  unfold Serving.reap
  split
  · exact ⟨h, hr⟩
  · rename_i hlive
    refine ⟨⟨justified_concat.mpr ⟨h.allowed, fun r hc => hlive ((hr child).mpr ⟨r, hc⟩),
      fun he => absurd he hreaper⟩, answered_concat h.answered fun y hdue => ?_, fun c hc => ?_⟩,
      fun c => ?_⟩
    · obtain ⟨epoch, event, heq, -⟩ := hdue
      cases heq
    · simp only [Serving.note, List.mem_append, List.mem_singleton,
        Happening.consumed.injEq] at hc ⊢
      rcases hc with hc | ⟨-, rfl⟩
      · exact (h.delivered c hc).imp fun _ hp => .inl hp
      · exact absurd rfl hreaper
    · by_cases hc : c = child
      · subst hc
        simp [Serving.note]
      · have := hr c
        simp_all [Serving.note]

/-- Shutting down leaves a true history. -/
theorem ledger_killAll {s : Serving} (h : Books s.book) :
    Ledger (Supervisor.killAll s).history := by
  have hfold : ∀ (l : List (String × SessionEntry)) (t : Serving),
      Ledger t.history → Reaped t →
      Ledger (l.foldl (fun s entry => if entry.2.exit.isNone then
        s.reap entry.2.pidfd.child .shutdown else s) t).history := by
    intro l
    induction l with
    | nil => exact fun t ht _ => ht
    | cons entry l ih =>
      intro t ht hr
      rw [List.foldl_cons]
      split
      · obtain ⟨ht', hr'⟩ := @ledger_reap _ ht hr entry.2.pidfd.child .shutdown (by decide)
        exact ih _ ht' hr'
      · exact ih _ ht hr
  exact hfold _ _ h.ledger h.reaped

/-! ## Generations -/

/-- A new generation keeps the records, none of them ready for delivery. -/
theorem books_serve {h : State} {kernel : Kernel} {history : List Happening} {now : Nat}
    (hb : Books ⟨h.sessions, h.nextIncarnation, h.epoch, kernel, history⟩) :
    Books (serve h kernel history now).book := by
  have hget : ∀ uid : String, (serve h kernel history now).holder.sessions[uid]?
      = h.sessions[uid]?.map fun e => { e with deliveryReady := false } :=
    fun _ => Std.ExtTreeMap.getElem?_map
  refine hb.replace (fun uid e' he' => ?_) fun uid e he => ?_
  · obtain ⟨e, he, rfl⟩ := Option.map_eq_some_iff.mp ((hget uid).symm.trans he')
    exact ⟨e, he, rfl, rfl, rfl, rfl, rfl, by simp⟩
  · exact ⟨_, (hget uid).trans (congrArg _ he), rfl, rfl, rfl⟩

/-- A resumed generation keeps the records as they are. -/
theorem books_serveResumed {h : State} {kernel : Kernel} {history : List Happening} {now : Nat}
    (hb : Books ⟨h.sessions, h.nextIncarnation, h.epoch, kernel, history⟩) :
    Books (serveResumed h kernel history now).book := hb

/-- A restored record stands for the one it was taken from. -/
theorem restore_snapshot_exit (uid : String) (e : SessionEntry) :
    (e.snapshot uid).restore.exit = e.exit := by
  cases h : e.exit <;> simp [HolderSessionRecord.restore, SessionEntry.snapshot, h]

/-- An upgraded holder takes the records over. -/
theorem books_upgrade {s : Serving} (h : Books s.book) {now : Nat} {previous : Bool} :
    Books (serveResumed ((restoreFromUpgrade s.holder.cfg s.holder.upgradeSnapshot).setSupervisorStatus
      "running" previous) s.kernel s.history now).book := by
  have hget : ∀ uid : String,
      (restoreFromUpgrade s.holder.cfg s.holder.upgradeSnapshot).sessions[uid]?
        = s.holder.sessions[uid]?.map fun e => (e.snapshot uid).restore := by
    intro uid
    simp only [restoreFromUpgrade, State.upgradeSnapshot, List.map_map]
    exact getElem?_ofList_toList (f := fun uid e => (SessionEntry.snapshot uid e).restore)
  refine books_serveResumed (h.replace (fun uid e' he' => ?_) fun uid e he => ?_)
  · obtain ⟨e, he, rfl⟩ := Option.map_eq_some_iff.mp ((hget uid).symm.trans he')
    exact ⟨e, he, rfl, rfl, restore_snapshot_exit uid e, rfl, rfl, fun hr => ⟨hr, rfl⟩⟩
  · exact ⟨(e.snapshot uid).restore, (hget uid).trans (congrArg _ he), rfl, rfl,
      restore_snapshot_exit uid e⟩

/-! ## Runs -/

namespace Supervisor

/-- The history is true, and so are the records while the process serves. -/
def Kept (v : Supervisor) : Prop :=
  Ledger v.serving.history ∧ (v.gone = false → Books v.serving.book)

theorem Kept.of_books {v : Supervisor} (h : Books v.serving.book) : v.Kept :=
  ⟨h.ledger, fun _ => h⟩

@[simp] theorem applyFailure_serving {v : Supervisor} {ranFor : Nat} {helloed : Bool} :
    (v.applyFailure ranFor helloed).serving = v.serving := by
  unfold applyFailure
  cases h : v.breaker.noteFailure ranFor helloed v.pins.previous.isSome with
  | mk decision breaker => cases decision <;> rfl

theorem kept_fire {v : Supervisor} (h : Books v.serving.book) {deploy : ArmedDeploy} {os : Os}
    {polledAt : Nat} {exec : ExecResult} : (v.fire deploy os polledAt exec).Kept := by
  have hnote : Books ((v.serving.setHolder { v.serving.holder with armedDeploy := none }).note
      (.deployFired v.serving.holder.epoch polledAt)).book := h.inert trivial
  unfold fire
  cases deploy with
  | newPin pin => exact .of_books hnote
  | usePrevious => exact .of_books hnote
  | splitRollback pin generation version =>
    cases exec with
    | failed => exact .of_books (@books_sweepLatchedExits _ os hnote)
    | done => exact .of_books hnote
    | stopped => exact .of_books hnote

theorem kept_onOutcome {v : Supervisor} (h : Books v.serving.book) {outcome : ServeOutcome}
    {os : Os} {polledAt : Nat} {exec : ExecResult} :
    (v.onOutcome outcome os polledAt exec).Kept := by
  unfold onOutcome
  cases outcome with
  | shutdownRequested => exact ⟨ledger_killAll h, fun hg => by cases hg⟩
  | holderUpgrade pin =>
    cases exec with
    | done => exact .of_books (books_upgrade h)
    | failed => exact .of_books (books_serveResumed h)
    | stopped => exact .of_books h
  | brainEof =>
    cases hd : v.serving.holder.armedDeploy with
    | none => exact .of_books (by simpa [hd, down] using h)
    | some d =>
      simp only [hd]
      exact kept_fire h
  | wedged reason => exact .of_books (by simpa [down] using books_disarm h)
  | protocol reason => exact .of_books (by simpa [down] using books_disarm h)
  | helloTimeout => exact .of_books (by simpa [down] using h)
  | helloRefused => exact .of_books (by simpa [down] using h)

/-- One action keeps the history and the records true. -/
theorem kept_step {v v' : Supervisor} (h : v.Kept) {a : Action} (hstep : v.step a = some v') :
    v'.Kept := by
  cases a with
  | retryPin pin =>
    simp only [step] at hstep
    split at hstep
    · cases hstep
    · rename_i hcond
      have hb := h.2 (by simpa using (not_or.mp hcond).1)
      cases pin <;> cases hstep <;> exact .of_books hb
  | spawnFailed =>
    simp only [step] at hstep
    split at hstep
    · cases hstep
    · rename_i hcond
      have hb := h.2 (by simpa using (not_or.mp hcond).1)
      cases hstep
      refine .of_books ?_
      rw [applyFailure_serving]
      exact hb
  | startBrain now =>
    simp only [step] at hstep
    split at hstep
    · cases hstep
    · rename_i hcond
      have hb := h.2 (by simpa using (not_or.mp hcond).1)
      cases hstep
      exact .of_books (books_serve hb)
  | iterate p os exec =>
    simp only [step] at hstep
    split at hstep
    · cases hstep
    · rename_i hcond
      simp only [not_or, not_not] at hcond
      have hb := books_iterate hcond.2.2 (h.2 (by simpa using hcond.1))
      unfold after at hb
      cases hi : Holder.iterate p v.serving with
      | ok a s =>
        rw [hi] at hb hstep
        cases hstep
        exact .of_books hb
      | error outcome s =>
        rw [hi] at hb hstep
        cases hstep
        exact kept_onOutcome (v := { v with serving := s }) hb
  | childExit child status =>
    simp only [step] at hstep
    split at hstep
    · cases hstep
    · rename_i hcond
      cases hstep
      exact .of_books (books_childExit (h.2 (by simpa using hcond)))
  | shutdown =>
    simp only [step] at hstep
    split at hstep
    · cases hstep
    · rename_i hcond
      cases hstep
      exact ⟨ledger_killAll (h.2 (by simpa using (not_or.mp hcond).1)), fun hg => by cases hg⟩

theorem kept_run {v v' : Supervisor} (h : v.Kept) {actions : List Action}
    (hrun : v.run actions = some v') : v'.Kept := by
  induction actions generalizing v with
  | nil =>
    cases hrun
    exact h
  | cons a rest ih =>
    obtain ⟨w, hw, hrest⟩ := Option.bind_eq_some_iff.mp hrun
    exact ih (kept_step h hw) hrest

/-! ## Boot -/

/-- A process that just started: fresh, or migrated from a manifest that names each session
once. -/
inductive Boot : Supervisor → Prop where
  | fresh (cfg : HolderConfig) (pins : PinSet) : Boot (.fresh cfg pins)
  | migrated (cfg : HolderConfig) (pins : PinSet) (sessions : List MigratedSession)
      (listeners : List (ListenerMeta × Fd)) (now : Nat)
      (distinct : (sessions.map (·.uid)).Nodup) :
      Boot (.migrated cfg pins sessions listeners now)

theorem books_idle (cfg : HolderConfig) : Books (idle cfg).book where
  allowed := justified_nil
  answered := answered_nil
  outstanding _ hout := absurd hout not_open_nil
  records uid e he := by simp [idle, State.new, Serving.book] at he
  present _ _ _ _ hm := by cases hm
  minted _ _ _ _ hm := by cases hm
  reaped child := by simp [idle, Serving.book]
  zombie child status hz := by simp [idle, Serving.book] at hz
  unborn _ _ := rfl
  delivered _ hc := by cases hc

theorem adoptMigrated_sessions {s : Serving} {rec : MigratedSession} {uid : String}
    (hne : uid ≠ rec.uid) :
    (s.adoptMigrated rec).holder.sessions[uid]? = s.holder.sessions[uid]? := by
  simp [Serving.adoptMigrated, Serving.hold, Serving.mint, Serving.fork, Serving.setHolder,
    Serving.note, State.setSession, getElem?_insert_map, hne]

/-- The sessions of a manifest are adopted one by one. -/
theorem books_adoptMigrated {sessions : List MigratedSession} {s : Serving} (h : Books s.book)
    (hnodup : (sessions.map (·.uid)).Nodup)
    (hnone : ∀ rec ∈ sessions, s.holder.sessions[rec.uid]? = none) :
    Books (sessions.foldl Serving.adoptMigrated s).book := by
  induction sessions generalizing s with
  | nil => exact h
  | cons rec rest ih =>
    obtain ⟨hnot, hrest⟩ := List.nodup_cons.mp hnodup
    refine ih ?_ hrest fun r hr => ?_
    · exact h.hold (e := rec.entry s.kernel.forked s.holder.nextIncarnation)
        (hnone rec List.mem_cons_self) rfl rfl rfl rfl rfl
    · rw [adoptMigrated_sessions]
      · exact hnone r (List.mem_cons_of_mem _ hr)
      · intro heq
        exact hnot (List.mem_map.mpr ⟨r, hr, heq⟩)

/-- The listeners of a manifest are taken into custody, which changes nothing else. -/
theorem exists_storeListeners (listeners : List (ListenerMeta × Fd)) (h : State) :
    ∃ custody, listeners.foldl (fun h l => h.storeListenerCustody l.1 l.2) h
      = { h with listeners := custody } := by
  induction listeners generalizing h with
  | nil => exact ⟨h.listeners, rfl⟩
  | cons l rest ih => exact ih (h.storeListenerCustody l.1 l.2)

theorem kept_boot {v : Supervisor} (h : Boot v) : v.Kept := by
  cases h with
  | fresh cfg pins => exact .of_books (books_idle cfg)
  | migrated cfg pins sessions listeners now distinct =>
    have hb := books_adoptMigrated (books_idle cfg) distinct fun rec _ => by
      simp [idle, State.new]
    obtain ⟨custody, hcustody⟩ :=
      exists_storeListeners listeners (sessions.foldl Serving.adoptMigrated (idle cfg)).holder
    refine .of_books (books_serve ?_)
    rw [hcustody]
    exact hb

/-! ## What is accounted for -/

/-- What the exits of session children come to, in a process that ran. -/
structure Accounted (v : Supervisor) : Prop where
  /-- A wait status is consumed once. -/
  once : ∀ a child r b, v.serving.history = a ++ .consumed child r :: b →
    ∀ r', .consumed child r' ∉ a
  /-- The exit pipeline consumes under arm authorization. -/
  authorized : ∀ a child b, v.serving.history = a ++ .consumed child .exit :: b →
    ∃ uid incarnation, Authorized child uid incarnation a
  /-- What it consumes becomes an event of the child's record and status. -/
  becomes : ∀ child, .consumed child .exit ∈ v.serving.history →
    ∃ event : ExitEventBody, .pending child event ∈ v.serving.history ∧
      (∃ m, .held child event.uid event.incarnation m ∈ v.serving.history) ∧
      .exited child ⟨event.code, event.signal⟩ ∈ v.serving.history
  /-- The event stays pending until an `ack_exit` or an `abort_spawn` names its record. -/
  stays : v.gone = false → ∀ event, Outstanding event v.serving.history →
    ∃ e, v.serving.holder.sessions[event.uid]? = some e ∧ e.incarnation = event.incarnation ∧
      e.exit = some ⟨event.exitedAt, some event⟩
  /-- Each accepted `arm_reap` of the record queues it again. -/
  resent : ∀ a epoch (event : ExitEventBody) b,
    v.serving.history = a ++ .armed epoch event.uid event.incarnation :: b →
    Outstanding event a → ∃ c, b = .sent epoch event :: c
  /-- A generation that did not arm the record is sent nothing. -/
  notEarly : ∀ a epoch event b, v.serving.history = a ++ .sent epoch event :: b →
    .armed epoch event.uid event.incarnation ∈ a ∧ ∃ child, .pending child event ∈ a
  /-- A record is there until it is aborted or forgotten. -/
  present : v.gone = false → ∀ child uid incarnation m,
    .held child uid incarnation m ∈ v.serving.history →
    (∃ e, v.serving.holder.sessions[uid]? = some e ∧ e.incarnation = incarnation ∧
      e.pidfd.child = child) ∨
    .aborted uid incarnation ∈ v.serving.history ∨
    .forgotten uid incarnation ∈ v.serving.history
  /-- Only what was acknowledged is forgotten. -/
  forgotten : ∀ a uid incarnation b, v.serving.history = a ++ .forgotten uid incarnation :: b →
    ∃ child, AckedExit child uid incarnation a
  /-- Two children do not share a record's name. -/
  distinct : ∀ child child' uid incarnation m m',
    .held child uid incarnation m ∈ v.serving.history →
    .held child' uid incarnation m' ∈ v.serving.history → child = child'

theorem Kept.accounted {v : Supervisor} (h : v.Kept) : v.Accounted where
  once a child r b hl := (h.1.allowed a _ b hl).1
  authorized a child b hl := (h.1.allowed a _ b hl).2 rfl
  becomes child hc := by
    obtain ⟨event, hp⟩ := h.1.delivered child hc
    obtain ⟨a, b, hl, -, ⟨m, hm⟩, hexit, -⟩ := h.1.allowed.of_mem hp
    refine ⟨event, hp, ⟨m, ?_⟩, ?_⟩ <;> rw [hl]
    · exact List.mem_append_left _ hm
    · exact List.mem_append_left _ hexit
  stays hg event hout := (h.2 hg).outstanding event hout
  resent a epoch event b hl hout := h.1.answered a _ b _ hl ⟨epoch, event, rfl, rfl, hout⟩
  notEarly a epoch event b hl := h.1.allowed a _ b hl
  present hg := (h.2 hg).present
  forgotten a uid incarnation b hl := h.1.allowed a _ b hl
  distinct child child' uid incarnation m m' hm hm' :=
    (held_unique h.1.allowed hm hm' (.inr rfl)).1

/-- A system where every request goes well, descriptors being duplicated or not. -/
def sampleOs (dup : Bool) : Os where
  now := 0
  unixNow := 7
  spawn := .ok ⟨some 5, 6, 100, 1⟩
  dup _ := dup
  sendSignal := .ok true
  memoryEvents _ := none
  executable _ := true

/-- One poll that reads these frames. -/
def samplePoll (dup : Bool) (exited : List String) (requests : List Request) : Poll where
  result := .ready
  os := sampleOs dup
  shutdown := false
  exited := exited
  channel := .frames (requests.map fun r => .frame (sampleOs dup) ⟨r, some 1, []⟩) none
  flush := .flushed 0
  readerIdle := true

def sampleHello : Request := .hello (.ok ⟨1, 1, "brain"⟩)

def sampleSpawn : Request := .spawn (.ok ⟨"s", 0, ["sh"], [], none, 80, 24, none⟩)

/-- A spawn whose descriptors cannot be duplicated, and one whose exit is aborted before it is
acknowledged. -/
def sampleRun : List Action :=
  [.startBrain 0,
   .iterate (samplePoll false [] [sampleHello, sampleSpawn]) (sampleOs true) .done,
   .iterate (samplePoll true [] [sampleSpawn, .armReap (.ok ⟨"s", 2, none⟩)]) (sampleOs true) .done,
   .childExit 1 ⟨some 0, none⟩,
   .iterate (samplePoll true ["s"] []) (sampleOs true) .done,
   .iterate (samplePoll true [] [.abortSpawn (.ok ⟨"s", 2⟩)]) (sampleOs true) .done]

def sampleEvent : ExitEventBody := ⟨"s", 2, some 0, none, 7, none, none⟩

theorem sampleRun_history :
    ((fresh .default ⟨some 3, none⟩).run sampleRun).map
      (fun v => (v.serving.history, v.gone, v.serving.holder.sessions.keys)) =
    some ([.consumed 0 .failedSpawn, .held 1 "s" 2 false, .armed 1 "s" 2,
      .exited 1 ⟨some 0, none⟩, .consumed 1 .exit, .pending 1 sampleEvent, .sent 1 sampleEvent,
      .aborted "s" 2], false, []) := by
  decide

end Supervisor

end Holder
