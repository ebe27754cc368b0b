import ClaudeManager.Holder.Deploys
import ClaudeManager.Holder.Generations

/-!
# Deploys over whole runs

Whatever the supervisor does between two serve calls, a deploy is carried out by the generation
that armed it or dropped, so long as no generation is killed with something left behind.
-/

namespace Holder

open Json Containers Program

namespace Supervisor

/-! ## Runs -/

/-- Killing the brain leaves nothing of its deploy behind. -/
def KillSafe (outcome : ServeOutcome) (s : Serving) : Prop :=
  match outcome with
  | .helloTimeout | .helloRefused => s.holder.armedDeploy = none
  | .wedged _ | .protocol _ => Undelayed s
  | _ => True

/-- Where the action ends in killing the brain, the kill is safe. -/
def KillsSafely (v : Supervisor) : Action → Prop
  | .iterate p _ _ =>
    match Holder.iterate p v.serving with
    | .ok _ _ => True
    | .error outcome s => KillSafe outcome s
  | _ => True

/-- Each action of the run that ends in killing the brain is safe. -/
def AlwaysKillsSafely (v : Supervisor) : List Action → Prop
  | [] => True
  | a :: rest =>
    v.KillsSafely a ∧
      match v.step a with
      | some v' => v'.AlwaysKillsSafely rest
      | none => True

/-- What holds of deploys between two actions. -/
structure Orderly (v : Supervisor) : Prop where
  allowed : Justified DeployAllowed v.serving.history
  deploys : v.gone = false → Deploys v.serving
  idle : v.gone = false → v.live = none → v.serving.holder.armedDeploy = none

theorem Orderly.of_down {v : Supervisor} (h : Deploys v.serving)
    (hunarmed : v.serving.holder.armedDeploy = none) : v.Orderly :=
  ⟨h.allowed, fun _ => h, fun _ _ => hunarmed⟩

theorem Orderly.of_live {v : Supervisor} (h : Deploys v.serving) (hlive : v.live.isSome) :
    v.Orderly :=
  ⟨h.allowed, fun _ => h, fun _ hn => by simp [hn] at hlive⟩

theorem Orderly.of_gone {v : Supervisor} (h : Justified DeployAllowed v.serving.history)
    (hgone : v.gone = true) : v.Orderly :=
  ⟨h, fun hg => by simp [hgone] at hg, fun hg => by simp [hgone] at hg⟩

/-- Shutting down waits for children and is no deploy. -/
theorem killAll_allowed {s : Serving} (h : Justified DeployAllowed s.history) :
    Justified DeployAllowed (killAll s).history := by
  have hfold : ∀ (l : List (String × SessionEntry)) (t : Serving),
      Justified DeployAllowed t.history →
      Justified DeployAllowed (l.foldl (fun s entry => if entry.2.exit.isNone then
        s.reap entry.2.pidfd.child .shutdown else s) t).history := by
    intro l
    induction l with
    | nil => exact fun t ht => ht
    | cons entry l ih =>
      intro t ht
      rw [List.foldl_cons]
      refine ih _ ?_
      split
      · unfold Serving.reap
        split
        · exact ht
        · exact justified_concat.mpr ⟨ht, trivial⟩
      · exact ht
  exact hfold _ _ h

/-- A new generation starts with nothing armed. -/
theorem deploys_serve {h : State} {kernel : Kernel} {history : List Happening} {now : Nat}
    (hallowed : Justified DeployAllowed history) (hunsettled : ¬ Unsettled history)
    (hunarmed : h.armedDeploy = none)
    (hundelayed : ∀ (uid : String) (e : SessionEntry), h.sessions[uid]? = some e → ¬ e.delayed) :
    Deploys (serve h kernel history now) where
  allowed := hallowed
  armed d at' hd := by simp [serve, State.newGeneration, State.serveReset, hunarmed] at hd
  unarmed _ := hunsettled
  exclusive hs := by simp [serve, State.newGeneration, State.serveReset, hunarmed] at hs
  greeted _ := hunarmed
  prompt uid e' he' hd' := by
    have hget : (serve h kernel history now).holder.sessions[uid]?
        = h.sessions[uid]?.map fun e => { e with deliveryReady := false } :=
      Std.ExtTreeMap.getElem?_map
    obtain ⟨e, he, rfl⟩ := Option.map_eq_some_iff.mp (hget.symm.trans he')
    exact absurd hd' (hundelayed uid e he)

/-- A generation that goes on under another holder. -/
theorem deploys_resumed {s : Serving} {h : State} {now : Nat} (hs : Deploys s)
    (hunarmed : s.holder.armedDeploy = none) (hnone : h.armedDeploy = none)
    (hof : ∀ (uid : String) (e' : SessionEntry), h.sessions[uid]? = some e' → e'.delayed →
      ∃ e : SessionEntry, s.holder.sessions[uid]? = some e ∧ e.delayed) :
    Deploys (serveResumed h s.kernel s.history now) where
  allowed := hs.allowed
  armed d at' hd := by simp [serveResumed, State.serveReset, hnone] at hd
  unarmed _ := hs.unarmed hunarmed
  exclusive hsome := by simp [serveResumed, State.serveReset, hnone] at hsome
  greeted _ := hnone
  prompt uid e' he' hd' := by
    obtain ⟨e, he, hd⟩ := hof uid e' he' hd'
    exact absurd hd (hs.undelayed hunarmed uid e he)

theorem delayed_restored {s : Serving} (uid : String) (e' : SessionEntry)
    (he' : (restoreFromUpgrade s.holder.cfg s.holder.upgradeSnapshot).sessions[uid]? = some e')
    (hd' : e'.delayed) : ∃ e : SessionEntry, s.holder.sessions[uid]? = some e ∧ e.delayed := by
  have hget : (restoreFromUpgrade s.holder.cfg s.holder.upgradeSnapshot).sessions[uid]?
      = s.holder.sessions[uid]?.map fun e => (e.snapshot uid).restore := by
    simp only [restoreFromUpgrade, State.upgradeSnapshot, List.map_map]
    exact getElem?_ofList_toList (f := fun uid e => (SessionEntry.snapshot uid e).restore)
  obtain ⟨e, he, rfl⟩ := Option.map_eq_some_iff.mp (hget.symm.trans he')
  refine ⟨e, he, hd'.1, hd'.2.1, ?_⟩
  rw [← restore_snapshot_exit uid e]
  exact hd'.2.2

/-- The deploy is carried out on the exit of the generation that armed it. -/
theorem orderly_fire {v : Supervisor} {deploy : ArmedDeploy} {armedAt : Nat} {os : Os}
    {polledAt : Nat} {exec : ExecResult} (h : InPass polledAt v.serving)
    (harmed : v.serving.holder.armedDeploy = some (deploy, armedAt)) :
    (v.fire deploy os polledAt exec).Orderly := by
  have hlog : DeployLog ((v.serving.setHolder { v.serving.holder with armedDeploy := none }).note
      (.deployFired v.serving.holder.epoch polledAt)) :=
    { allowed := justified_concat.mpr ⟨h.allowed, armedAt, h.armed _ _ harmed, h.timely _ _ harmed⟩
      armed := fun _ _ hd => by cases hd
      unarmed := fun _ hun => by
        rcases open_concat.mp hun with ⟨_, _, heq⟩ | ⟨-, hclose⟩
        · cases heq
        · exact hclose rfl
      exclusive := fun hs => by cases hs
      greeted := fun _ => rfl }
  have hundelayed : deploy.isSplitRollback = false → Undelayed v.serving := by
    intro hno uid e he hd
    have := h.prompt uid e he hd
    simp [State.splitRollbackArmed, harmed, hno] at this
  unfold fire
  cases deploy with
  | newPin pin =>
    exact .of_down ⟨hlog, fun uid e he hd => absurd hd (hundelayed rfl uid e he)⟩ rfl
  | usePrevious =>
    exact .of_down ⟨hlog, fun uid e he hd => absurd hd (hundelayed rfl uid e he)⟩ rfl
  | splitRollback pin generation version =>
    cases exec with
    | failed =>
      refine .of_down (@deploys_swept _ polledAt _ hlog rfl).toDeploys ?_
      exact (@tame_sweepLatchedExits os _).armed
    | done => exact .of_gone hlog.allowed rfl
    | stopped => exact .of_gone hlog.allowed rfl

@[simp] theorem applyFailure_live {v : Supervisor} {ranFor : Nat} {helloed : Bool} :
    (v.applyFailure ranFor helloed).gone = v.gone ∧
      (v.applyFailure ranFor helloed).live = v.live := by
  unfold applyFailure
  cases h : v.breaker.noteFailure ranFor helloed v.pins.previous.isSome with
  | mk decision breaker => cases decision <;> exact ⟨rfl, rfl⟩

theorem Orderly.applyFailure {v : Supervisor} (h : v.Orderly) {ranFor : Nat} {helloed : Bool} :
    (v.applyFailure ranFor helloed).Orderly where
  allowed := by
    rw [applyFailure_serving]
    exact h.allowed
  deploys hg := by
    rw [applyFailure_serving]
    exact h.deploys (applyFailure_live.1 ▸ hg)
  idle hg hl := by
    rw [applyFailure_serving]
    exact h.idle (applyFailure_live.1 ▸ hg) (applyFailure_live.2 ▸ hl)

/-- A killed generation's deploy is dropped. -/
theorem orderly_disarm {v : Supervisor} {s : Serving} (h : Deploys s) (hsafe : Undelayed s) :
    (v.down s.disarm).Orderly := by
  refine .of_down ⟨deployLog_disarm h.toDeployLog, fun uid e he hd => ?_⟩ disarm_armedDeploy
  have hsame : s.disarm.holder.sessions = s.holder.sessions := by
    unfold Serving.disarm
    split <;> rfl
  exact absurd hd (hsafe uid e (hsame ▸ he))

/-- The outcome of a serve call is acted on in good order. -/
theorem orderly_onOutcome {v : Supervisor} {p : Poll} {s t : Serving} {outcome : ServeOutcome}
    {os : Os} {exec : ExecResult} (hp : p.Sound s) (hs : Deploys s)
    (he : Holder.iterate p s = .error outcome t) (hsafe : KillSafe outcome t) :
    ({ v with serving := t }.onOutcome outcome os p.os.now exec).Orderly := by
  have ht : Deploys t := by
    rcases inPass_iterate hp hs with hpass | ⟨hsame, -⟩
    · exact after_error he ▸ hpass.toDeploys
    · rw [after_error he] at hsame
      exact hsame ▸ hs
  unfold onOutcome
  cases outcome with
  | shutdownRequested => exact .of_gone (killAll_allowed ht.allowed) rfl
  | holderUpgrade pin =>
    have hunarmed := upgrade_unarmed hp hs he
    cases exec with
    | done => exact .of_live (deploys_resumed ht hunarmed rfl delayed_restored) rfl
    | failed => exact .of_live (deploys_resumed ht hunarmed hunarmed fun _ e he hd => ⟨e, he, hd⟩) rfl
    | stopped => exact .of_down ht hunarmed
  | brainEof =>
    have hpass : InPass p.os.now t := by
      rcases inPass_iterate hp hs with hpass | ⟨-, hout⟩
      · exact after_error he ▸ hpass
      · rcases hout _ _ he with h | ⟨_, h⟩ <;> cases h
    cases hd : t.holder.armedDeploy with
    | none =>
      simp only [hd]
      exact (Orderly.of_down (v := down _ t) ht hd).applyFailure
    | some d =>
      simp only [hd]
      exact orderly_fire (v := { v with serving := t }) hpass hd
  | wedged reason => exact (orderly_disarm ht hsafe).applyFailure
  | protocol reason => exact (orderly_disarm ht hsafe).applyFailure
  | helloTimeout => exact (Orderly.of_down (v := down _ t) ht hsafe).applyFailure
  | helloRefused => exact (Orderly.of_down (v := down _ t) ht hsafe).applyFailure

theorem calm_setStatus {s : Serving} (breaker : String) (previous : Bool) :
    Calm s (s.setHolder (s.holder.setSupervisorStatus breaker previous)) :=
  calm_of_same rfl rfl (.inl rfl) rfl id rfl rfl

/-- One action keeps deploys in order, if the kill it may end in is safe. -/
theorem orderly_step {v v' : Supervisor} (h : v.Orderly) {a : Action}
    (hstep : v.step a = some v') (hsafe : v.KillsSafely a) : v'.Orderly := by
  cases a with
  | retryPin pin =>
    simp only [step] at hstep
    split at hstep
    · cases hstep
    · rename_i hcond
      simp only [not_or, Bool.not_eq_true] at hcond
      have ht := (h.deploys hcond.1).tame (calm_setStatus "held_down" v.pins.previous.isSome).toTame
      have hidle := h.idle hcond.1 (by simpa using hcond.2.1)
      cases pin <;> cases hstep <;> exact .of_down ht hidle
  | spawnFailed =>
    simp only [step] at hstep
    split at hstep
    · cases hstep
    · rename_i hcond
      simp only [not_or, Bool.not_eq_true] at hcond
      have ht := (h.deploys hcond.1).tame (calm_setStatus "running" v.pins.previous.isSome).toTame
      cases hstep
      exact (Orderly.of_down (v := { v with serving := _ }) ht
        (h.idle hcond.1 (by simpa using hcond.2.1))).applyFailure
  | startBrain now =>
    simp only [step] at hstep
    split at hstep
    · cases hstep
    · rename_i hcond
      simp only [not_or, Bool.not_eq_true] at hcond
      have hd := h.deploys hcond.1
      have hidle := h.idle hcond.1 (by simpa using hcond.2.1)
      cases hstep
      exact .of_live (deploys_serve hd.allowed (hd.unarmed hidle) hidle (hd.undelayed hidle)) rfl
  | iterate p os exec =>
    simp only [step] at hstep
    split at hstep
    · cases hstep
    · rename_i hcond
      simp only [not_or, not_not, Bool.not_eq_true] at hcond
      have hd := h.deploys hcond.1
      cases hi : Holder.iterate p v.serving with
      | ok a s =>
        rw [hi] at hstep
        cases hstep
        refine .of_live ?_ (by simpa [Option.isSome_iff_ne_none] using hcond.2.1)
        rcases inPass_iterate hcond.2.2 hd with hpass | ⟨hsame, -⟩
        · exact after_ok hi ▸ hpass.toDeploys
        · rw [after_ok hi] at hsame
          exact hsame ▸ hd
      | error outcome s =>
        rw [hi] at hstep
        cases hstep
        simp only [KillsSafely, hi] at hsafe
        exact orderly_onOutcome hcond.2.2 hd hi hsafe
  | childExit child status =>
    simp only [step] at hstep
    split at hstep
    · cases hstep
    · rename_i hcond
      simp only [Bool.not_eq_true] at hcond
      cases hstep
      have ht := (h.deploys hcond).tame (@calm_childExit _ child status).toTame
      exact ⟨ht.allowed, fun _ => ht, fun _ hl => (calm_childExit.armed).trans (h.idle hcond hl)⟩
  | shutdown =>
    simp only [step] at hstep
    split at hstep
    · cases hstep
    · cases hstep
      exact .of_gone (killAll_allowed h.allowed) rfl

theorem orderly_run {v v' : Supervisor} (h : v.Orderly) {actions : List Action}
    (hrun : v.run actions = some v') (hsafe : v.AlwaysKillsSafely actions) : v'.Orderly := by
  induction actions generalizing v with
  | nil =>
    cases hrun
    exact h
  | cons a rest ih =>
    obtain ⟨w, hw, hrest⟩ := Option.bind_eq_some_iff.mp hrun
    obtain ⟨hkill, hsafe⟩ := hsafe
    rw [hw] at hsafe
    exact ih (orderly_step h hw hkill) hrest hsafe

/-! ## Boot -/

theorem deploys_idle (cfg : HolderConfig) : Deploys (idle cfg) where
  allowed := justified_nil
  armed _ _ hd := by cases hd
  unarmed _ := not_open_nil
  exclusive hs := by cases hs
  greeted _ := rfl
  prompt uid e he := by simp [idle, State.new] at he

theorem tame_adoptMigrated {s : Serving} {rec : MigratedSession} :
    Tame s (s.adoptMigrated rec) :=
  tame_fork.trans (tame_mint.trans (tame_hold fun hd => absurd hd.2.1 (by
    simp [MigratedSession.entry])))

theorem tame_adopted {sessions : List MigratedSession} {s : Serving} :
    Tame s (sessions.foldl Serving.adoptMigrated s) := by
  induction sessions generalizing s with
  | nil => exact .refl s
  | cons rec rest ih => exact tame_adoptMigrated.trans ih

/-- Nothing is armed at boot. -/
theorem boot_unarmed {v : Supervisor} (h : Boot v) : v.serving.holder.armedDeploy = none := by
  cases h with
  | fresh cfg pins => rfl
  | migrated cfg pins sessions listeners now distinct =>
    obtain ⟨custody, hcustody⟩ :=
      exists_storeListeners listeners (sessions.foldl Serving.adoptMigrated (idle cfg)).holder
    have hadopt : Tame (idle cfg) (sessions.foldl Serving.adoptMigrated (idle cfg)) := tame_adopted
    unfold Supervisor.migrated
    simp only [hcustody]
    exact hadopt.armed

theorem orderly_boot {v : Supervisor} (h : Boot v) : v.Orderly := by
  cases h with
  | fresh cfg pins => exact .of_down (deploys_idle cfg) rfl
  | migrated cfg pins sessions listeners now distinct =>
    obtain ⟨custody, hcustody⟩ :=
      exists_storeListeners listeners (sessions.foldl Serving.adoptMigrated (idle cfg)).holder
    have hadopt : Tame (idle cfg) (sessions.foldl Serving.adoptMigrated (idle cfg)) := tame_adopted
    have hunarmed : (sessions.foldl Serving.adoptMigrated (idle cfg)).holder.armedDeploy = none :=
      hadopt.armed
    have hd := (deploys_idle cfg).tame hadopt
    refine .of_live (deploys_serve hd.allowed (hd.unarmed hunarmed) ?_ fun uid e he => ?_) rfl
    · rw [hcustody]
      exact hunarmed
    · rw [hcustody] at he
      exact hd.undelayed hunarmed uid e he

/-! ## What holds of deploys -/

/-- What deploys come to, in a process that ran. -/
structure DeploysSound (v : Supervisor) : Prop where
  /-- A deploy is carried out on the exit of the generation that armed it, within its horizon. -/
  fires : ∀ a epoch polledAt b, v.serving.history = a ++ .deployFired epoch polledAt :: b →
    ∃ armedAt c d, a = c ++ .deployArmed epoch armedAt :: d ∧ (∀ x ∈ d, ¬ x.isDeploy) ∧
      polledAt < armedAt + armAutoDisarm
  /-- No deploy is armed over another. -/
  single : ∀ a epoch armedAt b, v.serving.history = a ++ .deployArmed epoch armedAt :: b →
    ¬ Unsettled a
  /-- A deploy and a holder upgrade are not under way together. -/
  exclusive : v.gone = false →
    ¬ (v.serving.holder.armedDeploy.isSome ∧ v.serving.holder.pendingUpgrade.isSome)
  /-- What is armed was armed by the generation that is served. -/
  own : v.gone = false → ∀ d armedAt, v.serving.holder.armedDeploy = some (d, armedAt) →
    v.live.isSome ∧ ArmedSince v.serving.holder.epoch armedAt v.serving.history
  /-- The exit of an armed record is delayed only by a reverse migration that this generation
  armed. -/
  prompt : v.gone = false → ∀ (uid : String) (e : SessionEntry),
    v.serving.holder.sessions[uid]? = some e → e.delayed →
    ∃ d armedAt, v.serving.holder.armedDeploy = some (d, armedAt) ∧ d.isSplitRollback ∧
      ArmedSince v.serving.holder.epoch armedAt v.serving.history

theorem Orderly.sound {v : Supervisor} (h : v.Orderly) : v.DeploysSound where
  fires a epoch polledAt b hl := by
    obtain ⟨armedAt, ⟨c, x, d, rfl, rfl, hd⟩, hpolled⟩ := h.allowed a _ b hl
    exact ⟨armedAt, c, d, rfl, hd, hpolled⟩
  single a epoch armedAt b hl := h.allowed a _ b hl
  exclusive hg hboth := by
    have := (h.deploys hg).exclusive hboth.1
    simp [this] at hboth
  own hg d armedAt hd := by
    refine ⟨?_, (h.deploys hg).armed d armedAt hd⟩
    by_contra hl
    rw [h.idle hg (by simpa using hl)] at hd
    cases hd
  prompt hg uid e he hd := by
    have hsplit := (h.deploys hg).prompt uid e he hd
    obtain ⟨⟨d, armedAt⟩, harmed, hd⟩ := (Option.any_eq_true _ _).mp hsplit
    exact ⟨d, armedAt, harmed, hd, (h.deploys hg).armed d armedAt harmed⟩

/-- Over any run from a boot whose kills are safe, no stale deploy is carried out. -/
theorem no_stale_deploy {v v' : Supervisor} (hboot : Boot v) {actions : List Action}
    (hrun : v.run actions = some v') (hsafe : v.AlwaysKillsSafely actions) : v'.DeploysSound :=
  (orderly_run (orderly_boot hboot) hrun hsafe).sound

/-- A poll of the sample system at an instant, with what is read and flushed. -/
def samplePollAt (now : Nat) (channel : ChannelRead) (flushed : Nat) : Poll :=
  { samplePoll true [] [] with
    os := { sampleOs true with now := now }
    channel := channel
    flush := .flushed flushed }

/-- One frame with one descriptor. -/
def sampleRead (now : Nat) (requests : List (Request × List Fd)) : ChannelRead :=
  .frames (requests.map fun r => .frame { sampleOs true with now := now } ⟨r.1, some 1, r.2⟩) none

/-- A holder upgrade fails, the resumed brain arms a deploy and is killed for want of an answer to
`rehello`; the next brain exits. -/
def staleRun : List Action :=
  [.startBrain 0,
   .iterate (samplePollAt 0 (sampleRead 0 [(sampleHello, []), (.reexecHolder, [9])]) 2)
     (sampleOs true) .failed,
   .iterate (samplePollAt 29000 (sampleRead 29000 [(.restartBrain, [10])]) 2) (sampleOs true) .done,
   .iterate (samplePollAt 30001 .notReady 0) (sampleOs true) .done,
   .startBrain 30002,
   .iterate (samplePollAt 31000 .eof 0) (sampleOs true) .done]

/-- The deploy that one generation armed is carried out on the exit of the next one. -/
theorem stale_deploy_fires : ∃ v', (fresh .default ⟨some 3, none⟩).run staleRun = some v' ∧
    v'.serving.history = [.deployArmed 1 29000, .deployFired 2 31000] ∧
    v'.pins.current = some 10 ∧ ¬ v'.DeploysSound := by
  have hrun : ((fresh .default ⟨some 3, none⟩).run staleRun).map
      (fun v => (v.serving.history, v.pins.current)) =
      some ([.deployArmed 1 29000, .deployFired 2 31000], some 10) := by
    decide
  obtain ⟨v', hrun, hv⟩ := Option.map_eq_some_iff.mp hrun
  simp only [Prod.mk.injEq] at hv
  refine ⟨v', hrun, hv.1, hv.2, fun h => ?_⟩
  obtain ⟨armedAt, c, d, hl, -, -⟩ := h.fires [.deployArmed 1 29000] 2 31000 [] hv.1
  have hmem : Happening.deployArmed 2 armedAt ∈ [Happening.deployArmed 1 29000] := by simp [hl]
  simp at hmem

/-- A brain is restarted by the generation that asked for it. -/
def restartRun : List Action :=
  [.startBrain 0,
   .iterate (samplePollAt 0 (sampleRead 0 [(sampleHello, []), (.restartBrain, [10])]) 2)
     (sampleOs true) .done,
   .iterate (samplePollAt 100 .eof 0) (sampleOs true) .done]

theorem no_stale_deploy_restart : ∃ v', (fresh .default ⟨some 3, none⟩).run restartRun = some v' ∧
    .deployFired 1 100 ∈ v'.serving.history ∧ v'.DeploysSound := by
  have hrun : ((fresh .default ⟨some 3, none⟩).run restartRun).map (·.serving.history) =
      some [.deployArmed 1 0, .deployFired 1 100] := by
    decide
  obtain ⟨v', hrun, hv⟩ := Option.map_eq_some_iff.mp hrun
  refine ⟨v', hrun, by rw [hv]; decide, no_stale_deploy (.fresh _ _) hrun ?_⟩
  exact ⟨trivial, trivial, trivial, trivial⟩

end Supervisor

end Holder
