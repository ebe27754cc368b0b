import ClaudeManager.Holder.DeployRuns
import ClaudeManager.Holder.RollbackManifest

/-!
# Armed reverse migrations

While a `split_rollback` is armed no wait status may be consumed and every session must stay
projectable. The holder serves other verbs meanwhile; `SplitSafe` says which of them leave that
so.
-/

namespace Holder

open Json Containers Program

/-! ## The invariant -/

/-- The armed reverse migration can be carried out, nothing having been consumed since it was
accepted. -/
structure Drained (s : Serving) : Prop where
  since : ∃ d armedAt epoch a l, s.holder.armedDeploy = some (d, armedAt) ∧
    s.history = a ++ .deployArmed epoch armedAt :: l ∧ ∀ x ∈ l, x.isCalm
  live : ∀ (uid : String) (e : SessionEntry), s.holder.sessions[uid]? = some e →
    e.exit = none ∧ Projects uid e
  listener : ∃ l ∈ s.holder.listeners, l.1.kind = "unix"

/-- A reverse migration is armed only where it can be carried out. -/
def Ready (s : Serving) : Prop := s.holder.splitRollbackArmed → Drained s

theorem Drained.calm {s t : Serving} (h : Drained s) (hc : Calm s t) : Drained t where
  since := by
    obtain ⟨d, armedAt, epoch, a, l, harmed, hhist, hcalm⟩ := h.since
    obtain ⟨l', hl', hcalm'⟩ := hc.calm
    refine ⟨d, armedAt, epoch, a, l ++ l', hc.armed.trans harmed, by rw [hl', hhist]; simp, ?_⟩
    exact fun x hx => (List.mem_append.mp hx).elim (hcalm x) (hcalm' x)
  live uid e' he' := by
    obtain ⟨e, he, hr⟩ := hc.sessions uid e' he'
    obtain ⟨hexit, r, hproj⟩ := h.live uid e he
    exact ⟨hr.exit hexit, r, (rollbackSession_retains hr).trans hproj⟩
  listener := hc.listeners "unix" h.listener

theorem Ready.calm {s t : Serving} (h : Ready s) (hc : Calm s t) : Ready t := fun ht =>
  (h (hc.splitRollbackArmed ▸ ht)).calm hc

/-- Without an armed reverse migration there is nothing to keep. -/
theorem Ready.of_unarmed {s : Serving} (h : ¬ s.holder.splitRollbackArmed) : Ready s := fun hs =>
  absurd hs h

theorem ready_of_none {s : Serving} (h : s.holder.armedDeploy = none) : Ready s :=
  .of_unarmed (by simp [State.splitRollbackArmed, h])

theorem Ready.tame {s t : Serving} (hs : ¬ s.holder.splitRollbackArmed) (ht : Tame s t) : Ready t :=
  .of_unarmed (ht.splitRollbackArmed ▸ hs)

theorem Evolves.ready {α : Type} {m : Serve α} {s : Serving} (h : Evolves Calm m s) :
    Evolves (Keeps Ready) m s := fun hs => hs.calm h

/-! ## Safe requests -/

/-- The spawn fails without a fork. -/
def SpawnError.beforeFork : SpawnError → Bool
  | .postSpawn _ => false
  | _ => true

/-- All sessions can be handed over, with a unix listener. -/
def State.Projectable (h : State) : Prop :=
  (∀ entry ∈ h.sessions.toList, Projects entry.1 entry.2) ∧ ∃ l ∈ h.listeners, l.1.kind = "unix"

instance (h : State) : Decidable h.Projectable := inferInstanceAs (Decidable (_ ∧ _))

/-- What a request must not do: while a reverse migration is armed, fork a child, arm a record
whose exit is latched, abort a record, or store a blob that does not project; and arm one where
the sessions do not project. -/
def Request.SplitSafe (r : Request) (os : Os) (h : State) : Prop :=
  match r with
  | .spawn (.ok spec) => h.splitRollbackArmed →
    h.sessions[spec.uid]?.isSome ∨ spec.argv.isEmpty ∨ ∃ e, os.spawn = .error e ∧ e.beforeFork
  | .armReap (.ok body) => h.splitRollbackArmed →
    ∀ e, h.record? body.uid body.incarnation = some e → ¬ e.exitLatched
  | .abortSpawn (.ok body) => h.splitRollbackArmed → h.record? body.uid body.incarnation = none
  | .rollbackRecord (.ok body) => h.splitRollbackArmed →
    ∀ e, h.record? body.uid body.incarnation = some e →
      Projects body.uid { e with rollbackRecord := some body.record }
  | .splitRollback (.ok _) => h.deployConflict = none → h.drainViolations = [] → h.Projectable
  | _ => True

section Verbs

variable {s : Serving} {os : Os} {reqId : Nat}

theorem ready_push {f : OutFrame} : Evolves (Keeps Ready) (pushFrame f) s :=
  Evolves.ready calm_push

/-- A spawn that fails before the fork leaves the state as it was. -/
theorem doSpawn_early {spec : SpawnBody}
    (h : spec.argv.isEmpty ∨ ∃ e, os.spawn = .error e ∧ e.beforeFork) :
    ∃ e, doSpawn os spec s = .ok (.error e) s := by
  unfold doSpawn
  split
  · exact ⟨_, rfl⟩
  · rename_i hargv
    obtain ⟨err, hspawn, hfork⟩ := h.resolve_left hargv
    rw [hspawn]
    cases err with
    | postSpawn e => cases hfork
    | emptyArgv => exact ⟨_, rfl⟩
    | openpty e => exact ⟨_, rfl⟩
    | exec e => exact ⟨_, rfl⟩

theorem ready_spawn {body : Except String SpawnBody}
    (hsafe : (Request.spawn body).SplitSafe os s.holder) :
    Evolves (Keeps Ready) (handleSpawn os reqId body) s := by
  by_cases harmed : s.holder.splitRollbackArmed
  · refine Evolves.withBodyOf (fun _ => ready_push) fun spec hbody => Evolves.bind_get ?_
    subst hbody
    cases he : s.holder.sessions[spec.uid]? with
    | some existing => exact ready_push
    | none =>
      have hearly := (hsafe harmed).resolve_left (by simp [he])
      obtain ⟨e, hok⟩ := doSpawn_early (s := s) hearly
      refine Evolves.bind (Evolves.refl_of (after_ok hok)) fun a s' ha => ?_
      rw [hok] at ha
      cases ha
      exact ready_push
  · exact fun _ => .tame harmed tame_spawn

theorem ready_armReap {body : Except String ArmReapBody}
    (hsafe : (Request.armReap body).SplitSafe os s.holder) :
    Evolves (Keeps Ready) (handleArmReap os reqId body) s := by
  by_cases harmed : s.holder.splitRollbackArmed
  · refine Evolves.withBodyOf (fun _ => ready_push) fun body hbody => ?_
    subst hbody
    refine Evolves.bind_get (Evolves.assuming fun hready => ?_)
    cases he : s.holder.sessions[body.uid]? with
    | none => exact ready_push
    | some e =>
      refine Evolves.ite (fun _ => ready_push) fun hinc => ?_
      simp only [ne_eq, not_not] at hinc
      have hlatched := hsafe harmed e (record?_eq_some.mpr ⟨he, hinc⟩)
      have hexit := ((hready harmed).live body.uid e he).1
      have harm : Calm s (s.arm body.uid (e.armedBy body)) :=
        @Calm.of_insert _ _ [.armed s.holder.epoch body.uid e.incarnation] _ e (e.armedBy body) he
          ⟨id, rfl, rfl, rfl, rfl, rfl⟩ (fun hd => absurd hd.2.1 hlatched) rfl rfl rfl
          (by simp [Happening.isCalm])
      refine Evolves.bind_modify (fun h => h.calm harm) (Evolves.bind ready_push fun _ s' _ => ?_)
      rw [if_neg fun hl => hlatched hl.1]
      simp only [SessionEntry.armedBy, hexit, Option.bind_none]
      exact Evolves.pure
  · exact fun _ => .tame harmed tame_armReap

theorem ready_abortSpawn {body : Except String RecordBody}
    (hsafe : (Request.abortSpawn body).SplitSafe os s.holder) :
    Evolves (Keeps Ready) (handleAbortSpawn reqId body) s := by
  by_cases harmed : s.holder.splitRollbackArmed
  · refine Evolves.withBodyOf (fun _ => ready_push) fun body hbody => Evolves.bind_get ?_
    subst hbody
    rw [hsafe harmed]
    exact ready_push
  · exact fun _ => .tame harmed tame_abortSpawn

theorem ready_rollbackRecord {body : Except String RollbackRecordBody}
    (hsafe : (Request.rollbackRecord body).SplitSafe os s.holder) :
    Evolves (Keeps Ready) (handleRollbackRecord reqId body) s := by
  by_cases harmed : s.holder.splitRollbackArmed
  · refine Evolves.withBodyOf (fun _ => ready_push) fun body hbody => ?_
    subst hbody
    refine Evolves.bind_get (Evolves.assuming fun hready => ?_)
    cases he : s.holder.sessions[body.uid]? with
    | none => exact ready_push
    | some e =>
      refine Evolves.ite (fun _ => ready_push) fun hinc => ?_
      simp only [ne_eq, not_not] at hinc
      have hproj := hsafe harmed e (record?_eq_some.mpr ⟨he, hinc⟩)
      have hdrained := hready harmed
      refine Evolves.bind_modify (fun _ _ => ⟨hdrained.since, fun u o ho => ?_,
        hdrained.listener⟩) ready_push
      simp only [Serving.rewrite, Serving.setHolder, State.setSession, getElem?_insert_map] at ho
      split at ho
      · rename_i hu
        cases ho
        subst hu
        exact ⟨(hdrained.live body.uid e he).1, hproj⟩
      · exact hdrained.live u o ho
  · exact fun _ => .tame harmed tame_rollbackRecord

/-! ### Deploy verbs -/

/-- Drained sessions live. -/
theorem exit_none_of_drained {h : State} (hv : h.drainViolations = []) {uid : String}
    {e : SessionEntry} (he : h.sessions[uid]? = some e) : e.exit = none := by
  have hnone := List.filterMap_eq_nil_iff.mp hv (uid, e) (mem_toList_map.mpr he)
  unfold drainViolation at hnone
  cases hx : e.exit with
  | none => rfl
  | some x =>
    simp only [hx] at hnone
    split at hnone <;> cases hnone

/-- Another deploy is armed only where no reverse migration is. -/
theorem ready_armOther {deploy : ArmedDeploy} (hother : deploy.isSplitRollback = false) {now : Nat} :
    Keeps Ready s (s.armDeploy deploy now) := fun _ =>
  .of_unarmed (by simp [Serving.armDeploy, Serving.setHolder, Serving.note,
    State.splitRollbackArmed, hother])

theorem ready_restartBrain {fds : List Fd} :
    Evolves (Keeps Ready) (handleRestartBrain os reqId fds) s := by
  refine Evolves.unlessConflictOf (fun _ => ready_push) fun _ => ?_
  match fds with
  | [] => exact Evolves.throw
  | _ :: _ :: _ => exact Evolves.throw
  | [pin] => exact Evolves.bind_modify (ready_armOther rfl) ready_push

theorem ready_rollbackBrain : Evolves (Keeps Ready) (handleRollbackBrain os reqId) s :=
  Evolves.unlessConflictOf (fun _ => ready_push) fun _ => Evolves.bind_get (Evolves.ite
    (fun _ => Evolves.bind_modify (ready_armOther rfl) ready_push) fun _ => ready_push)

/-- An accepted reverse migration can be carried out. -/
theorem ready_splitRollback {body : Except String SplitRollbackBody} {fds : List Fd}
    (hsafe : (Request.splitRollback body).SplitSafe os s.holder) :
    Evolves (Keeps Ready) (handleSplitRollback os reqId body fds) s := by
  match fds with
  | [] => exact Evolves.throw
  | _ :: _ :: _ => exact Evolves.throw
  | [pin] =>
    refine Evolves.unlessConflictOf (fun _ => ready_push) fun hfree => ?_
    refine Evolves.withBodyOf (fun _ => ready_push) fun body hbody => Evolves.bind_get ?_
    subst hbody
    refine Evolves.ite (fun hv => ?_) fun _ => ready_push
    have hdrained : s.holder.drainViolations = [] := by simpa using hv
    obtain ⟨hproj, hlistener⟩ := hsafe hfree hdrained
    refine Evolves.bind_modify (fun _ _ => ⟨?_, fun uid e he => ?_, hlistener⟩) ready_push
    · exact ⟨_, _, s.holder.epoch, s.history, [], rfl, rfl, by simp⟩
    · exact ⟨exit_none_of_drained hdrained he, hproj (uid, e) (mem_toList_map.mpr he)⟩

/-- A dropped deploy is not armed. -/
theorem ready_disarmed : Ready (after (sweepLatchedExits os) s.disarm) :=
  ready_of_none ((@tame_sweepLatchedExits os s.disarm).armed.trans disarm_armedDeploy)

theorem ready_cancelPending : Evolves (Keeps Ready) (handleCancelPending os reqId) s := by
  intro _
  unfold handleCancelPending
  rw [after_bind_get, after_bind_modify]
  exact Evolves.bind_keeps ready_disarmed (fun _ h => h) fun _ _ h => ready_push h

theorem ready_reexecHolder {fds : List Fd} :
    Evolves (Keeps Ready) (handleReexecHolder os reqId fds) s := by
  match fds with
  | [] => exact Evolves.throw
  | _ :: _ :: _ => exact Evolves.throw
  | [pin] =>
    refine Evolves.unlessConflictOf (fun _ => ready_push) fun hfree => ?_
    exact Evolves.ite (fun _ => Evolves.bind_modify (fun _ =>
      ready_of_none (deployConflict_none hfree).1) ready_push) fun _ => ready_push

/-! ## Frames -/

theorem ready_dispatchVerb {frame : Inbound} (hsafe : frame.request.SplitSafe os s.holder) :
    Evolves (Keeps Ready) (dispatchVerb os frame reqId) s := by
  unfold dispatchVerb
  cases hr : frame.request with
  | spawn body => exact ready_spawn (hr ▸ hsafe)
  | armReap body => exact ready_armReap (hr ▸ hsafe)
  | adopt => exact Evolves.ready calm_adopt
  | signal body => exact Evolves.ready calm_signal
  | abortSpawn body => exact @ready_abortSpawn _ os _ _ (hr ▸ hsafe)
  | updateCheckpoint body => exact Evolves.ready calm_updateCheckpoint
  | storeListener body => exact Evolves.ready calm_storeListener
  | restartBrain => exact ready_restartBrain
  | rollbackBrain => exact ready_rollbackBrain
  | cancelPending => exact ready_cancelPending
  | rollbackRecord body => exact @ready_rollbackRecord _ os _ _ (hr ▸ hsafe)
  | splitRollback body => exact ready_splitRollback (hr ▸ hsafe)
  | reexecHolder => exact ready_reexecHolder
  | forget body => exact Evolves.ready calm_forget
  | ackExit body => exact Evolves.ready calm_ackExit
  | status => exact Evolves.bind_get ready_push
  | hello body => exact Evolves.throw
  | pong => exact Evolves.pure
  | other v => exact ready_push

theorem ready_dispatch {frame : Inbound} (hsafe : frame.request.SplitSafe os s.holder) :
    Evolves (Keeps Ready) (dispatch os frame) s := by
  refine Evolves.bind_refuse fun _ => ?_
  split
  · exact Evolves.ready (Evolves.of_modify calm_pong)
  · exact Evolves.throw
  · refine Evolves.bind_get (Evolves.ite (fun _ => ?_) fun _ => ?_)
    · cases frame.request <;> first | exact Evolves.ready calm_hello | exact Evolves.throw
    · cases frame.rehelloReply? _ s.holder.rehelloPending with
      | some body => exact Evolves.ready calm_rehelloReply
      | none => exact ready_dispatchVerb hsafe

end Verbs

/-! ## The serve loop -/

/-- What is read is safe for the state it meets. -/
def Incoming.SplitSafe (s : Serving) : Incoming → Prop
  | .frame os f => f.request.SplitSafe os s.holder
  | .childExit .. => True

/-- Each of the frames is safe for the state the earlier ones left. -/
def FramesSplitSafe (s : Serving) : List Incoming → Prop
  | [] => True
  | i :: rest =>
    i.SplitSafe s ∧
      match receive i s with
      | .ok _ t => FramesSplitSafe t rest
      | .error .. => True

/-- The frames of a pass are safe. -/
def Poll.SplitSafe (p : Poll) (s : Serving) : Prop :=
  match beforeChannel p s with
  | .ok _ t => FramesSplitSafe t p.channel.incoming
  | .error .. => True

section Loop

variable {s : Serving} {os : Os}

theorem ready_receive {i : Incoming} (hsafe : i.SplitSafe s) :
    Evolves (Keeps Ready) (receive i) s := by
  cases i with
  | frame os frame => exact ready_dispatch hsafe
  | childExit child status => exact Evolves.ready (Evolves.of_modify calm_childExit)

theorem ready_forM_receive {incoming : List Incoming} (hsafe : FramesSplitSafe s incoming) :
    Evolves (Keeps Ready) (incoming.forM receive) s := by
  induction incoming generalizing s with
  | nil => exact Evolves.pure
  | cons i rest ih =>
    rw [List.forM_eq_forM, List.forM_cons]
    refine Evolves.bind (ready_receive hsafe.1) fun a t ha => ?_
    have hrest := hsafe.2
    rw [ha] at hrest
    exact ih hrest

theorem ready_readChannel {read : ChannelRead} (hsafe : FramesSplitSafe s read.incoming) :
    Evolves (Keeps Ready) (readChannel read) s := by
  cases read with
  | notReady => exact Evolves.pure
  | eof => exact Evolves.throw
  | violated reason => exact Evolves.throw
  | frames incoming violated =>
    refine Evolves.bind (ready_forM_receive hsafe) fun _ _ _ => ?_
    cases violated with
    | none => exact Evolves.pure
    | some reason => exact Evolves.throw

theorem ready_disarmTimer : Evolves (Keeps Ready) (disarmTimer os) s := by
  refine Evolves.bind_get (Evolves.onlyIf fun _ => ?_)
  exact fun _ => ready_disarmed

/-- While a reverse migration is armed, a reported exit is latched. -/
theorem ready_childExited {armed : Bool} {uid : String} :
    Evolves (Keeps fun t => Ready t ∧ t.holder.splitRollbackArmed = armed)
      (childExited os armed uid) s := by
  refine Evolves.bind_get ?_
  cases he : s.holder.sessions[uid]? with
  | none => exact Evolves.pure
  | some e =>
    refine Evolves.ite (fun hcond => ?_) fun _ => ?_
    · refine Evolves.of_modify fun ⟨_, harmed⟩ => ⟨.tame ?_ tame_consumedExit, ?_⟩
      · rw [harmed]
        exact hcond.2
      · rw [tame_consumedExit.splitRollbackArmed, harmed]
    · refine Evolves.of_modify fun ⟨h, harmed⟩ => ⟨fun hs => ?_, harmed⟩
      have hdrained := h hs
      refine ⟨hdrained.since, fun u o ho => ?_, hdrained.listener⟩
      obtain ⟨o', ho', hr⟩ := @retains_insert _ _ e { e with exitLatched := true } he
        ⟨id, rfl, rfl, rfl, rfl, rfl⟩ u o ho
      obtain ⟨hexit, r, hproj⟩ := hdrained.live u o' ho'
      exact ⟨hr.exit hexit, r, (rollbackSession_retains hr).trans hproj⟩

theorem ready_childExits {polled exited : List String} :
    Evolves (Keeps Ready) (childExits os polled exited) s := by
  intro h
  exact (Evolves.forM (fun uid _ t => @ready_childExited _ os _ uid) s ⟨h, rfl⟩).1

theorem ready_beforeChannel {p : Poll} : Evolves (Keeps Ready) (beforeChannel p) s :=
  Evolves.bind_get (Evolves.bind (Evolves.ready calm_handshakeTimer) fun _ _ _ =>
    Evolves.bind ready_disarmTimer fun _ _ _ =>
    Evolves.bind (Evolves.ready calm_pingTimer) fun _ _ _ =>
    Evolves.bind_refuse fun _ => ready_childExits)

/-- One pass of the serve loop. -/
theorem ready_iterate {p : Poll} (hsafe : p.SplitSafe s) : Evolves (Keeps Ready) (iterate p) s := by
  unfold iterate
  cases p.result with
  | interrupted => exact Evolves.pure
  | failed err => exact Evolves.throw
  | ready =>
    refine Evolves.bind ready_beforeChannel fun a t ht => ?_
    unfold Poll.SplitSafe at hsafe
    rw [ht] at hsafe
    refine Evolves.bind (ready_readChannel hsafe) fun _ _ _ => ?_
    refine Evolves.bind (Evolves.ready calm_flushOutbound) fun _ _ _ => ?_
    exact Evolves.bind (Evolves.ready calm_checkBacklog) fun _ _ _ =>
      Evolves.ready calm_surfaceUpgrade

end Loop

/-! ## Runs -/

namespace Supervisor

/-- The frames that a pass reads are safe. -/
def SplitSafe (v : Supervisor) : Action → Prop
  | .iterate p _ _ => p.SplitSafe v.serving
  | _ => True

/-- Each pass of the run reads safe frames. -/
def AlwaysSplitSafe (v : Supervisor) : List Action → Prop
  | [] => True
  | a :: rest =>
    v.SplitSafe a ∧
      match v.step a with
      | some v' => v'.AlwaysSplitSafe rest
      | none => True

/-- A reverse migration stays armed across a new generation. -/
theorem ready_serve {s : Serving} {h : State} {now : Nat} (hs : Ready s)
    (harmed : h.armedDeploy = s.holder.armedDeploy) (hsessions : h.sessions = s.holder.sessions)
    (hlisteners : h.listeners = s.holder.listeners) :
    Ready (serve h s.kernel s.history now) := by
  intro hsplit
  have hdrained := hs (by
    unfold State.splitRollbackArmed at hsplit ⊢
    rw [← harmed]
    exact hsplit)
  refine ⟨?_, fun uid e' he' => ?_, ?_⟩
  · obtain ⟨d, armedAt, epoch, a, l, hd, hrest⟩ := hdrained.since
    exact ⟨d, armedAt, epoch, a, l, harmed.trans hd, hrest⟩
  · have hget : (serve h s.kernel s.history now).holder.sessions[uid]?
        = h.sessions[uid]?.map fun e => { e with deliveryReady := false } :=
      Std.ExtTreeMap.getElem?_map
    obtain ⟨e, he, rfl⟩ := Option.map_eq_some_iff.mp (hget.symm.trans he')
    have hr : Retains e { e with deliveryReady := false } := ⟨id, rfl, rfl, rfl, rfl, rfl⟩
    obtain ⟨hexit, r, hproj⟩ := hdrained.live uid e (hsessions ▸ he)
    exact ⟨hexit, r, (rollbackSession_retains hr).trans hproj⟩
  · obtain ⟨l, hl, hk⟩ := hdrained.listener
    exact ⟨l, hlisteners ▸ hl, hk⟩

/-- What is armed is carried out, and then armed no more. -/
theorem ready_fire {v : Supervisor} {deploy : ArmedDeploy} {os : Os} {polledAt : Nat}
    {exec : ExecResult} : Ready (v.fire deploy os polledAt exec).serving := by
  unfold fire
  cases deploy with
  | newPin pin => exact ready_of_none rfl
  | usePrevious => exact ready_of_none rfl
  | splitRollback pin generation version =>
    cases exec with
    | failed => exact ready_of_none (@tame_sweepLatchedExits os _).armed
    | done => exact ready_of_none rfl
    | stopped => exact ready_of_none rfl

theorem ready_onOutcome {v : Supervisor} (h : Ready v.serving) {outcome : ServeOutcome} {os : Os}
    {polledAt : Nat} {exec : ExecResult} (hgone : (v.onOutcome outcome os polledAt exec).gone = false) :
    Ready (v.onOutcome outcome os polledAt exec).serving := by
  unfold onOutcome at hgone ⊢
  cases outcome with
  | shutdownRequested => cases hgone
  | holderUpgrade pin =>
    cases exec with
    | done => exact ready_of_none rfl
    | failed => exact h.calm (calm_of_same rfl rfl (.inr rfl) rfl (fun _ => rfl) rfl rfl)
    | stopped => exact h
  | brainEof =>
    cases hd : v.serving.holder.armedDeploy with
    | none => simpa [hd, down] using h
    | some d =>
      simp only [hd]
      exact ready_fire
  | wedged reason => simpa [down] using ready_of_none disarm_armedDeploy
  | protocol reason => simpa [down] using ready_of_none disarm_armedDeploy
  | helloTimeout => simpa [down] using h
  | helloRefused => simpa [down] using h

/-- One action keeps an armed reverse migration ready, if what it reads is safe. -/
theorem ready_step {v v' : Supervisor} (h : v.gone = false → Ready v.serving) {a : Action}
    (hstep : v.step a = some v') (hsafe : v.SplitSafe a) : v'.gone = false → Ready v'.serving := by
  intro hgone'
  cases a with
  | retryPin pin =>
    simp only [step] at hstep
    split at hstep
    · cases hstep
    · rename_i hcond
      simp only [not_or, Bool.not_eq_true] at hcond
      have ht := (h hcond.1).calm (calm_setStatus "held_down" v.pins.previous.isSome)
      cases pin <;> cases hstep <;> exact ht
  | spawnFailed =>
    simp only [step] at hstep
    split at hstep
    · cases hstep
    · rename_i hcond
      simp only [not_or, Bool.not_eq_true] at hcond
      cases hstep
      rw [applyFailure_serving]
      exact (h hcond.1).calm (calm_setStatus "running" v.pins.previous.isSome)
  | startBrain now =>
    simp only [step] at hstep
    split at hstep
    · cases hstep
    · rename_i hcond
      simp only [not_or, Bool.not_eq_true] at hcond
      cases hstep
      exact ready_serve (h hcond.1) rfl rfl rfl
  | iterate p os exec =>
    simp only [step] at hstep
    split at hstep
    · cases hstep
    · rename_i hcond
      simp only [not_or, Bool.not_eq_true] at hcond
      have hi := ready_iterate (p := p) hsafe (h hcond.1)
      cases hr : Holder.iterate p v.serving with
      | ok a s =>
        rw [hr] at hstep
        cases hstep
        exact after_ok hr ▸ hi
      | error outcome s =>
        rw [hr] at hstep
        cases hstep
        exact ready_onOutcome (v := { v with serving := s }) (after_error hr ▸ hi) hgone'
  | childExit child status =>
    simp only [step] at hstep
    split at hstep
    · cases hstep
    · rename_i hcond
      cases hstep
      exact (h (by simpa using hcond)).calm calm_childExit
  | shutdown =>
    simp only [step] at hstep
    split at hstep
    · cases hstep
    · cases hstep
      cases hgone'

theorem ready_run {v v' : Supervisor} (h : v.gone = false → Ready v.serving)
    {actions : List Action} (hrun : v.run actions = some v') (hsafe : v.AlwaysSplitSafe actions) :
    v'.gone = false → Ready v'.serving := by
  induction actions generalizing v with
  | nil =>
    cases hrun
    exact h
  | cons a rest ih =>
    obtain ⟨w, hw, hrest⟩ := Option.bind_eq_some_iff.mp hrun
    obtain ⟨ha, hsafe⟩ := hsafe
    rw [hw] at hsafe
    exact ih (ready_step h hw ha) hrest hsafe

end Supervisor

/-! ## Carrying it out -/

/-- What an accepted reverse migration can rely on. -/
structure RollbackReady (s : Serving) : Prop where
  /-- Nothing was consumed, and no deploy settled, since the armed deploy was accepted. -/
  unconsumed : ∃ d armedAt epoch a l, s.holder.armedDeploy = some (d, armedAt) ∧
    s.history = a ++ .deployArmed epoch armedAt :: l ∧
    ∀ x ∈ l, ¬ x.isDeploy ∧ ∀ child r, x ≠ .consumed child r
  /-- Each session lives and keeps a rollback record. -/
  recorded : ∀ (uid : String) (e : SessionEntry), s.holder.sessions[uid]? = some e →
    e.exit = none ∧ e.rollbackRecord.isSome
  /-- The manifest has one record for each session, with the session's own descriptors. -/
  projects : ∀ version generation bin,
    ∃ m, s.holder.rollbackManifest version generation bin = .ok m ∧
      m.sessions.map SessionRecord.handle
        = s.holder.sessions.toList.map fun entry => entry.2.handle entry.1

theorem Drained.rollbackReady {s : Serving} (h : Drained s) : RollbackReady s where
  unconsumed := by
    obtain ⟨d, armedAt, epoch, a, l, hd, hl, hcalm⟩ := h.since
    refine ⟨d, armedAt, epoch, a, l, hd, hl, fun x hx => ⟨Happening.isDeploy_of_isCalm (hcalm x hx),
      fun child r heq => ?_⟩⟩
    have := hcalm x hx
    simp [heq, Happening.isCalm] at this
  recorded uid e he := by
    obtain ⟨hexit, r, hr⟩ := h.live uid e he
    obtain ⟨blob, -, hblob, -⟩ := rollbackSession_ok.mp hr
    exact ⟨hexit, by simp [hblob]⟩
  projects := rollbackManifest_ok (fun uid e he => (h.live uid e he).2) h.listener

namespace Supervisor

/-- A record blob with the fields that have no default. -/
def sampleBlob : Value :=
  object [("generation", .num 0), ("session_type", "bash"), ("title", "shell"),
    ("workspace_id", ""), ("global_perms", .bool false)]

/-- The frames of a brain that arms a reverse migration. -/
def sampleSplit : List (Request × List Fd) :=
  [(.rollbackRecord (.ok ⟨"s", 1, sampleBlob⟩), []),
   (.storeListener (.ok ⟨⟨"unix", "/run/cm.sock"⟩⟩), [20]),
   (.splitRollback (.ok ⟨7, 3⟩), [21])]

/-- A child exits before its record is armed; a reverse migration is accepted. -/
def splitRun : List Action :=
  [.startBrain 0,
   .iterate (samplePollAt 0 (sampleRead 0 [(sampleHello, []), (sampleSpawn, [])]) 0)
     (sampleOs true) .done,
   .childExit 0 ⟨some 0, none⟩,
   .iterate (samplePoll true ["s"] []) (sampleOs true) .done,
   .iterate (samplePollAt 0 (sampleRead 0 sampleSplit) 0) (sampleOs true) .done]

end Supervisor

end Holder
