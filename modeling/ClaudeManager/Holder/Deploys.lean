import ClaudeManager.Holder.Calm
import ClaudeManager.Holder.Outcomes
import ClaudeManager.Program.Histories

/-!
# Armed deploys

An armed deploy is carried out by the generation that armed it, within its horizon, or not at
all, and a reverse migration delays no exit beyond its own arm.
-/

namespace Holder

open Json Containers Program

/-! ## What a history shows of deploys -/

/-- A deploy was armed and not settled since. -/
def Unsettled : List Happening → Prop :=
  Open (fun x => ∃ epoch armedAt, x = .deployArmed epoch armedAt) fun x => x.isDeploy

/-- The deploy armed then, by that generation, is not settled. -/
def ArmedSince (epoch armedAt : Nat) : List Happening → Prop :=
  Open (fun x => x = .deployArmed epoch armedAt) fun x => x.isDeploy

/-- What may happen to deploys after `l`. -/
def DeployAllowed (l : List Happening) : Happening → Prop
  | .deployArmed .. => ¬ Unsettled l
  | .deployFired epoch polledAt =>
    ∃ armedAt, ArmedSince epoch armedAt l ∧ polledAt < armedAt + armAutoDisarm
  | _ => True

/-! ## The invariant -/

/-- The history agrees with what is armed. -/
structure DeployLog (s : Serving) : Prop where
  allowed : Justified DeployAllowed s.history
  armed : ∀ d armedAt, s.holder.armedDeploy = some (d, armedAt) →
    ArmedSince s.holder.epoch armedAt s.history
  unarmed : s.holder.armedDeploy = none → ¬ Unsettled s.history
  exclusive : s.holder.armedDeploy.isSome → s.holder.pendingUpgrade = none
  greeted : s.helloDone = false → s.holder.armedDeploy = none

/-- Exits of armed records are delayed only while a reverse migration is armed. -/
def Prompt (s : Serving) : Prop :=
  ∀ (uid : String) (e : SessionEntry), s.holder.sessions[uid]? = some e → e.delayed →
    s.holder.splitRollbackArmed

/-- No exit is delayed. -/
def Undelayed (s : Serving) : Prop :=
  ∀ (uid : String) (e : SessionEntry), s.holder.sessions[uid]? = some e → ¬ e.delayed

structure Deploys (s : Serving) : Prop extends DeployLog s where
  prompt : Prompt s

/-- The armed deploy is within its horizon. -/
def Timely (now : Nat) (s : Serving) : Prop :=
  ∀ d armedAt, s.holder.armedDeploy = some (d, armedAt) → now < armedAt + armAutoDisarm

/-- What holds after the timers of a pass. -/
structure InPass (now : Nat) (s : Serving) : Prop extends Deploys s where
  timely : Timely now s

theorem DeployLog.tame {s t : Serving} (h : DeployLog s) (ht : Tame s t) : DeployLog t := by
  obtain ⟨l, hl, hnot⟩ := ht.history
  have happend : ∀ {opens : Happening → Prop}, (∀ x, opens x → x.isDeploy) →
      (Open opens (fun x => x.isDeploy) t.history ↔
        Open opens (fun x => x.isDeploy) s.history) := by
    intro opens hopens
    rw [hl]
    exact open_append (fun x hx ho => hnot x hx (hopens x ho)) fun x hx => by simpa using hnot x hx
  refine ⟨?_, fun d armedAt harmed => ?_, fun hnone hun => ?_, fun hsome => ?_, fun hg => ?_⟩
  · rw [hl]
    refine h.allowed.append fun x hx a => ?_
    have := hnot x hx
    cases x <;> simp_all [DeployAllowed, Happening.isDeploy]
  · rw [ht.armed] at harmed
    rw [ht.epoch]
    exact (happend (by rintro x rfl; rfl)).mpr (h.armed d armedAt harmed)
  · rw [ht.armed] at hnone
    exact h.unarmed hnone ((happend (by rintro x ⟨_, _, rfl⟩; rfl)).mp hun)
  · rw [ht.armed] at hsome
    rcases ht.upgrade with hu | hu
    · rw [hu]
      exact h.exclusive hsome
    · exact hu
  · rw [ht.armed]
    refine h.greeted ?_
    cases hs : s.helloDone with
    | false => rfl
    | true =>
      rw [ht.greeted hs] at hg
      cases hg

theorem Tame.splitRollbackArmed {s t : Serving} (h : Tame s t) :
    t.holder.splitRollbackArmed = s.holder.splitRollbackArmed := by
  unfold State.splitRollbackArmed
  rw [h.armed]

theorem Deploys.tame {s t : Serving} (h : Deploys s) (ht : Tame s t) : Deploys t where
  toDeployLog := h.toDeployLog.tame ht
  prompt uid e' he' hd' := by
    obtain ⟨e, he, hd⟩ := ht.delayed uid e' he' hd'
    rw [ht.splitRollbackArmed]
    exact h.prompt uid e he hd

theorem InPass.tame {now : Nat} {s t : Serving} (h : InPass now s) (ht : Tame s t) :
    InPass now t where
  toDeploys := h.toDeploys.tame ht
  timely d armedAt harmed := h.timely d armedAt (ht.armed ▸ harmed)

/-- A tame operation keeps what a pass relies on. -/
theorem Evolves.inPass {α : Type} {now : Nat} {m : Serve α} {s : Serving} (h : Evolves Tame m s) :
    Evolves (Keeps (InPass now)) m s := fun hs => hs.tame h

/-! ## Exits -/

theorem tame_reap {s : Serving} {child : Nat} {reaper : Reaper} : Tame s (s.reap child reaper) := by
  unfold Serving.reap
  split
  · exact .refl s
  · exact .of_sessions (l := [.consumed child reaper]) rfl (by simp [Happening.isDeploy]) rfl rfl
      rfl rfl fun _ e he hd => ⟨e, he, hd⟩

/-- A consumed exit is no longer delayed. -/
theorem tame_setExited {s : Serving} {uid : String} {e : SessionEntry} {event : ExitEventBody} :
    Tame s (s.setHolder (s.holder.setSession uid (e.exited event))) := by
  refine .of_sessions (List.append_nil _).symm (by simp) rfl rfl rfl rfl fun u o ho hd => ?_
  simp only [Serving.setHolder, State.setSession, getElem?_insert_map] at ho
  split at ho
  · cases ho
    exact absurd hd.2.1 (by simp [SessionEntry.exited])
  · exact ⟨o, ho, hd⟩

theorem tame_note {s : Serving} {x : Happening} (hx : ¬ x.isDeploy) : Tame s (s.note x) :=
  .of_sessions (l := [x]) rfl (by simpa using hx) rfl rfl rfl rfl fun _ e he hd => ⟨e, he, hd⟩

theorem tame_consumedExit {s : Serving} {os : Os} {uid : String} {e : SessionEntry} :
    Tame s (s.consumedExit os uid e) := by
  unfold Serving.consumedExit
  have hpending : Tame s ((s.reap e.pidfd.child .exit).note
      (.pending e.pidfd.child (exitEvent os uid e (s.kernel.waitStatus e.pidfd.child)))) :=
    tame_reap.trans (tame_note (by simp [Happening.isDeploy]))
  refine hpending.trans ?_
  by_cases hready : e.deliveryReady
  · simp only [hready, if_true]
    exact (calm_push.toTame.trans (tame_note (by simp [Happening.isDeploy]))).trans tame_setExited
  · simp only [hready, Bool.false_eq_true, if_false]
    exact tame_setExited

/-- A consumed exit is not delayed. -/
theorem consumedExit_undelayed {s : Serving} {os : Os} {uid : String} {e o : SessionEntry}
    (ho : (s.consumedExit os uid e).holder.sessions[uid]? = some o) : ¬ o.delayed := by
  have : (s.consumedExit os uid e).holder.sessions[uid]?
      = some (e.exited (exitEvent os uid e (s.kernel.waitStatus e.pidfd.child))) := by
    unfold Serving.consumedExit Serving.reap
    split <;> split <;> simp [Serving.setHolder, State.setSession, Serving.note, Serving.sendExit,
      Serving.push]
  rw [this] at ho
  cases ho
  exact fun hd => absurd hd.2.1 (by simp [SessionEntry.exited])

theorem tame_sweepLatched {os : Os} {uid : String} {s : Serving} :
    Evolves Tame (sweepLatched os uid) s := by
  refine Evolves.bind_get ?_
  cases he : s.holder.sessions[uid]? with
  | none => exact Evolves.pure
  | some e => exact Evolves.onlyIf fun _ => Evolves.of_modify tame_consumedExit

/-- One swept record is not delayed. -/
theorem sweepLatched_undelayed {os : Os} {uid : String} {s : Serving} {o : SessionEntry}
    (ho : (after (sweepLatched os uid) s).holder.sessions[uid]? = some o) : ¬ o.delayed := by
  unfold sweepLatched at ho
  rw [after_bind_get] at ho
  cases he : s.holder.sessions[uid]? with
  | none =>
    rw [he] at ho
    simp only at ho
    change s.holder.sessions[uid]? = some o at ho
    rw [he] at ho
    cases ho
  | some e =>
    rw [he] at ho
    simp only at ho
    by_cases hc : e.exitLatched ∧ e.reapArmed ∧ e.exit.isNone
    · rw [onlyIf, if_pos hc] at ho
      exact consumedExit_undelayed ho
    · rw [onlyIf, if_neg hc] at ho
      change s.holder.sessions[uid]? = some o at ho
      rw [he] at ho
      cases ho
      exact fun hd => hc ⟨hd.2.1, hd.1, by simp [hd.2.2]⟩

theorem sweepLatched_succeeds {os : Os} {uid : String} {s : Serving} :
    ∃ t, sweepLatched os uid s = .ok ⟨⟩ t := by
  unfold sweepLatched
  simp only [bind_get_ok]
  cases s.holder.sessions[uid]? with
  | none => exact ⟨s, rfl⟩
  | some e => exact onlyIf_succeeds fun _ => ⟨_, rfl⟩

theorem tame_sweepLatchedExits {os : Os} {s : Serving} : Evolves Tame (sweepLatchedExits os) s :=
  Evolves.bind_get (Evolves.forM (fun _ _ _ => tame_sweepLatched) s)

/-- Sweeping leaves no delayed exit. -/
theorem sweepLatchedExits_undelayed {os : Os} {s : Serving} :
    Undelayed (after (sweepLatchedExits os) s) := by
  have hloop : ∀ (uids : List String) (t : Serving) (uid : String) (o : SessionEntry),
      (uid ∉ uids → ∀ e : SessionEntry, t.holder.sessions[uid]? = some e → ¬ e.delayed) →
      (after (uids.forM (sweepLatched os)) t).holder.sessions[uid]? = some o → ¬ o.delayed := by
    intro uids
    induction uids with
    | nil => exact fun t uid o hrest ho => hrest (by simp) o ho
    | cons u uids ih =>
      intro t uid o hrest ho
      obtain ⟨t', ht'⟩ := @sweepLatched_succeeds os u t
      rw [List.forM_eq_forM, List.forM_cons, after_bind ht', ← after_ok ht'] at ho
      refine ih _ uid o (fun hu e he hd => ?_) ho
      by_cases heq : uid = u
      · subst heq
        exact sweepLatched_undelayed he hd
      · obtain ⟨e', he', hd'⟩ := (@tame_sweepLatched os u t).delayed
          uid e he hd
        exact hrest (by simp [heq, hu]) e' he' hd'
  intro uid o ho
  refine hloop s.holder.sessions.keys s uid o (fun hu e he => ?_) ho
  exact absurd (mem_keys_map.mpr ⟨e, he⟩) hu

/-! ## Verbs -/

section Verbs

variable {s : Serving} {os : Os} {reqId : Nat}

theorem tame_fork : Tame s s.fork :=
  .of_sessions (List.append_nil _).symm (by simp) rfl rfl rfl rfl fun _ e he hd => ⟨e, he, hd⟩

theorem tame_mint : Tame s s.mint :=
  .of_sessions (List.append_nil _).symm (by simp) rfl rfl rfl rfl fun _ e he hd => ⟨e, he, hd⟩

theorem tame_hold {uid : String} {e : SessionEntry} (he : ¬ e.delayed) : Tame s (s.hold uid e) := by
  refine .of_sessions (l := [.held e.pidfd.child uid e.incarnation e.reapArmed]) rfl
    (by simp [Happening.isDeploy]) rfl rfl rfl rfl fun u o ho hd => ?_
  simp only [Serving.hold, Serving.setHolder, Serving.note, State.setSession,
    getElem?_insert_map] at ho
  split at ho
  · cases ho
    exact absurd hd he
  · exact ⟨o, ho, hd⟩

theorem tame_doSpawn {spec : SpawnBody} : Evolves Tame (doSpawn os spec) s := by
  refine Evolves.ite (fun _ => Evolves.pure) fun _ => ?_
  cases os.spawn with
  | ok child => exact Evolves.bind_get (Evolves.bind_modify tame_fork Evolves.pure)
  | error e =>
    cases e with
    | postSpawn e =>
      exact Evolves.bind_get (Evolves.bind_modify tame_fork
        (Evolves.bind_modify tame_reap Evolves.pure))
    | emptyArgv => exact Evolves.pure
    | openpty e => exact Evolves.pure
    | exec e => exact Evolves.pure

theorem tame_spawn {body : Except String SpawnBody} :
    Evolves Tame (handleSpawn os reqId body) s := by
  refine Evolves.withBodyOf (fun _ => calm_push.toTame) fun spec _ => Evolves.bind_get ?_
  cases s.holder.sessions[spec.uid]? with
  | some existing => exact calm_push.toTame
  | none =>
    refine Evolves.bind tame_doSpawn fun r s' _ => ?_
    cases r with
    | error e => exact calm_push.toTame
    | ok child =>
      refine Evolves.bind_get (Evolves.bind_modify tame_mint ?_)
      have hdown : ∀ message, Evolves Tame (do
          modify (·.reap child.2 .failedSpawn)
          replyErr reqId errExecFailed message : Serve PUnit) s'.mint := fun _ =>
        Evolves.bind_modify tame_reap calm_push.toTame
      cases hm : child.1.master with
      | none => exact hdown _
      | some master =>
        simp only
        refine Evolves.ite (fun _ => ?_) fun _ => hdown _
        refine Evolves.bind calm_push.toTame fun _ _ _ => Evolves.of_modify (tame_hold ?_)
        exact fun hd => absurd hd.1 (by simp [spawnedEntry])

/-- Arming a record without a latched exit. -/
theorem tame_arm {uid : String} {e : SessionEntry} {body : ArmReapBody}
    (h : ¬ ((e.armedBy body).exitLatched ∧ (e.armedBy body).exit.isNone)) :
    Tame s (s.arm uid (e.armedBy body)) := by
  refine .of_sessions (l := [.armed s.holder.epoch uid e.incarnation]) rfl
    (by simp [Happening.isDeploy]) rfl rfl rfl rfl fun u o ho hd => ?_
  simp only [Serving.arm, Serving.setHolder, Serving.note, State.setSession,
    getElem?_insert_map] at ho
  split at ho
  · cases ho
    exact absurd ⟨hd.2.1, by simp [hd.2.2]⟩ h
  · exact ⟨o, ho, hd⟩

/-- Arming a record with a latched exit consumes that exit. -/
theorem tame_armConsumed {uid : String} {e : SessionEntry} {f : OutFrame} :
    Tame s (((s.arm uid e).push f).consumedExit os uid e) := by
  have hconsumed : Tame ((s.arm uid e).push f) (((s.arm uid e).push f).consumedExit os uid e) :=
    tame_consumedExit
  have harm : Aside s ((s.arm uid e).push f) :=
    .of_history (l := [.armed s.holder.epoch uid e.incarnation]) rfl (by simp [Happening.isDeploy])
      rfl rfl rfl rfl
  refine { toAside := harm.trans hconsumed.toAside, delayed := fun u o ho hd => ?_ }
  have hu : u ≠ uid := by
    rintro rfl
    exact consumedExit_undelayed ho hd
  obtain ⟨o', ho', hd'⟩ := hconsumed.delayed u o ho hd
  refine ⟨o', ?_, hd'⟩
  simpa only [Serving.push, Serving.arm, Serving.note, Serving.setHolder, State.setSession,
    getElem?_insert_map, if_neg hu] using ho'

theorem tame_armReap {body : Except String ArmReapBody} :
    Evolves Tame (handleArmReap os reqId body) s := by
  refine Evolves.withBodyOf (fun _ => calm_push.toTame) fun body _ => Evolves.bind_get ?_
  cases he : s.holder.sessions[body.uid]? with
  | none => exact calm_push.toTame
  | some e =>
    refine Evolves.ite (fun _ => calm_push.toTame) fun _ => ?_
    by_cases hlatched : (e.armedBy body).exitLatched ∧ (e.armedBy body).exit.isNone
    · unfold Evolves
      simp only [after_bind_modify, replyOk, pushFrame, if_pos hlatched]
      exact tame_armConsumed
    · refine Evolves.bind_modify (tame_arm hlatched) ?_
      refine Evolves.bind calm_push.toTame fun _ _ _ => ?_
      rw [if_neg hlatched]
      cases (e.armedBy body).exit.bind (·.pending) with
      | none => exact Evolves.pure
      | some event =>
        exact Evolves.of_modify (calm_push.toTame.trans (tame_note (by simp [Happening.isDeploy])))

theorem tame_abortSpawn {body : Except String RecordBody} :
    Evolves Tame (handleAbortSpawn reqId body) s := by
  refine Evolves.withBodyOf (fun _ => calm_push.toTame) fun body _ => Evolves.bind_get ?_
  cases s.holder.record? body.uid body.incarnation with
  | none => exact calm_push.toTame
  | some e =>
    refine Evolves.bind_modify (Tame.trans ?_ tame_reap) calm_push.toTame
    exact .of_sessions (l := [.aborted body.uid e.incarnation]) rfl (by simp [Happening.isDeploy])
      rfl rfl rfl rfl delayed_erase

theorem tame_rollbackRecord {body : Except String RollbackRecordBody} :
    Evolves Tame (handleRollbackRecord reqId body) s := by
  refine Evolves.withBodyOf (fun _ => calm_push.toTame) fun body _ => Evolves.bind_get ?_
  cases he : s.holder.sessions[body.uid]? with
  | none => exact calm_push.toTame
  | some e =>
    refine Evolves.ite (fun _ => calm_push.toTame) fun _ => ?_
    refine Evolves.bind_modify ?_ calm_push.toTame
    exact .of_sessions (List.append_nil _).symm (by simp) rfl rfl rfl rfl
      (delayed_insert (e := e) he id)

/-! ### Deploy verbs -/

variable {now : Nat}

theorem deployConflict_none {h : State} (hfree : h.deployConflict = none) :
    h.armedDeploy = none ∧ h.pendingUpgrade = none := by
  unfold State.deployConflict at hfree
  cases harmed : h.armedDeploy with
  | some d => simp [harmed] at hfree
  | none =>
    cases hup : h.pendingUpgrade with
    | some pin => simp [harmed, hup] at hfree
    | none => exact ⟨rfl, rfl⟩

/-- A deploy is armed where none is and no holder upgrade is under way. -/
theorem deploys_armDeploy {deploy : ArmedDeploy} {armedAt : Nat} (h : InPass now s)
    (hfree : s.holder.deployConflict = none) (hgreeted : s.helloDone = true)
    (hclock : now ≤ armedAt) : InPass now (s.armDeploy deploy armedAt) := by
  obtain ⟨hunarmed, hidle⟩ := deployConflict_none hfree
  exact
    { allowed := justified_concat.mpr ⟨h.allowed, h.unarmed hunarmed⟩
      armed := fun d at' hd => by
        simp only [Serving.armDeploy, Serving.setHolder, Serving.note, Option.some.injEq,
          Prod.mk.injEq] at hd
        obtain ⟨-, rfl⟩ := hd
        exact open_concat.mpr (.inl rfl)
      unarmed := fun hn => by cases hn
      exclusive := fun _ => hidle
      greeted := fun hg => by
        rw [show (s.armDeploy deploy armedAt).helloDone = s.helloDone from rfl, hgreeted] at hg
        cases hg
      prompt := fun uid e he hd => by
        have := h.prompt uid e he hd
        simp [State.splitRollbackArmed, hunarmed] at this
      timely := fun d at' hd => by
        simp only [Serving.armDeploy, Serving.setHolder, Serving.note, Option.some.injEq,
          Prod.mk.injEq] at hd
        obtain ⟨-, rfl⟩ := hd
        unfold armAutoDisarm
        omega }

theorem Evolves.unlessConflictOf {I : Serving → Prop} {rest : Serve PUnit}
    (herr : ∀ why, Evolves (Keeps I) (Holder.replyErr reqId errInvalid why) s)
    (h : s.holder.deployConflict = none → Evolves (Keeps I) rest s) :
    Evolves (Keeps I) (Holder.unlessConflict reqId rest) s := by
  refine Evolves.bind_get ?_
  cases hc : s.holder.deployConflict with
  | none => exact h hc
  | some why => exact herr why

theorem inPass_push {f : OutFrame} : Evolves (Keeps (InPass now)) (pushFrame f) s :=
  Evolves.inPass calm_push.toTame

theorem inPass_replyOk : Evolves (Keeps (InPass now)) (replyOk reqId) s := inPass_push

theorem inPass_replyErr {code message : String} :
    Evolves (Keeps (InPass now)) (replyErr reqId code message) s := inPass_push

theorem inPass_armDeploy {deploy : ArmedDeploy} (hfree : s.holder.deployConflict = none)
    (hgreeted : s.helloDone = true) (hclock : now ≤ os.now) :
    Evolves (Keeps (InPass now)) (do
      modify (·.armDeploy deploy os.now)
      replyOk reqId : Serve PUnit) s :=
  Evolves.bind_modify (fun h => deploys_armDeploy h hfree hgreeted hclock) inPass_replyOk

theorem inPass_restartBrain {fds : List Fd} (hgreeted : s.helloDone = true)
    (hclock : now ≤ os.now) : Evolves (Keeps (InPass now)) (handleRestartBrain os reqId fds) s := by
  refine Evolves.unlessConflictOf (fun _ => inPass_replyErr) fun hfree => ?_
  match fds with
  | [] => exact Evolves.throw
  | _ :: _ :: _ => exact Evolves.throw
  | [pin] => exact inPass_armDeploy hfree hgreeted hclock

theorem inPass_rollbackBrain (hgreeted : s.helloDone = true) (hclock : now ≤ os.now) :
    Evolves (Keeps (InPass now)) (handleRollbackBrain os reqId) s :=
  Evolves.unlessConflictOf (fun _ => inPass_replyErr) fun hfree => Evolves.bind_get
    (Evolves.ite (fun _ => inPass_armDeploy hfree hgreeted hclock) fun _ => inPass_replyErr)

theorem inPass_splitRollback {body : Except String SplitRollbackBody} {fds : List Fd}
    (hgreeted : s.helloDone = true) (hclock : now ≤ os.now) :
    Evolves (Keeps (InPass now)) (handleSplitRollback os reqId body fds) s := by
  match fds with
  | [] => exact Evolves.throw
  | _ :: _ :: _ => exact Evolves.throw
  | [pin] =>
    refine Evolves.unlessConflictOf (fun _ => inPass_replyErr) fun hfree => ?_
    refine Evolves.withBodyOf (fun _ => inPass_replyErr) fun body _ => Evolves.bind_get ?_
    exact Evolves.ite (fun _ => inPass_armDeploy hfree hgreeted hclock) fun _ => inPass_push

theorem inPass_reexecHolder {fds : List Fd} :
    Evolves (Keeps (InPass now)) (handleReexecHolder os reqId fds) s := by
  match fds with
  | [] => exact Evolves.throw
  | _ :: _ :: _ => exact Evolves.throw
  | [pin] =>
    refine Evolves.unlessConflictOf (fun _ => inPass_replyErr) fun hfree => ?_
    refine Evolves.ite (fun _ => Evolves.bind_modify (fun h => ?_) inPass_replyOk)
      fun _ => inPass_replyErr
    have hunarmed := (deployConflict_none hfree).1
    exact
      { allowed := h.allowed
        armed := h.armed
        unarmed := h.unarmed
        exclusive := fun hs => by
          simp only [Serving.acceptUpgrade, Serving.setHolder, hunarmed] at hs
          cases hs
        greeted := h.greeted
        prompt := h.prompt
        timely := h.timely }

/-- A deploy that is no longer armed, once its exits are swept. -/
theorem deploys_swept {t : Serving} (h : DeployLog t) (hunarmed : t.holder.armedDeploy = none) :
    InPass now (after (sweepLatchedExits os) t) := by
  have ht := @tame_sweepLatchedExits os t
  refine { toDeployLog := h.tame ht, prompt := fun uid e he hd => ?_, timely := fun d at' hd => ?_ }
  · exact absurd hd (sweepLatchedExits_undelayed uid e he)
  · have harmed := ht.armed
    rw [hunarmed] at harmed
    rw [harmed] at hd
    cases hd

/-- Dropping the armed deploy settles it. -/
theorem deployLog_disarm (h : DeployLog s) : DeployLog s.disarm := by
  unfold Serving.disarm
  by_cases harmed : s.holder.armedDeploy.isSome
  · rw [if_pos harmed]
    exact
      { allowed := justified_concat.mpr ⟨h.allowed, trivial⟩
        armed := fun d at' hd => by cases hd
        unarmed := fun _ hun => by
          rcases open_concat.mp hun with ⟨_, _, heq⟩ | ⟨-, hclose⟩
          · cases heq
          · exact hclose rfl
        exclusive := fun hs => by cases hs
        greeted := fun _ => rfl }
  · rw [if_neg harmed]
    exact h

theorem disarm_armedDeploy : s.disarm.holder.armedDeploy = none := by
  unfold Serving.disarm
  split
  · rfl
  · rename_i h
    simpa using h

theorem inPass_cancelPending : Evolves (Keeps (InPass now)) (handleCancelPending os reqId) s := by
  intro h
  have hswept : InPass now (after (sweepLatchedExits os) s.disarm) :=
    deploys_swept (deployLog_disarm h.toDeployLog) disarm_armedDeploy
  unfold handleCancelPending
  rw [after_bind_get, after_bind_modify]
  exact Evolves.bind_keeps hswept (fun _ h => h) fun _ _ h => inPass_push h

/-! ## Frames -/

theorem inPass_dispatchVerb {frame : Inbound} (hgreeted : s.helloDone = true)
    (hclock : now ≤ os.now) :
    Evolves (Keeps (InPass now)) (dispatchVerb os frame reqId) s := by
  unfold dispatchVerb
  cases frame.request with
  | spawn body => exact Evolves.inPass tame_spawn
  | armReap body => exact Evolves.inPass tame_armReap
  | adopt => exact Evolves.inPass (.of_calm calm_adopt)
  | signal body => exact Evolves.inPass (.of_calm calm_signal)
  | abortSpawn body => exact Evolves.inPass tame_abortSpawn
  | updateCheckpoint body => exact Evolves.inPass (.of_calm calm_updateCheckpoint)
  | storeListener body => exact Evolves.inPass (.of_calm calm_storeListener)
  | restartBrain => exact inPass_restartBrain hgreeted hclock
  | rollbackBrain => exact inPass_rollbackBrain hgreeted hclock
  | cancelPending => exact inPass_cancelPending
  | rollbackRecord body => exact Evolves.inPass tame_rollbackRecord
  | splitRollback body => exact inPass_splitRollback hgreeted hclock
  | reexecHolder => exact inPass_reexecHolder
  | forget body => exact Evolves.inPass (.of_calm calm_forget)
  | ackExit body => exact Evolves.inPass (.of_calm calm_ackExit)
  | status => exact Evolves.bind_get inPass_push
  | hello body => exact Evolves.throw
  | pong => exact Evolves.pure
  | other v => exact inPass_replyErr

theorem inPass_dispatchRequest {frame : Inbound} (hclock : now ≤ os.now) :
    Evolves (Keeps (InPass now)) (dispatchRequest os frame reqId) s := by
  refine Evolves.bind_get (Evolves.ite (fun _ => ?_) fun hgreeted => ?_)
  · cases frame.request <;>
      first | exact Evolves.inPass (.of_calm calm_hello) | exact Evolves.throw
  · cases frame.rehelloReply? reqId s.holder.rehelloPending with
    | some body => exact Evolves.inPass (.of_calm calm_rehelloReply)
    | none => exact inPass_dispatchVerb (by simpa using hgreeted) hclock

theorem calm_pong : Calm s (s.setHolder { s.holder with pingsUnanswered := 0 }) :=
  calm_of_same rfl rfl (.inl rfl) rfl id rfl rfl

theorem inPass_dispatch {frame : Inbound} (hclock : now ≤ os.now) :
    Evolves (Keeps (InPass now)) (dispatch os frame) s := by
  refine Evolves.bind_refuse fun _ => ?_
  split
  · exact Evolves.inPass (Evolves.of_modify calm_pong.toTame)
  · exact Evolves.throw
  · exact inPass_dispatchRequest hclock

theorem inPass_receive {i : Incoming} (hclock : i.notBefore now) :
    Evolves (Keeps (InPass now)) (receive i) s := by
  cases i with
  | frame os frame => exact inPass_dispatch (by simpa [Incoming.notBefore] using hclock)
  | childExit child status => exact Evolves.inPass (Evolves.of_modify calm_childExit.toTame)

theorem inPass_readChannel {read : ChannelRead} (hclock : ∀ i ∈ read.incoming, i.notBefore now) :
    Evolves (Keeps (InPass now)) (readChannel read) s := by
  cases read with
  | notReady => exact Evolves.pure
  | eof => exact Evolves.throw
  | violated reason => exact Evolves.throw
  | frames incoming violated =>
    refine Evolves.bind (Evolves.forM (fun i hi t => inPass_receive (hclock i hi)) s) fun _ _ _ => ?_
    cases violated with
    | none => exact Evolves.pure
    | some reason => exact Evolves.throw

/-! ## The serve loop -/

/-- Past its horizon a deploy is dropped, so that what stays armed is timely. -/
theorem inPass_disarmTimer (h : Deploys s) : InPass os.now (after (disarmTimer os) s) := by
  unfold disarmTimer
  rw [after_bind_get]
  by_cases hlate : s.holder.armedDeploy.any fun d => d.2 + armAutoDisarm ≤ os.now
  · rw [onlyIf, if_pos hlate, after_bind_modify]
    exact deploys_swept (deployLog_disarm h.toDeployLog) disarm_armedDeploy
  · rw [onlyIf, if_neg hlate]
    refine { toDeploys := h, timely := fun d at' hd => ?_ }
    rw [show (after (pure ⟨⟩ : Serve PUnit) s) = s from rfl] at hd
    simp only [hd, Option.any_some, decide_eq_true_eq, not_le] at hlate
    exact hlate

/-- Of the exits that a pass reports, those of armed records are delayed only by an armed reverse
migration. -/
theorem inPass_childExited {armed : Bool} {uid : String} :
    Evolves (Keeps fun t => InPass now t ∧ t.holder.splitRollbackArmed = armed)
      (childExited os armed uid) s := by
  refine Evolves.bind_get ?_
  cases he : s.holder.sessions[uid]? with
  | none => exact Evolves.pure
  | some e =>
    refine Evolves.ite (fun _ => ?_) fun hcond => ?_
    · refine Evolves.of_modify fun ⟨h, harmed⟩ => ⟨h.tame tame_consumedExit, ?_⟩
      rw [tame_consumedExit.splitRollbackArmed, harmed]
    · refine Evolves.of_modify fun ⟨h, harmed⟩ => ⟨?_, harmed⟩
      refine { allowed := h.allowed, armed := h.armed, unarmed := h.unarmed
               exclusive := h.exclusive, greeted := h.greeted, timely := h.timely
               prompt := fun u o ho hd => ?_ }
      simp only [Serving.latch, Serving.rewrite, Serving.setHolder, State.setSession,
        getElem?_insert_map] at ho
      split at ho
      · cases ho
        have hsplit : armed = true := by
          by_contra hne
          exact hcond ⟨hd.1, hne⟩
        exact harmed.trans hsplit
      · exact h.prompt u o ho hd

theorem inPass_childExits {polled exited : List String} :
    Evolves (Keeps (InPass now)) (childExits os polled exited) s := by
  intro h
  exact (Evolves.forM (fun uid _ t => @inPass_childExited _ os _ _ uid) s ⟨h, rfl⟩).1

/-- The timers and the child exits, unless the handshake is overdue. -/
theorem inPass_beforeChannel {p : Poll} (h : Deploys s) :
    InPass p.os.now (after (beforeChannel p) s) ∨ beforeChannel p s = .error .helloTimeout s := by
  unfold beforeChannel
  rw [after_bind_get]
  cases htimer : handshakeTimer p.os.now s with
  | error e t =>
    obtain ⟨-, rfl, rfl⟩ := refuse_error.mp htimer
    exact .inr (bind_get_error.mpr (bind_error.mpr (.inl htimer)))
  | ok a t =>
    left
    obtain ⟨-, rfl⟩ := refuse_ok.mp htimer
    rw [after_bind htimer]
    refine Evolves.bind_keeps (inPass_disarmTimer h) (fun _ ht => ht) fun _ _ ht => ?_
    refine Evolves.bind (Evolves.inPass (.of_calm calm_pingTimer)) (fun _ _ _ => ?_) ht
    exact Evolves.bind_refuse fun _ => inPass_childExits

/-- What a pass ends in, unless it ends before its timers. -/
theorem inPass_iterate {p : Poll} (hp : p.Sound s) (h : Deploys s) :
    InPass p.os.now (after (iterate p) s) ∨ after (iterate p) s = s ∧
      ∀ outcome t, iterate p s = .error outcome t → outcome = .helloTimeout ∨
        ∃ reason, outcome = .protocol reason := by
  unfold iterate
  cases p.result with
  | interrupted => exact .inr ⟨rfl, fun _ _ he => by cases he⟩
  | failed err =>
    refine .inr ⟨rfl, fun _ _ he => ?_⟩
    cases he
    exact .inr ⟨_, rfl⟩
  | ready =>
    rcases inPass_beforeChannel h with hb | hb
    · left
      refine Evolves.bind_keeps hb (fun _ ht => ht) fun _ _ ht => ?_
      refine Evolves.bind (inPass_readChannel hp.2) (fun _ _ _ => ?_) ht
      refine Evolves.bind (Evolves.inPass (.of_calm calm_flushOutbound)) fun _ _ _ => ?_
      exact Evolves.bind (Evolves.inPass (.of_calm calm_checkBacklog)) fun _ _ _ =>
        Evolves.inPass (.of_calm calm_surfaceUpgrade)
    · right
      refine ⟨after_error (bind_error.mpr (.inl hb)), fun outcome t he => ?_⟩
      rcases bind_error.mp he with he | ⟨_, _, hok, -⟩
      · rw [hb] at he
        cases he
        exact .inl rfl
      · rw [hb] at hok
        cases hok

/-- No deploy is armed where a holder upgrade surfaces. -/
theorem upgrade_unarmed {p : Poll} {t : Serving} {pin : Fd} (hp : p.Sound s) (h : Deploys s)
    (he : iterate p s = .error (.holderUpgrade pin) t) : t.holder.armedDeploy = none := by
  obtain ⟨s', hs', hup⟩ := upgrade_surfaced he
  obtain ⟨pin', hpending, -, rfl⟩ := surfaceUpgrade_error hup
  obtain ⟨_, s₁, h₁, hrest⟩ := bind_ok.mp hs'
  have hpass : InPass p.os.now s₁ := by
    rcases inPass_beforeChannel (p := p) h with hb | hb
    · exact after_ok h₁ ▸ hb
    · rw [hb] at h₁
      cases h₁
  have hdone : InPass p.os.now s' := by
    rw [← after_ok hrest]
    exact Evolves.bind (inPass_readChannel hp.2) (fun _ _ _ => Evolves.bind
      (Evolves.inPass (.of_calm calm_flushOutbound)) fun _ _ _ =>
        Evolves.inPass (.of_calm calm_checkBacklog)) hpass
  cases harmed : s'.holder.armedDeploy with
  | none => exact harmed
  | some d =>
    have := hdone.exclusive (by simp [harmed])
    rw [hpending] at this
    cases this

end Verbs

theorem Deploys.undelayed {s : Serving} (h : Deploys s) (hunarmed : s.holder.armedDeploy = none) :
    Undelayed s := by
  intro uid e he hd
  have := h.prompt uid e he hd
  simp [State.splitRollbackArmed, hunarmed] at this

end Holder
