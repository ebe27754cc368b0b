import ClaudeManager.Holder.Supervisor

/-!
# Steps that leave a deploy alone

Most of what a serve loop does neither arms nor settles a deploy, nor consumes an exit. `Calm`
is what such steps have in common, `Tame` what is left of it where exits are consumed.
-/

namespace Holder

open Json Containers Program

/-! ## What steps keep -/

/-- A deploy was armed, dropped or carried out. -/
def Happening.isDeploy : Happening → Bool
  | .deployArmed .. | .deployDropped | .deployFired .. => true
  | _ => false

/-- Neither about a deploy nor the consumption of an exit. -/
def Happening.isCalm : Happening → Bool
  | .deployArmed .. | .deployDropped | .deployFired .. | .consumed .. => false
  | _ => true

theorem Happening.isDeploy_of_isCalm {x : Happening} (h : x.isCalm) : ¬ x.isDeploy := by
  cases x <;> simp_all [isCalm, isDeploy]

/-- The exit of the armed record is ready and not consumed. -/
def SessionEntry.delayed (e : SessionEntry) : Prop :=
  e.reapArmed ∧ e.exitLatched ∧ e.exit = none

/-- A record keeps what a reverse migration hands over of it. -/
structure Retains (e e' : SessionEntry) : Prop where
  exit : e.exit = none → e'.exit = none
  master : e'.master = e.master
  pidfd : e'.pidfd = e.pidfd
  pid : e'.pid = e.pid
  startTime : e'.childStartTime = e.childStartTime
  record : e'.rollbackRecord = e.rollbackRecord

theorem Retains.refl (e : SessionEntry) : Retains e e := ⟨id, rfl, rfl, rfl, rfl, rfl⟩

theorem Retains.trans {e e' e'' : SessionEntry} (h : Retains e e') (h' : Retains e' e'') :
    Retains e e'' :=
  ⟨fun hx => h'.exit (h.exit hx), h'.master.trans h.master, h'.pidfd.trans h.pidfd,
    h'.pid.trans h.pid, h'.startTime.trans h.startTime, h'.record.trans h.record⟩

/-- Deploys are left alone. -/
structure Aside (s t : Serving) : Prop where
  armed : t.holder.armedDeploy = s.holder.armedDeploy
  upgrade : t.holder.pendingUpgrade = s.holder.pendingUpgrade ∨ t.holder.pendingUpgrade = none
  epoch : t.holder.epoch = s.holder.epoch
  greeted : s.helloDone = true → t.helloDone = true
  history : ∃ l, t.history = s.history ++ l ∧ ∀ x ∈ l, ¬ x.isDeploy

/-- Besides, no exit is newly delayed. -/
structure Tame (s t : Serving) : Prop extends Aside s t where
  delayed : ∀ (uid : String) (e' : SessionEntry), t.holder.sessions[uid]? = some e' →
    e'.delayed → ∃ e : SessionEntry, s.holder.sessions[uid]? = some e ∧ e.delayed

/-- Moreover, no exit is consumed and the records keep what they hold. -/
structure Calm (s t : Serving) : Prop extends Tame s t where
  calm : ∃ l, t.history = s.history ++ l ∧ ∀ x ∈ l, x.isCalm
  sessions : ∀ (uid : String) (e' : SessionEntry), t.holder.sessions[uid]? = some e' →
    ∃ e : SessionEntry, s.holder.sessions[uid]? = some e ∧ Retains e e'
  listeners : ∀ kind, (∃ l ∈ s.holder.listeners, l.1.kind = kind) →
    ∃ l ∈ t.holder.listeners, l.1.kind = kind

theorem Aside.trans {s t u : Serving} (h : Aside s t) (h' : Aside t u) : Aside s u where
  armed := h'.armed.trans h.armed
  upgrade := by
    rcases h'.upgrade with hu | hu
    · rw [hu]
      exact h.upgrade
    · exact .inr hu
  epoch := h'.epoch.trans h.epoch
  greeted hg := h'.greeted (h.greeted hg)
  history := by
    obtain ⟨l, hl, hcalm⟩ := h.history
    obtain ⟨l', hl', hcalm'⟩ := h'.history
    refine ⟨l ++ l', by rw [hl', hl, List.append_assoc], fun x hx => ?_⟩
    exact (List.mem_append.mp hx).elim (hcalm x) (hcalm' x)

theorem Tame.refl (s : Serving) : Tame s s where
  armed := rfl
  upgrade := .inl rfl
  epoch := rfl
  greeted := id
  history := ⟨[], by simp⟩
  delayed _ e he hd := ⟨e, he, hd⟩

theorem Tame.trans {s t u : Serving} (h : Tame s t) (h' : Tame t u) : Tame s u where
  toAside := h.toAside.trans h'.toAside
  delayed uid e'' he'' hd'' := by
    obtain ⟨e', he', hd'⟩ := h'.delayed uid e'' he'' hd''
    exact h.delayed uid e' he' hd'

theorem Calm.refl (s : Serving) : Calm s s where
  toTame := .refl s
  calm := ⟨[], by simp⟩
  sessions _ e he := ⟨e, he, .refl e⟩
  listeners _ := id

theorem Calm.trans {s t u : Serving} (h : Calm s t) (h' : Calm t u) : Calm s u where
  toTame := h.toTame.trans h'.toTame
  calm := by
    obtain ⟨l, hl, hcalm⟩ := h.calm
    obtain ⟨l', hl', hcalm'⟩ := h'.calm
    refine ⟨l ++ l', by rw [hl', hl, List.append_assoc], fun x hx => ?_⟩
    exact (List.mem_append.mp hx).elim (hcalm x) (hcalm' x)
  sessions uid e'' he'' := by
    obtain ⟨e', he', hr'⟩ := h'.sessions uid e'' he''
    obtain ⟨e, he, hr⟩ := h.sessions uid e' he'
    exact ⟨e, he, hr.trans hr'⟩
  listeners kind hk := h'.listeners kind (h.listeners kind hk)

instance : Std.Refl Tame := ⟨Tame.refl⟩
instance : IsTrans Serving Tame := ⟨fun _ _ _ => Tame.trans⟩
instance : Std.Refl Calm := ⟨Calm.refl⟩
instance : IsTrans Serving Calm := ⟨fun _ _ _ => Calm.trans⟩

/-! ## Primitive steps -/

/-- Queues, timers and counters change. -/
theorem calm_of_same {s t : Serving} (hsessions : t.holder.sessions = s.holder.sessions)
    (harmed : t.holder.armedDeploy = s.holder.armedDeploy)
    (hupgrade : t.holder.pendingUpgrade = s.holder.pendingUpgrade ∨
      t.holder.pendingUpgrade = none)
    (hepoch : t.holder.epoch = s.holder.epoch) (hgreeted : s.helloDone = true → t.helloDone = true)
    (hlisteners : t.holder.listeners = s.holder.listeners) (hhistory : t.history = s.history) :
    Calm s t where
  armed := harmed
  upgrade := hupgrade
  epoch := hepoch
  greeted := hgreeted
  history := ⟨[], by simp [hhistory]⟩
  delayed uid e' he' hd := ⟨e', hsessions ▸ he', hd⟩
  calm := ⟨[], by simp [hhistory]⟩
  sessions uid e' he' := ⟨e', hsessions ▸ he', .refl e'⟩
  listeners kind hk := hlisteners ▸ hk

/-- Happenings that concern no deploy. -/
theorem Aside.of_history {s t : Serving} {l : List Happening}
    (hhistory : t.history = s.history ++ l) (hl : ∀ x ∈ l, ¬ x.isDeploy)
    (harmed : t.holder.armedDeploy = s.holder.armedDeploy)
    (hupgrade : t.holder.pendingUpgrade = s.holder.pendingUpgrade)
    (hepoch : t.holder.epoch = s.holder.epoch) (hgreeted : t.helloDone = s.helloDone) :
    Aside s t :=
  ⟨harmed, .inl hupgrade, hepoch, fun h => hgreeted.trans h, ⟨l, hhistory, hl⟩⟩

/-- Happenings that concern no deploy, with the records they leave. -/
theorem Tame.of_sessions {s t : Serving} {l : List Happening}
    (hhistory : t.history = s.history ++ l) (hl : ∀ x ∈ l, ¬ x.isDeploy)
    (harmed : t.holder.armedDeploy = s.holder.armedDeploy)
    (hupgrade : t.holder.pendingUpgrade = s.holder.pendingUpgrade)
    (hepoch : t.holder.epoch = s.holder.epoch) (hgreeted : t.helloDone = s.helloDone)
    (hdelayed : ∀ (uid : String) (e' : SessionEntry), t.holder.sessions[uid]? = some e' →
      e'.delayed → ∃ e : SessionEntry, s.holder.sessions[uid]? = some e ∧ e.delayed) :
    Tame s t :=
  ⟨.of_history hhistory hl harmed hupgrade hepoch hgreeted, hdelayed⟩

/-- One record is rewritten. -/
theorem delayed_insert {m : Map SessionEntry} {uid : String} {e e' : SessionEntry}
    (he : m[uid]? = some e) (hd : e'.delayed → e.delayed) (u : String) (o : SessionEntry)
    (ho : (m.insert uid e')[u]? = some o) (hdo : o.delayed) :
    ∃ e : SessionEntry, m[u]? = some e ∧ e.delayed := by
  rw [getElem?_insert_map] at ho
  split at ho
  · rename_i hu
    cases ho
    exact ⟨e, hu ▸ he, hd hdo⟩
  · exact ⟨o, ho, hdo⟩

theorem retains_insert {m : Map SessionEntry} {uid : String} {e e' : SessionEntry}
    (he : m[uid]? = some e) (hr : Retains e e') (u : String) (o : SessionEntry)
    (ho : (m.insert uid e')[u]? = some o) : ∃ e : SessionEntry, m[u]? = some e ∧ Retains e o := by
  rw [getElem?_insert_map] at ho
  split at ho
  · rename_i hu
    cases ho
    exact ⟨e, hu ▸ he, hr⟩
  · exact ⟨o, ho, .refl o⟩

theorem delayed_erase {m : Map SessionEntry} {uid : String} (u : String) (o : SessionEntry)
    (ho : (m.erase uid)[u]? = some o) (hdo : o.delayed) :
    ∃ e : SessionEntry, m[u]? = some e ∧ e.delayed := by
  rw [getElem?_erase_map] at ho
  split at ho
  · cases ho
  · exact ⟨o, ho, hdo⟩

/-- One record is rewritten, with a calm happening or none. -/
theorem Calm.of_insert {s t : Serving} {l : List Happening} {uid : String} {e e' : SessionEntry}
    (he : s.holder.sessions[uid]? = some e) (hr : Retains e e') (hd : e'.delayed → e.delayed)
    (hholder : t.holder = s.holder.setSession uid e') (hgreeted : t.helloDone = s.helloDone)
    (hhistory : t.history = s.history ++ l) (hl : ∀ x ∈ l, x.isCalm) : Calm s t where
  toTame := .of_sessions hhistory (fun x hx => Happening.isDeploy_of_isCalm (hl x hx))
    (by rw [hholder]; rfl) (by rw [hholder]; rfl) (by rw [hholder]; rfl) hgreeted
    (by rw [hholder]; exact delayed_insert he hd)
  calm := ⟨l, hhistory, hl⟩
  sessions := by
    rw [hholder]
    exact retains_insert he hr
  listeners kind hk := by
    rw [hholder]
    exact hk

theorem Calm.of_rewrite {s : Serving} {uid : String} {e e' : SessionEntry}
    (he : s.holder.sessions[uid]? = some e) (hr : Retains e e') (hd : e'.delayed → e.delayed) :
    Calm s (s.rewrite uid e') :=
  .of_insert he hr hd rfl rfl (List.append_nil _).symm (by simp)

theorem calm_push {s : Serving} {f : OutFrame} : Calm s (s.push f) :=
  calm_of_same rfl rfl (.inl rfl) rfl id rfl rfl

theorem Calm.pushFrame {f : OutFrame} {s : Serving} : Evolves Calm (Holder.pushFrame f) s :=
  calm_push

theorem Calm.replyOk {reqId : Nat} {s : Serving} : Evolves Calm (Holder.replyOk reqId) s :=
  calm_push

theorem Calm.replyErr {reqId : Nat} {code message : String} {s : Serving} :
    Evolves Calm (Holder.replyErr reqId code message) s := calm_push

/-- What holds of calm steps holds of tame ones. -/
theorem Tame.of_calm {α : Type} {m : Serve α} {s : Serving} (h : Evolves Calm m s) :
    Evolves Tame m s := h.toTame

/-! ## Calm verbs -/

section Verbs

variable {R : Serving → Serving → Prop} {reqId : Nat} {s : Serving}

theorem Evolves.withBodyOf {α : Type} {context : String} {body : Except String α}
    {handle : α → Serve PUnit} (herr : ∀ e, Evolves R (Holder.replyErr reqId errInvalid e) s)
    (h : ∀ b, body = .ok b → Evolves R (handle b) s) :
    Evolves R (Holder.withBody reqId context body handle) s := by
  cases body with
  | error e => exact herr _
  | ok b => exact h b rfl

theorem calm_signal {os : Os} {body : Except String SignalBody} :
    Evolves Calm (handleSignal os reqId body) s := by
  refine Evolves.withBodyOf (fun _ => Calm.replyErr) fun body _ => Evolves.bind_get ?_
  cases he : s.holder.sessions[body.uid]? with
  | none => exact Calm.replyErr
  | some e =>
    refine Evolves.ite (fun _ => Calm.replyErr) fun _ => ?_
    refine Evolves.ite (fun _ => Calm.pushFrame) fun _ => ?_
    cases os.sendSignal with
    | error err => exact Calm.replyErr
    | ok delivered =>
      cases delivered with
      | false => exact Calm.replyErr
      | true =>
        exact Evolves.bind_modify (.of_rewrite he ⟨id, rfl, rfl, rfl, rfl, rfl⟩ id) Calm.replyOk

theorem calm_updateCheckpoint {body : Except String UpdateCheckpointBody} :
    Evolves Calm (handleUpdateCheckpoint reqId body) s := by
  refine Evolves.withBodyOf (fun _ => Calm.replyErr) fun body _ => Evolves.bind_get ?_
  cases he : s.holder.record? body.uid body.incarnation with
  | none => exact Calm.replyErr
  | some e =>
    exact Evolves.bind_modify (.of_rewrite (Option.filter_eq_some_iff.mp he).1
      ⟨id, rfl, rfl, rfl, rfl, rfl⟩ id) Calm.replyOk

theorem calm_forget {body : Except String RecordBody} :
    Evolves Calm (handleForget reqId body) s := by
  refine Evolves.withBodyOf (fun _ => Calm.replyErr) fun body _ => Evolves.bind_get ?_
  cases he : s.holder.sessions[body.uid]? with
  | none => exact Calm.replyErr
  | some e =>
    refine Evolves.ite (fun _ => Calm.replyErr) fun _ => ?_
    refine Evolves.ite (fun _ => Calm.replyErr) fun _ => ?_
    refine Evolves.ite (fun _ => Calm.replyErr) fun _ => ?_
    refine Evolves.bind_modify ?_ Calm.replyOk
    exact
      { toTame := .of_sessions (l := [.forgotten body.uid e.incarnation]) rfl
          (by simp [Happening.isDeploy]) rfl rfl rfl rfl delayed_erase
        calm := ⟨[.forgotten body.uid e.incarnation], rfl, by simp [Happening.isCalm]⟩
        sessions := fun u o ho => by
          simp only [Serving.forget, Serving.note, Serving.setHolder, State.dropSession,
            getElem?_erase_map] at ho
          split at ho
          · cases ho
          · exact ⟨o, ho, .refl o⟩
        listeners := fun _ => id }

theorem calm_ackExit {body : Except String RecordBody} :
    Evolves Calm (handleAckExit reqId body) s := by
  refine Evolves.withBodyOf (fun _ => Calm.replyErr) fun body _ => Evolves.bind_get ?_
  cases he : s.holder.record? body.uid body.incarnation with
  | none => exact Calm.pushFrame
  | some e =>
    refine Evolves.bind_modify ?_ Calm.pushFrame
    have hrecord := (Option.filter_eq_some_iff.mp he).1
    refine @Calm.of_insert _ _ [.acked body.uid e.incarnation] _ e e.acked hrecord
      ⟨fun hx => ?_, rfl, rfl, rfl, rfl, rfl⟩ (fun hd => ⟨hd.1, hd.2.1, ?_⟩) rfl rfl rfl
      (by simp [Happening.isCalm])
    · simp [SessionEntry.acked, hx]
    · simpa [SessionEntry.acked] using hd.2.2

theorem calm_adopt {os : Os} : Evolves Calm (handleAdopt os reqId) s := by
  refine Evolves.bind_get (Evolves.bind (Evolves.forM (fun entry _ t => ?_) s) fun _ _ _ => ?_)
  · exact Evolves.ite (fun _ => Calm.pushFrame) fun _ => Calm.replyErr
  · refine Evolves.bind (Evolves.forM (fun l _ t => Calm.replyErr) _) fun _ _ _ => ?_
    exact Evolves.bind Calm.pushFrame fun _ _ _ => Calm.pushFrame

theorem calm_storeListener {body : Except String StoreListenerBody} {fds : List Fd} :
    Evolves Calm (handleStoreListener reqId body fds) s := by
  refine Evolves.withBodyOf (fun _ => Calm.replyErr) fun body _ => ?_
  match fds with
  | [fd] =>
    refine Evolves.bind_modify ?_ Calm.replyOk
    exact
      { toTame := .of_sessions (List.append_nil _).symm (by simp) rfl rfl rfl rfl
          fun _ e he hd => ⟨e, he, hd⟩
        calm := ⟨[], by simp [Serving.setHolder]⟩
        sessions := fun _ e he => ⟨e, he, .refl e⟩
        listeners := fun kind ⟨l, hl, hk⟩ => by
          by_cases hkind : kind = body.listener.kind
          · exact ⟨(body.listener, fd), by simp [Serving.setHolder, State.storeListenerCustody],
              hkind.symm⟩
          · exact ⟨l, by
              simp only [Serving.setHolder, State.storeListenerCustody, List.mem_append,
                List.mem_filter, List.mem_singleton]
              exact .inl ⟨hl, by simpa [hk] using hkind⟩, hk⟩ }
  | [] => exact Evolves.throw
  | _ :: _ :: _ => exact Evolves.throw

theorem calm_hello {body : Except String HelloBody} :
    Evolves Calm (handleHello reqId body) s := by
  cases body with
  | error e => exact Evolves.throw
  | ok hello =>
    refine Evolves.ite (fun _ => Evolves.bind Calm.replyErr fun _ _ _ => Evolves.throw) fun _ => ?_
    refine Evolves.bind_get (Evolves.bind Calm.pushFrame fun _ _ _ => Evolves.of_modify ?_)
    exact calm_of_same rfl rfl (.inl rfl) rfl (fun _ => rfl) rfl rfl

theorem calm_rehelloReply {body : Except String HelloBody} :
    Evolves Calm (handleRehelloReply body) s := by
  cases body with
  | error e => exact Evolves.throw
  | ok hello =>
    refine Evolves.ite (fun _ => Evolves.throw) fun _ => Evolves.of_modify ?_
    exact calm_of_same rfl rfl (.inl rfl) rfl id rfl rfl

end Verbs

/-! ## The serve loop -/

section Loop

variable {s : Serving}

theorem calm_handshakeTimer {now : Nat} : Evolves Calm (handshakeTimer now) s :=
  Evolves.bind_get (Evolves.refl_of after_refuse)

theorem calm_pingTimer {now : Nat} : Evolves Calm (pingTimer now) s := by
  refine Evolves.bind_get (Evolves.onlyIf fun _ => Evolves.bind_modify ?_ ?_)
  · exact calm_of_same rfl rfl (.inl rfl) rfl id rfl rfl
  · refine Evolves.bind_get (Evolves.bind_refuse fun _ => ?_)
    refine Evolves.bind Calm.pushFrame fun _ _ _ => Evolves.of_modify ?_
    exact calm_of_same rfl rfl (.inl rfl) rfl id rfl rfl

theorem calm_flushOutbound {f : Flush} : Evolves Calm (flushOutbound f) s := by
  cases f with
  | flushed n => exact Evolves.of_modify (calm_of_same rfl rfl (.inl rfl) rfl id rfl rfl)
  | peerGone => exact Evolves.throw
  | fatal reason => exact Evolves.throw

theorem calm_checkBacklog : Evolves Calm checkBacklog s :=
  Evolves.bind_get (Evolves.refl_of after_refuse)

theorem calm_surfaceUpgrade {idle : Bool} : Evolves Calm (surfaceUpgrade idle) s := by
  refine Evolves.bind_get ?_
  cases s.holder.pendingUpgrade with
  | none => exact Evolves.pure
  | some pin =>
    refine Evolves.onlyIf fun _ => Evolves.bind_modify ?_ Evolves.throw
    exact calm_of_same rfl rfl (.inr rfl) rfl id rfl rfl

theorem calm_childExit {child : Nat} {status : ExitStatus} : Calm s (s.childExit child status) := by
  unfold Serving.childExit
  split
  · exact
      { toTame := .of_sessions (l := [.exited child status]) rfl (by simp [Happening.isDeploy]) rfl
          rfl rfl rfl fun _ e he hd => ⟨e, he, hd⟩
        calm := ⟨[.exited child status], rfl, by simp [Happening.isCalm]⟩
        sessions := fun _ e he => ⟨e, he, .refl e⟩
        listeners := fun _ => id }
  · exact .refl s

end Loop

end Holder
