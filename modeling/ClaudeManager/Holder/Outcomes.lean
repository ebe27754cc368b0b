import ClaudeManager.Holder.Supervisor

/-!
# How serve calls end

A pass of the serve loop ends in a holder upgrade only by surfacing one.
-/

namespace Holder

open Json Containers Program

variable {os : Os} {reqId : Nat}

/-- The serve loop ends in a holder upgrade. -/
def IsUpgrade (outcome : ServeOutcome) : Prop := ∃ pin, outcome = .holderUpgrade pin

theorem not_isUpgrade_protocol {reason : String} : ¬ IsUpgrade (.protocol reason) := by
  rintro ⟨_, h⟩
  cases h

theorem never_push {f : OutFrame} : Never IsUpgrade (pushFrame f) := Never.of_modify

theorem Never.withBody {α : Type} {context : String} {body : Except String α}
    {handle : α → Serve PUnit} (h : ∀ b, Never IsUpgrade (handle b)) :
    Never IsUpgrade (Holder.withBody reqId context body handle) := by
  cases body with
  | error e => exact never_push
  | ok b => exact h b

theorem Never.unlessConflict {rest : Serve PUnit} (h : Never IsUpgrade rest) :
    Never IsUpgrade (Holder.unlessConflict reqId rest) := by
  refine Never.bind Never.get fun s => ?_
  cases s.holder.deployConflict with
  | none => exact h
  | some why => exact never_push

theorem never_modify_push {g : Serving → Serving} {f : OutFrame} :
    Never IsUpgrade (do modify g; pushFrame f : Serve PUnit) :=
  Never.bind Never.of_modify fun _ => never_push

theorem never_doSpawn {spec : SpawnBody} : Never IsUpgrade (doSpawn os spec) := by
  refine Never.ite Never.pure ?_
  cases os.spawn with
  | ok child => exact Never.bind Never.get fun _ => Never.bind Never.of_modify fun _ => Never.pure
  | error e =>
    cases e with
    | postSpawn e =>
      exact Never.bind Never.get fun _ => Never.bind Never.of_modify fun _ =>
        Never.bind Never.of_modify fun _ => Never.pure
    | emptyArgv => exact Never.pure
    | openpty e => exact Never.pure
    | exec e => exact Never.pure

theorem never_spawn {body : Except String SpawnBody} :
    Never IsUpgrade (handleSpawn os reqId body) := by
  refine Never.withBody fun spec => Never.bind Never.get fun s => ?_
  cases s.holder.sessions[spec.uid]? with
  | some existing => exact never_push
  | none =>
    refine Never.bind never_doSpawn fun r => ?_
    cases r with
    | error e => exact never_push
    | ok child =>
      refine Never.bind Never.get fun s => Never.bind Never.of_modify fun _ => ?_
      cases child.1.master with
      | none => exact never_modify_push
      | some master =>
        exact Never.ite (Never.bind never_push fun _ => Never.of_modify) never_modify_push

theorem never_armReap {body : Except String ArmReapBody} :
    Never IsUpgrade (handleArmReap os reqId body) := by
  refine Never.withBody fun body => Never.bind Never.get fun s => ?_
  cases s.holder.sessions[body.uid]? with
  | none => exact never_push
  | some e =>
    refine Never.ite never_push (Never.bind Never.of_modify fun _ => Never.bind never_push fun _ => ?_)
    refine Never.ite Never.of_modify ?_
    cases (e.armedBy body).exit.bind (·.pending) with
    | none => exact Never.pure
    | some event => exact Never.of_modify

theorem never_adopt : Never IsUpgrade (handleAdopt os reqId) := by
  refine Never.bind Never.get fun s => Never.bind (Never.forM fun entry => ?_) fun _ => ?_
  · exact Never.ite never_push never_push
  · refine Never.bind (Never.forM fun l => never_push) fun _ => ?_
    exact Never.bind never_push fun _ => never_push

theorem never_signal {body : Except String SignalBody} :
    Never IsUpgrade (handleSignal os reqId body) := by
  refine Never.withBody fun body => Never.bind Never.get fun s => ?_
  cases s.holder.sessions[body.uid]? with
  | none => exact never_push
  | some e =>
    refine Never.ite never_push (Never.ite never_push ?_)
    cases os.sendSignal with
    | error err => exact never_push
    | ok delivered =>
      cases delivered with
      | false => exact never_push
      | true => exact never_modify_push

/-- The verbs on one record name it by uid and incarnation. -/
theorem never_onRecord {uid : String} {incarnation : Nat}
    {g : SessionEntry → Serving → Serving} {f : SessionEntry → OutFrame} {f' : OutFrame} :
    Never IsUpgrade (do
      let s ← get
      match s.holder.record? uid incarnation with
      | none => pushFrame f'
      | some e => do
        modify (g e)
        pushFrame (f e) : Serve PUnit) := by
  refine Never.bind Never.get fun s => ?_
  cases s.holder.record? uid incarnation with
  | none => exact never_push
  | some e => exact never_modify_push

theorem never_sweep : Never IsUpgrade (sweepLatchedExits os) := by
  refine Never.bind Never.get fun s => Never.forM fun uid => Never.bind Never.get fun s => ?_
  cases s.holder.sessions[uid]? with
  | none => exact Never.pure
  | some e => exact Never.onlyIf Never.of_modify

theorem never_storeListener {body : Except String StoreListenerBody} {fds : List Fd} :
    Never IsUpgrade (handleStoreListener reqId body fds) := by
  refine Never.withBody fun body => ?_
  match fds with
  | [] => exact Never.throw not_isUpgrade_protocol
  | [fd] => exact never_modify_push
  | _ :: _ :: _ => exact Never.throw not_isUpgrade_protocol

theorem never_forget {body : Except String RecordBody} :
    Never IsUpgrade (handleForget reqId body) := by
  refine Never.withBody fun body => Never.bind Never.get fun s => ?_
  cases s.holder.sessions[body.uid]? with
  | none => exact never_push
  | some e =>
    exact Never.ite never_push (Never.ite never_push (Never.ite never_push never_modify_push))

theorem never_rollbackRecord {body : Except String RollbackRecordBody} :
    Never IsUpgrade (handleRollbackRecord reqId body) := by
  refine Never.withBody fun body => Never.bind Never.get fun s => ?_
  cases s.holder.sessions[body.uid]? with
  | none => exact never_push
  | some e => exact Never.ite never_push never_modify_push

/-- The deploy verbs take one descriptor, a pin. -/
theorem never_onPin {fds : List Fd} {reason : String} {handle : Fd → Serve PUnit}
    (h : ∀ pin, Never IsUpgrade (handle pin)) :
    Never IsUpgrade (match fds with
      | [pin] => handle pin
      | _ => throw (.protocol reason) : Serve PUnit) := by
  match fds with
  | [] => exact Never.throw not_isUpgrade_protocol
  | [pin] => exact h pin
  | _ :: _ :: _ => exact Never.throw not_isUpgrade_protocol

theorem never_splitRollback {body : Except String SplitRollbackBody} {fds : List Fd} :
    Never IsUpgrade (handleSplitRollback os reqId body fds) :=
  never_onPin fun _ => Never.unlessConflict (Never.withBody fun _ => Never.bind Never.get
    fun _ => Never.ite never_modify_push never_push)

theorem never_dispatchVerb {frame : Inbound} : Never IsUpgrade (dispatchVerb os frame reqId) := by
  unfold dispatchVerb
  cases frame.request with
  | spawn body => exact never_spawn
  | armReap body => exact never_armReap
  | adopt => exact never_adopt
  | signal body => exact never_signal
  | abortSpawn body => exact Never.withBody fun _ => never_onRecord
  | updateCheckpoint body => exact Never.withBody fun _ => never_onRecord
  | storeListener body => exact never_storeListener
  | restartBrain => exact Never.unlessConflict (never_onPin fun _ => never_modify_push)
  | rollbackBrain =>
    exact Never.unlessConflict (Never.bind Never.get fun _ => Never.ite never_modify_push never_push)
  | cancelPending =>
    exact Never.bind Never.get fun _ => Never.bind Never.of_modify fun _ =>
      Never.bind never_sweep fun _ => never_push
  | rollbackRecord body => exact never_rollbackRecord
  | splitRollback body => exact never_splitRollback
  | reexecHolder =>
    exact never_onPin fun _ => Never.unlessConflict (Never.ite never_modify_push never_push)
  | forget body => exact never_forget
  | ackExit body =>
    refine Never.withBody fun body => Never.bind Never.get fun s => ?_
    cases s.holder.record? body.uid body.incarnation with
    | none => exact never_push
    | some e => exact never_modify_push
  | status => exact Never.bind Never.get fun _ => never_push
  | hello body => exact Never.throw not_isUpgrade_protocol
  | pong => exact Never.pure
  | other v => exact never_push

theorem never_hello {body : Except String HelloBody} :
    Never IsUpgrade (handleHello reqId body) := by
  cases body with
  | error e => exact Never.throw not_isUpgrade_protocol
  | ok hello =>
    refine Never.ite (Never.bind never_push fun _ => Never.throw ?_) ?_
    · rintro ⟨_, h⟩
      cases h
    · exact Never.bind Never.get fun _ => Never.bind never_push fun _ => Never.of_modify

theorem never_rehelloReply {body : Except String HelloBody} :
    Never IsUpgrade (handleRehelloReply body) := by
  cases body with
  | error e => exact Never.throw not_isUpgrade_protocol
  | ok hello => exact Never.ite (Never.throw not_isUpgrade_protocol) Never.of_modify

theorem never_dispatch {frame : Inbound} : Never IsUpgrade (dispatch os frame) := by
  refine Never.bind (Never.refuse not_isUpgrade_protocol) fun _ => ?_
  split
  · exact Never.of_modify
  · exact Never.throw not_isUpgrade_protocol
  · refine Never.bind Never.get fun s => Never.ite ?_ ?_
    · cases frame.request <;> first | exact never_hello | exact Never.throw not_isUpgrade_protocol
    · cases frame.rehelloReply? _ s.holder.rehelloPending with
      | some body => exact never_rehelloReply
      | none => exact never_dispatchVerb

theorem never_readChannel {read : ChannelRead} : Never IsUpgrade (readChannel read) := by
  cases read with
  | notReady => exact Never.pure
  | eof =>
    refine Never.throw ?_
    rintro ⟨_, h⟩
    cases h
  | violated reason => exact Never.throw not_isUpgrade_protocol
  | frames incoming violated =>
    refine Never.bind (Never.forM fun i => ?_) fun _ => ?_
    · cases i with
      | frame os frame => exact never_dispatch
      | childExit child status => exact Never.of_modify
    · cases violated with
      | none => exact Never.pure
      | some reason => exact Never.throw not_isUpgrade_protocol

theorem never_childExits {polled exited : List String} :
    Never IsUpgrade (childExits os polled exited) := by
  refine Never.bind Never.get fun s => Never.forM fun uid => Never.bind Never.get fun t => ?_
  cases t.holder.sessions[uid]? with
  | none => exact Never.pure
  | some e => exact Never.ite Never.of_modify Never.of_modify

theorem never_flushOutbound {f : Flush} : Never IsUpgrade (flushOutbound f) := by
  cases f with
  | flushed n => exact Never.of_modify
  | peerGone =>
    refine Never.throw ?_
    rintro ⟨_, h⟩
    cases h
  | fatal reason => exact Never.throw not_isUpgrade_protocol

theorem never_beforeChannel {p : Poll} : Never IsUpgrade (beforeChannel p) := by
  refine Never.bind Never.get fun s => Never.bind ?timeout fun _ => Never.bind ?disarm fun _ =>
    Never.bind ?ping fun _ => Never.bind ?shutdown fun _ => never_childExits
  case timeout => exact Never.bind Never.get fun _ => Never.refuse (by rintro ⟨_, h⟩; cases h)
  case disarm =>
    exact Never.bind Never.get fun _ => Never.onlyIf (Never.bind Never.of_modify fun _ => never_sweep)
  case ping =>
    refine Never.bind Never.get fun _ => Never.onlyIf (Never.bind Never.of_modify fun _ =>
      Never.bind Never.get fun _ => Never.bind (Never.refuse ?_) fun _ =>
      Never.bind never_push fun _ => Never.of_modify)
    rintro ⟨_, h⟩
    cases h
  case shutdown => exact Never.refuse (by rintro ⟨_, h⟩; cases h)

theorem never_checkBacklog : Never IsUpgrade checkBacklog :=
  Never.bind Never.get fun _ => Never.refuse (by rintro ⟨_, h⟩; cases h)

/-- A pass that ends in a holder upgrade went through all its parts. -/
theorem upgrade_surfaced {p : Poll} {s t : Serving} {pin : Fd}
    (h : iterate p s = .error (.holderUpgrade pin) t) :
    ∃ s', (do beforeChannel p; readChannel p.channel; flushOutbound p.flush; checkBacklog) s
        = .ok ⟨⟩ s' ∧ surfaceUpgrade p.readerIdle s' = .error (.holderUpgrade pin) t := by
  have hq : IsUpgrade (.holderUpgrade pin) := ⟨pin, rfl⟩
  unfold iterate at h
  cases hr : p.result with
  | interrupted =>
    rw [hr] at h
    cases h
  | failed err =>
    rw [hr] at h
    cases h
  | ready =>
    rw [hr] at h
    obtain ⟨_, s₁, h₁, h⟩ := never_beforeChannel.bind_error h hq
    obtain ⟨_, s₂, h₂, h⟩ := never_readChannel.bind_error h hq
    obtain ⟨_, s₃, h₃, h⟩ := never_flushOutbound.bind_error h hq
    obtain ⟨_, s₄, h₄, h⟩ := never_checkBacklog.bind_error h hq
    exact ⟨s₄, bind_ok.mpr ⟨_, _, h₁, bind_ok.mpr ⟨_, _, h₂, bind_ok.mpr ⟨_, _, h₃, h₄⟩⟩⟩, h⟩

/-- An upgrade surfaces where it was accepted, and is no longer pending. -/
theorem surfaceUpgrade_error {idle : Bool} {s t : Serving} {outcome : ServeOutcome}
    (h : surfaceUpgrade idle s = .error outcome t) : ∃ pin,
      s.holder.pendingUpgrade = some pin ∧ outcome = .holderUpgrade pin ∧
      t = s.setHolder { s.holder with pendingUpgrade := none } := by
  unfold surfaceUpgrade at h
  rw [bind_get_error] at h
  cases hp : s.holder.pendingUpgrade with
  | none =>
    rw [hp] at h
    cases h
  | some pin =>
    rw [hp] at h
    obtain ⟨-, h⟩ := onlyIf_error.mp h
    cases h
    exact ⟨pin, rfl, rfl, rfl⟩

end Holder
