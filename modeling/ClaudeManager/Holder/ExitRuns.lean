import ClaudeManager.Holder.Exits

/-!
# Runs and the exits of session children

Each verb, each pass of the serve loop and each action of the supervisor keeps the books.
-/

namespace Holder

open Containers Program

/-- Keeping the books. -/
abbrev KeepsBooks : Serving → Serving → Prop := Keeps fun s => Books s.book

/-! ## Effects -/

/-- What leaves the book alone keeps it. -/
theorem keeps_of_book {s t : Serving} (h : t.book = s.book) : KeepsBooks s t := by
  intro hs
  rw [h]
  exact hs

@[simp] theorem book_push (s : Serving) (f : OutFrame) : (s.push f).book = s.book := rfl

theorem Evolves.push {f : OutFrame} {s : Serving} : Evolves KeepsBooks (pushFrame f) s :=
  keeps_of_book (book_push s f)

theorem Evolves.replyOk {reqId : Nat} {s : Serving} :
    Evolves KeepsBooks (Holder.replyOk reqId) s := Evolves.push

theorem Evolves.replyErr {reqId : Nat} {code message : String} {s : Serving} :
    Evolves KeepsBooks (Holder.replyErr reqId code message) s := Evolves.push

theorem Evolves.withBody {α : Type} {reqId : Nat} {context : String} {body : Except String α}
    {handle : α → Serve PUnit} {s : Serving} (h : ∀ b, Evolves KeepsBooks (handle b) s) :
    Evolves KeepsBooks (Holder.withBody reqId context body handle) s := by
  cases body with
  | error e => exact Evolves.replyErr
  | ok b => exact h b

/-- The exit of an armed record whose child exited is consumed. -/
theorem books_consumedExit {s : Serving} (h : Books s.book) {os : Os} {uid : String}
    {e : SessionEntry} (he : s.holder.sessions[uid]? = some e) (hexit : e.exit = none)
    (harmed : e.reapArmed) (hrun : s.kernel.procs e.pidfd.child ≠ .running) :
    Books (s.consumedExit os uid e).book := by
  have hlive := (h.records uid e he).live hexit
  obtain ⟨status, hz⟩ : ∃ status, s.kernel.procs e.pidfd.child = .zombie status := by
    cases hp : s.kernel.procs e.pidfd.child with
    | running => exact absurd hp hrun
    | zombie status => exact ⟨status, rfl⟩
    | reaped => exact absurd hp hlive
  have hwait : s.kernel.waitStatus e.pidfd.child = status := by simp [Kernel.waitStatus, hz]
  have hc := @Books.consume _ h _ _ (exitEvent os uid e status) he hexit harmed _ hz rfl rfl rfl
  have hreap : s.reap e.pidfd.child .exit = _ := if_neg (by rw [hz]; simp)
  unfold Serving.consumedExit
  rw [hwait, hreap]
  by_cases hready : e.deliveryReady
  · have hs := @Books.send _ hc uid (e.exited (exitEvent os uid e status))
      (exitEvent os uid e status) (by simp) hready ⟨_, rfl⟩
    simp only [hready, if_true]
    exact hs
  · simp only [hready, Bool.false_eq_true, if_false]
    exact hc

/-! ## Verbs -/

/-- Waiting for a child keeps what else a state holds. -/
theorem books_abort {s : Serving} (h : Books s.book) {uid : String} {e : SessionEntry}
    (he : s.holder.sessions[uid]? = some e) : Books (s.abort uid e).book := by
  have hd := h.drop (x := .aborted uid e.incarnation) he (.inl rfl)
  unfold Serving.abort Serving.reap
  split
  · exact hd
  · rename_i hlive
    obtain ⟨m, hm⟩ := (h.records uid e he).held
    refine hd.waitFor (h.minted _ _ _ _ hm).2 hlive (fun u o ho => ?_) (by simp)
    simp only [getElem?_erase_map] at ho
    split at ho
    · cases ho
    · rename_i hu
      exact h.child_ne he ho hu

theorem doSpawn_error {os : Os} {spec : SpawnBody} {err : SpawnError}
    (h : spec.argv.isEmpty ∨ os.spawn = .error err) {s : Serving} :
    ∃ e, (doSpawn os spec s = .ok (.error e) s) ∨
      doSpawn os spec s = .ok (.error e) (s.fork.reap s.kernel.forked .failedSpawn) := by
  unfold doSpawn
  by_cases hargv : spec.argv.isEmpty
  · rw [if_pos hargv]
    exact ⟨_, .inl rfl⟩
  · rw [if_neg hargv, h.resolve_left hargv]
    cases err with
    | postSpawn e => exact ⟨_, .inr rfl⟩
    | emptyArgv => exact ⟨_, .inl rfl⟩
    | openpty e => exact ⟨_, .inl rfl⟩
    | exec e => exact ⟨_, .inl rfl⟩

theorem doSpawn_ok {os : Os} {spec : SpawnBody} {spawned : Spawned}
    (hargv : ¬ spec.argv.isEmpty) (h : os.spawn = .ok spawned) {s : Serving} :
    doSpawn os spec s = .ok (.ok (spawned, s.kernel.forked)) s.fork := by
  unfold doSpawn
  rw [if_neg hargv, h]
  rfl

/-- The child that was just forked is torn down. -/
theorem reap_fork {s : Serving} (h : Books s.book) :
    s.fork.reap s.kernel.forked .failedSpawn = { s.fork with
      kernel := ⟨Function.update s.kernel.procs s.kernel.forked .reaped, s.kernel.forked + 1⟩
      history := s.history ++ [.consumed s.kernel.forked .failedSpawn] } := by
  have hlive : s.kernel.procs s.kernel.forked = .running := h.unborn _ le_rfl
  unfold Serving.reap
  rw [if_neg (by simp [Serving.fork, hlive])]
  rfl

theorem books_spawn {s : Serving} {os : Os} {reqId : Nat} {body : Except String SpawnBody} :
    Evolves KeepsBooks (handleSpawn os reqId body) s := by
  refine Evolves.withBody fun spec => Evolves.bind_get (Evolves.assuming fun h => ?_)
  cases hs : s.holder.sessions[spec.uid]? with
  | some existing => exact Evolves.push
  | none =>
    by_cases hargv : spec.argv.isEmpty ∨ ∃ err, os.spawn = .error err
    · obtain ⟨err, herr⟩ : ∃ err, spec.argv.isEmpty ∨ os.spawn = .error err := by
        rcases hargv with hargv | ⟨err, herr⟩
        · exact ⟨.emptyArgv, .inl hargv⟩
        · exact ⟨err, .inr herr⟩
      obtain ⟨e, hspawn | hspawn⟩ := doSpawn_error (s := s) herr
      · refine Evolves.bind (Evolves.refl_of (after_ok hspawn)) fun a s' ha => ?_
        rw [hspawn] at ha
        cases ha
        exact Evolves.replyErr
      · refine Evolves.bind ?_ fun a s' ha => ?_
        · rw [Evolves, after_ok hspawn, reap_fork h]
          exact fun _ => h.tearDown le_rfl (by simp)
        · rw [hspawn] at ha
          cases ha
          exact Evolves.replyErr
    · simp only [not_or, not_exists] at hargv
      obtain ⟨spawned, hok⟩ : ∃ spawned, os.spawn = .ok spawned := by
        cases hsp : os.spawn with
        | ok spawned => exact ⟨spawned, rfl⟩
        | error err => exact absurd hsp (hargv.2 err)
      have hspawn := doSpawn_ok hargv.1 hok (s := s)
      -- the fork is undone by a teardown or completed by a record, so it is not looked at alone
      have hdown : Books (s.fork.mint.reap s.kernel.forked .failedSpawn).book := by
        have : s.fork.mint.reap s.kernel.forked .failedSpawn
            = (s.fork.reap s.kernel.forked .failedSpawn).mint := by
          unfold Serving.reap
          split <;> simp_all [Serving.mint, Serving.setHolder, Serving.fork, Serving.note]
        rw [this, reap_fork h]
        exact h.tearDown (Nat.le_succ _) (by simp)
      have hheld : ∀ master, Books (((s.fork.mint.push master).hold spec.uid
          (spawnedEntry spec spawned s.kernel.forked s.holder.nextIncarnation))).book :=
        fun _ => h.hold (e := spawnedEntry spec spawned s.kernel.forked s.holder.nextIncarnation)
          hs rfl rfl rfl rfl rfl
      unfold Evolves
      rw [after_bind hspawn]
      intro _
      simp only [after_bind_get, after_bind_modify]
      cases hm : spawned.master with
      | none => exact hdown
      | some master =>
        simp only
        split
        · exact hheld _
        · exact hdown

theorem record?_eq_some {h : State} {uid : String} {incarnation : Nat} {e : SessionEntry} :
    h.record? uid incarnation = some e ↔ h.sessions[uid]? = some e ∧ e.incarnation = incarnation := by
  simp [State.record?, Option.filter_eq_some_iff]

theorem books_armReap {s : Serving} {os : Os} {reqId : Nat} {body : Except String ArmReapBody} :
    Evolves KeepsBooks (handleArmReap os reqId body) s := by
  refine Evolves.withBody fun body => Evolves.bind_get (Evolves.assuming fun h => ?_)
  cases he : s.holder.sessions[body.uid]? with
  | none => exact Evolves.replyErr
  | some e =>
    refine Evolves.ite (fun _ => Evolves.replyErr) fun _ => ?_
    by_cases hlatched : (e.armedBy body).exitLatched ∧ (e.armedBy body).exit.isNone
    · -- a latched exit: nothing was pending, so the arm stands alone
      have hexit : e.exit = none := by simpa [SessionEntry.armedBy] using hlatched.2
      have harm := h.arm body he (by simp [hexit])
      refine Evolves.bind_modify (fun _ => harm) (Evolves.bind Evolves.replyOk fun _ s' hs' => ?_)
      obtain rfl := modify_ok.mp hs'
      rw [if_pos hlatched]
      refine Evolves.of_modify fun hs => ?_
      have hrec := h.records body.uid e he
      exact books_consumedExit hs (by simp [Serving.push, Serving.arm, Serving.note,
        Serving.setHolder, State.setSession]) hexit rfl (hrec.latched hlatched.1)
    · cases hpend : (e.armedBy body).exit.bind (·.pending) with
      | none =>
        have harm := h.arm body he fun at' ev hexit => by
          simp [SessionEntry.armedBy, hexit] at hpend
        refine Evolves.bind_modify (fun _ => harm) (Evolves.bind Evolves.replyOk fun _ s' _ => ?_)
        rw [if_neg hlatched]
        simp only [hpend]
        exact Evolves.pure
      | some event =>
        obtain ⟨⟨at', pending⟩, hexit, hp⟩ := Option.bind_eq_some_iff.mp hpend
        simp only at hp
        subst hp
        intro _
        simp only [after_bind_modify, Holder.replyOk, pushFrame, if_neg hlatched, hpend]
        exact h.armSend body he hexit

/-- A record's fields that no exit depends on are rewritten. -/
theorem books_rewrite {s : Serving} (h : Books s.book) {uid : String} {e e' : SessionEntry}
    (he : s.holder.sessions[uid]? = some e) (hchild : e'.pidfd = e.pidfd)
    (hinc : e'.incarnation = e.incarnation) (hexit : e'.exit = e.exit)
    (harmed : e'.reapArmed = e.reapArmed) (hready : e'.deliveryReady = e.deliveryReady)
    (hlatched : e'.exitLatched → s.kernel.procs e.pidfd.child ≠ .running) :
    Books (s.rewrite uid e').book := by
  have hrec := h.records uid e he
  refine h.rewrite he (by rw [hchild]) hinc hexit ⟨?_, ?_, ?_, ?_, ?_, ?_⟩
  · rw [hchild, hinc]
    exact hrec.held
  · rw [hchild, hexit]
    exact hrec.live
  · rw [hchild, hinc, hexit]
    exact hrec.gone
  · rw [hchild, hinc, harmed]
    exact hrec.armed
  · rw [hinc, hready]
    exact hrec.ready
  · rw [hchild]
    exact hlatched

theorem books_signal {s : Serving} {os : Os} {reqId : Nat} {body : Except String SignalBody} :
    Evolves KeepsBooks (handleSignal os reqId body) s := by
  refine Evolves.withBody fun body => Evolves.bind_get (Evolves.assuming fun h => ?_)
  cases he : s.holder.sessions[body.uid]? with
  | none => exact Evolves.replyErr
  | some e =>
    refine Evolves.ite (fun _ => Evolves.replyErr) fun _ => ?_
    refine Evolves.ite (fun _ => Evolves.push) fun _ => ?_
    cases os.sendSignal with
    | error err => exact Evolves.replyErr
    | ok delivered =>
      cases delivered with
      | false => exact Evolves.replyErr
      | true =>
        exact Evolves.bind_modify
          (fun _ => books_rewrite h he rfl rfl rfl rfl rfl (h.records _ e he).latched)
          Evolves.replyOk

theorem books_abortSpawn {s : Serving} {reqId : Nat} {body : Except String RecordBody} :
    Evolves KeepsBooks (handleAbortSpawn reqId body) s := by
  refine Evolves.withBody fun body => Evolves.bind_get (Evolves.assuming fun h => ?_)
  cases he : s.holder.record? body.uid body.incarnation with
  | none => exact Evolves.replyErr
  | some e =>
    exact Evolves.bind_modify (fun _ => books_abort h (record?_eq_some.mp he).1) Evolves.replyOk

theorem books_updateCheckpoint {s : Serving} {reqId : Nat}
    {body : Except String UpdateCheckpointBody} :
    Evolves KeepsBooks (handleUpdateCheckpoint reqId body) s := by
  refine Evolves.withBody fun body => Evolves.bind_get (Evolves.assuming fun h => ?_)
  cases he : s.holder.record? body.uid body.incarnation with
  | none => exact Evolves.replyErr
  | some e =>
    have he' := (record?_eq_some.mp he).1
    exact Evolves.bind_modify
      (fun _ => books_rewrite h he' rfl rfl rfl rfl rfl (h.records _ e he').latched) Evolves.replyOk

theorem books_rollbackRecord {s : Serving} {reqId : Nat}
    {body : Except String RollbackRecordBody} :
    Evolves KeepsBooks (handleRollbackRecord reqId body) s := by
  refine Evolves.withBody fun body => Evolves.bind_get (Evolves.assuming fun h => ?_)
  cases he : s.holder.sessions[body.uid]? with
  | none => exact Evolves.replyErr
  | some e =>
    refine Evolves.ite (fun _ => Evolves.replyErr) fun _ => ?_
    exact Evolves.bind_modify
      (fun _ => books_rewrite h he rfl rfl rfl rfl rfl (h.records _ e he).latched) Evolves.replyOk

theorem books_forget {s : Serving} {reqId : Nat} {body : Except String RecordBody} :
    Evolves KeepsBooks (handleForget reqId body) s := by
  refine Evolves.withBody fun body => Evolves.bind_get (Evolves.assuming fun h => ?_)
  cases he : s.holder.sessions[body.uid]? with
  | none => exact Evolves.replyErr
  | some e =>
    refine Evolves.ite (fun _ => Evolves.replyErr) fun _ => ?_
    refine Evolves.ite (fun _ => Evolves.replyErr) fun hexit => ?_
    refine Evolves.ite (fun _ => Evolves.replyErr) fun hpend => ?_
    refine Evolves.bind_modify (fun _ => ?_) Evolves.replyOk
    obtain ⟨x, hx⟩ : ∃ x, e.exit = some x := Option.ne_none_iff_exists'.mp (by simpa using hexit)
    have hnone : x.pending = none := by simpa [SessionEntry.hasPending, hx] using hpend
    exact h.drop he (.inr ⟨rfl, x.exitedAt, by rw [hx, ← hnone]⟩)

theorem books_ackExit {s : Serving} {reqId : Nat} {body : Except String RecordBody} :
    Evolves KeepsBooks (handleAckExit reqId body) s := by
  refine Evolves.withBody fun body => Evolves.bind_get (Evolves.assuming fun h => ?_)
  cases he : s.holder.record? body.uid body.incarnation with
  | none => exact Evolves.push
  | some e => exact Evolves.bind_modify (fun _ => h.ack (record?_eq_some.mp he).1) Evolves.push

theorem books_adopt {s : Serving} {os : Os} {reqId : Nat} :
    Evolves KeepsBooks (handleAdopt os reqId) s := by
  refine Evolves.bind_get (Evolves.bind (Evolves.forM (fun entry _ t => ?_) s) fun _ _ _ => ?_)
  · exact Evolves.ite (fun _ => Evolves.push) fun _ => Evolves.replyErr
  · refine Evolves.bind (Evolves.forM (fun l _ t => Evolves.replyErr) _) fun _ _ _ => ?_
    exact Evolves.bind Evolves.push fun _ _ _ => Evolves.push

theorem books_storeListener {s : Serving} {reqId : Nat} {body : Except String StoreListenerBody}
    {fds : List Fd} : Evolves KeepsBooks (handleStoreListener reqId body fds) s := by
  refine Evolves.withBody fun body => ?_
  match fds with
  | [fd] => exact Evolves.bind_modify (keeps_of_book rfl) Evolves.replyOk
  | [] => exact Evolves.throw
  | _ :: _ :: _ => exact Evolves.throw

/-! ### Deploys -/

theorem books_armDeploy {s : Serving} {deploy : ArmedDeploy} {now : Nat} :
    KeepsBooks s (s.armDeploy deploy now) := fun h => h.inert trivial

theorem books_disarm {s : Serving} : KeepsBooks s s.disarm := by
  intro h
  unfold Serving.disarm
  split
  · exact h.inert trivial
  · exact h

theorem books_sweepLatched {s : Serving} {os : Os} {uid : String} :
    Evolves KeepsBooks (sweepLatched os uid) s := by
  refine Evolves.bind_get (Evolves.assuming fun h => ?_)
  cases he : s.holder.sessions[uid]? with
  | none => exact Evolves.pure
  | some e =>
    refine Evolves.onlyIf fun ⟨hl, ha, hx⟩ => Evolves.of_modify fun _ => ?_
    exact books_consumedExit h he (by simpa using hx) ha ((h.records uid e he).latched hl)

theorem books_sweepLatchedExits {s : Serving} {os : Os} :
    Evolves KeepsBooks (sweepLatchedExits os) s :=
  Evolves.bind_get (Evolves.forM (fun _ _ _ => books_sweepLatched) s)

theorem Evolves.unlessConflict {reqId : Nat} {rest : Serve PUnit} {s : Serving}
    (h : Evolves KeepsBooks rest s) : Evolves KeepsBooks (Holder.unlessConflict reqId rest) s := by
  refine Evolves.bind_get ?_
  cases s.holder.deployConflict with
  | none => exact h
  | some why => exact Evolves.replyErr

theorem books_splitRollback {s : Serving} {os : Os} {reqId : Nat}
    {body : Except String SplitRollbackBody} {fds : List Fd} :
    Evolves KeepsBooks (handleSplitRollback os reqId body fds) s := by
  match fds with
  | [] => exact Evolves.throw
  | _ :: _ :: _ => exact Evolves.throw
  | [pin] =>
    refine Evolves.unlessConflict (Evolves.withBody fun body => Evolves.bind_get ?_)
    exact Evolves.ite (fun _ => Evolves.bind_modify books_armDeploy Evolves.replyOk)
      fun _ => Evolves.push

theorem books_restartBrain {s : Serving} {os : Os} {reqId : Nat} {fds : List Fd} :
    Evolves KeepsBooks (handleRestartBrain os reqId fds) s := by
  refine Evolves.unlessConflict ?_
  match fds with
  | [] => exact Evolves.throw
  | _ :: _ :: _ => exact Evolves.throw
  | [pin] => exact Evolves.bind_modify books_armDeploy Evolves.replyOk

theorem books_rollbackBrain {s : Serving} {os : Os} {reqId : Nat} :
    Evolves KeepsBooks (handleRollbackBrain os reqId) s :=
  Evolves.unlessConflict (Evolves.bind_get (Evolves.ite
    (fun _ => Evolves.bind_modify books_armDeploy Evolves.replyOk) fun _ => Evolves.replyErr))

theorem books_cancelPending {s : Serving} {os : Os} {reqId : Nat} :
    Evolves KeepsBooks (handleCancelPending os reqId) s :=
  Evolves.bind_get (Evolves.bind_modify books_disarm
    (Evolves.bind books_sweepLatchedExits fun _ _ _ => Evolves.push))

theorem books_reexecHolder {s : Serving} {os : Os} {reqId : Nat} {fds : List Fd} :
    Evolves KeepsBooks (handleReexecHolder os reqId fds) s := by
  match fds with
  | [] => exact Evolves.throw
  | _ :: _ :: _ => exact Evolves.throw
  | [pin] =>
    exact Evolves.unlessConflict (Evolves.ite
      (fun _ => Evolves.bind_modify (keeps_of_book rfl) Evolves.replyOk) fun _ => Evolves.replyErr)

/-! ### Frames -/

theorem books_dispatchVerb {s : Serving} {os : Os} {frame : Inbound} {reqId : Nat} :
    Evolves KeepsBooks (dispatchVerb os frame reqId) s := by
  unfold dispatchVerb
  cases frame.request with
  | spawn body => exact books_spawn
  | armReap body => exact books_armReap
  | adopt => exact books_adopt
  | signal body => exact books_signal
  | abortSpawn body => exact books_abortSpawn
  | updateCheckpoint body => exact books_updateCheckpoint
  | storeListener body => exact books_storeListener
  | restartBrain => exact books_restartBrain
  | rollbackBrain => exact books_rollbackBrain
  | cancelPending => exact books_cancelPending
  | rollbackRecord body => exact books_rollbackRecord
  | splitRollback body => exact books_splitRollback
  | reexecHolder => exact books_reexecHolder
  | forget body => exact books_forget
  | ackExit body => exact books_ackExit
  | status => exact Evolves.bind_get Evolves.push
  | hello body => exact Evolves.throw
  | pong => exact Evolves.pure
  | other v => exact Evolves.replyErr

theorem books_hello {s : Serving} {reqId : Nat} {body : Except String HelloBody} :
    Evolves KeepsBooks (handleHello reqId body) s := by
  cases body with
  | error e => exact Evolves.throw
  | ok hello =>
    refine Evolves.ite (fun _ => Evolves.bind Evolves.replyErr fun _ _ _ => Evolves.throw) fun _ => ?_
    exact Evolves.bind_get (Evolves.bind Evolves.push fun _ _ _ =>
      Evolves.of_modify (keeps_of_book rfl))

theorem books_rehelloReply {s : Serving} {body : Except String HelloBody} :
    Evolves KeepsBooks (handleRehelloReply body) s := by
  cases body with
  | error e => exact Evolves.throw
  | ok hello =>
    exact Evolves.ite (fun _ => Evolves.throw) fun _ => Evolves.of_modify (keeps_of_book rfl)

theorem books_dispatchRequest {s : Serving} {os : Os} {frame : Inbound} {reqId : Nat} :
    Evolves KeepsBooks (dispatchRequest os frame reqId) s := by
  refine Evolves.bind_get (Evolves.ite (fun _ => ?_) fun _ => ?_)
  · cases frame.request <;> first | exact books_hello | exact Evolves.throw
  · cases frame.rehelloReply? reqId s.holder.rehelloPending with
    | some body => exact books_rehelloReply
    | none => exact books_dispatchVerb

theorem books_dispatch {s : Serving} {os : Os} {frame : Inbound} :
    Evolves KeepsBooks (dispatch os frame) s := by
  refine Evolves.bind_refuse fun _ => ?_
  split
  · exact Evolves.of_modify (keeps_of_book rfl)
  · exact Evolves.throw
  · exact books_dispatchRequest

/-! ## The serve loop -/

/-- The exits of the sessions `uids` were reported by a poll and are not handled yet. -/
def Watched (uids : List String) (s : Serving) : Prop :=
  ∀ uid ∈ uids, ∀ e, s.holder.sessions[uid]? = some e →
    e.exit = none ∧ e.exitLatched = false ∧ s.kernel.procs e.pidfd.child ≠ .running

/-- The books are kept, and the reported exits wait. -/
def BooksWatched (uids : List String) (s : Serving) : Prop := Books s.book ∧ Watched uids s

theorem watched_polled {p : Poll} {s : Serving} (h : p.Sound s) :
    Watched (s.holder.polled.filter (· ∈ p.exited)) s := by
  intro uid hu e he
  obtain ⟨hpolled, hexited⟩ := List.mem_filter.mp hu
  have hsound := h.1 uid (by simpa using hexited)
  rw [he] at hsound
  simp only [State.polled, List.mem_map, List.mem_filter, Prod.exists, exists_and_right,
    exists_eq_right] at hpolled
  obtain ⟨e', hmem, hcond⟩ := hpolled
  rw [mem_toList_map, he, Option.some.injEq] at hmem
  subst hmem
  simp only [Option.isNone_iff_eq_none, Bool.not_eq_true, Bool.decide_and,
    decide_eq_true_eq, Bool.and_eq_true] at hcond
  exact ⟨by simpa using hcond.1, by simpa using hcond.2, by simpa using hsound⟩

/-- Consuming one exit leaves the other reported ones. -/
theorem watched_consumedExit {uids : List String} {os : Os} {uid : String} {e : SessionEntry}
    {s : Serving} (hw : Watched uids s) (hnot : uid ∉ uids) :
    Watched uids (s.consumedExit os uid e) := by
  intro u hu o ho
  have hne : u ≠ uid := fun heq => hnot (heq ▸ hu)
  have hsessions : (s.consumedExit os uid e).holder.sessions = s.holder.sessions.insert uid
      (e.exited (exitEvent os uid e (s.kernel.waitStatus e.pidfd.child))) := by
    unfold Serving.consumedExit Serving.reap
    split <;> split <;> rfl
  have hprocs : (s.consumedExit os uid e).kernel.procs =
      Function.update s.kernel.procs e.pidfd.child .reaped ∨
      (s.consumedExit os uid e).kernel.procs = s.kernel.procs := by
    unfold Serving.consumedExit Serving.reap
    split <;> split <;> simp [Serving.note, Serving.setHolder, Serving.sendExit, Serving.push]
  rw [hsessions, getElem?_insert_map, if_neg hne] at ho
  obtain ⟨hexit, hlatched, hrun⟩ := hw u hu o ho
  refine ⟨hexit, hlatched, ?_⟩
  rcases hprocs with hp | hp <;> rw [hp]
  · rw [Function.update_apply]
    split
    · decide
    · exact hrun
  · exact hrun

/-- Reported exits are not among the latched ones, so sweeping leaves them. -/
theorem watched_sweepLatched {uids : List String} {os : Os} {uid : String} {s : Serving} :
    Evolves (Keeps (BooksWatched uids)) (sweepLatched os uid) s := by
  refine Evolves.bind_get (Evolves.assuming fun ⟨h, hw⟩ => ?_)
  cases he : s.holder.sessions[uid]? with
  | none => exact Evolves.pure
  | some e =>
    refine Evolves.onlyIf fun ⟨hl, ha, hx⟩ => Evolves.of_modify fun _ => ?_
    refine ⟨books_consumedExit h he (by simpa using hx) ha ((h.records uid e he).latched hl),
      watched_consumedExit hw fun hu => ?_⟩
    rw [(hw uid hu e he).2.1] at hl
    cases hl

theorem watched_disarmTimer {uids : List String} {os : Os} {s : Serving} :
    Evolves (Keeps (BooksWatched uids)) (disarmTimer os) s := by
  refine Evolves.bind_get (Evolves.onlyIf fun _ => Evolves.bind_modify (fun ⟨h, hw⟩ => ?_) ?_)
  · refine ⟨books_disarm h, ?_⟩
    unfold Serving.disarm
    split
    · exact hw
    · exact hw
  · exact Evolves.bind_get (Evolves.forM (fun _ _ _ => watched_sweepLatched) _)

theorem watched_pingTimer {uids : List String} {now : Nat} {s : Serving} :
    Evolves (Keeps (BooksWatched uids)) (pingTimer now) s := by
  refine Evolves.bind_get (Evolves.onlyIf fun _ => Evolves.bind_modify (fun h => h) ?_)
  refine Evolves.bind_get (Evolves.bind_refuse fun _ => ?_)
  exact Evolves.bind_modify (fun h => h) (Evolves.of_modify fun h => h)

/-- One reported exit is handled: consumed, or latched. -/
theorem childExited_watched {uids : List String} {os : Os} {armed : Bool} {uid : String}
    {s : Serving} (h : BooksWatched (uid :: uids) s) (hnot : uid ∉ uids) :
    BooksWatched uids (after (childExited os armed uid) s) := by
  obtain ⟨hb, hw⟩ := h
  have hrest : Watched uids s := fun u hu => hw u (List.mem_cons_of_mem _ hu)
  unfold childExited
  rw [after_bind_get]
  cases he : s.holder.sessions[uid]? with
  | none => exact ⟨hb, hrest⟩
  | some e =>
    obtain ⟨hexit, -, hrun⟩ := hw uid List.mem_cons_self e he
    simp only
    split
    · rename_i hcond
      exact ⟨books_consumedExit hb he hexit hcond.1 hrun, watched_consumedExit hrest hnot⟩
    · refine ⟨books_rewrite hb he rfl rfl rfl rfl rfl fun _ => hrun, fun u hu o ho => ?_⟩
      have hne : u ≠ uid := fun heq => hnot (heq ▸ hu)
      rw [show (after (modify (·.latch uid e) : Serve PUnit) s).holder.sessions[u]?
        = s.holder.sessions[u]? by
          simp [Serving.latch, Serving.rewrite, Serving.setHolder, State.setSession,
            getElem?_insert_map, hne]] at ho
      exact hrest u hu o ho

/-- Reported exits are handled one by one. -/
theorem books_forM_childExited {os : Os} {armed : Bool} {uids : List String} {s : Serving}
    (h : BooksWatched uids s) (hnodup : uids.Nodup) :
    Books (after (uids.forM (childExited os armed)) s).book := by
  induction uids generalizing s with
  | nil => exact h.1
  | cons uid uids ih =>
    obtain ⟨hnot, hrest⟩ := List.nodup_cons.mp hnodup
    have hone := @childExited_watched _ os armed _ _ h hnot
    rw [List.forM_eq_forM, List.forM_cons]
    unfold after at hone ⊢
    rw [bind_eq]
    cases hx : childExited os armed uid s with
    | ok a s' =>
      rw [hx] at hone
      exact ih hone hrest
    | error e s' =>
      rw [hx] at hone
      exact hone.1

theorem nodup_polled (h : State) : h.polled.Nodup := nodup_filter_keys

theorem books_childExits {os : Os} {polled exited : List String} {s : Serving}
    (h : BooksWatched (polled.filter (· ∈ exited)) s) (hnodup : polled.Nodup) :
    Books (after (childExits os polled exited) s).book :=
  books_forM_childExited h (hnodup.filter _)

theorem books_childExit {s : Serving} {child : Nat} {status : ExitStatus} :
    KeepsBooks s (s.childExit child status) := by
  intro h
  unfold Serving.childExit
  split
  · rename_i hc
    exact h.childExit status hc.2 hc.1
  · exact h

theorem books_readChannel {read : ChannelRead} {s : Serving} :
    Evolves KeepsBooks (readChannel read) s := by
  cases read with
  | notReady => exact Evolves.pure
  | eof => exact Evolves.throw
  | violated reason => exact Evolves.throw
  | frames incoming violated =>
    refine Evolves.bind (Evolves.forM (fun i _ t => ?_) s) fun _ _ _ => ?_
    · cases i with
      | frame os frame => exact books_dispatch
      | childExit child status => exact Evolves.of_modify books_childExit
    · cases violated with
      | none => exact Evolves.pure
      | some reason => exact Evolves.throw

theorem books_flushOutbound {f : Flush} {s : Serving} :
    Evolves KeepsBooks (flushOutbound f) s := by
  cases f with
  | flushed n => exact Evolves.of_modify (keeps_of_book rfl)
  | peerGone => exact Evolves.throw
  | fatal reason => exact Evolves.throw

theorem books_checkBacklog {s : Serving} : Evolves KeepsBooks checkBacklog s :=
  Evolves.bind_get (Evolves.refl_of after_refuse)

theorem books_surfaceUpgrade {idle : Bool} {s : Serving} :
    Evolves KeepsBooks (surfaceUpgrade idle) s := by
  refine Evolves.bind_get ?_
  cases s.holder.pendingUpgrade with
  | none => exact Evolves.pure
  | some pin =>
    exact Evolves.onlyIf fun _ => Evolves.bind_modify (keeps_of_book rfl) Evolves.throw

theorem after_handshakeTimer {now : Nat} {s : Serving} : after (handshakeTimer now) s = s :=
  after_refuse

/-- The timers leave the reported exits, which are handled before the channel is read. -/
theorem books_beforeChannel {p : Poll} {s : Serving} (hp : p.Sound s) (h : Books s.book) :
    Books (after (beforeChannel p) s).book := by
  have hw : BooksWatched (s.holder.polled.filter (· ∈ p.exited)) s := ⟨h, watched_polled hp⟩
  have hout : ∀ t, BooksWatched (s.holder.polled.filter (· ∈ p.exited)) t → Books t.book :=
    fun _ ht => ht.1
  unfold beforeChannel
  rw [after_bind_get]
  refine Evolves.bind_keeps (I := BooksWatched _) ?_ hout fun _ _ ht => ?_
  · rw [after_handshakeTimer]
    exact hw
  refine Evolves.bind_keeps (watched_disarmTimer ht) hout fun _ _ ht => ?_
  refine Evolves.bind_keeps (watched_pingTimer ht) hout fun _ _ ht => ?_
  refine Evolves.bind_keeps (I := BooksWatched _) (by rw [after_refuse]; exact ht) hout
    fun _ _ ht => ?_
  exact books_childExits ht (nodup_polled _)

/-- One pass of the serve loop keeps the books. -/
theorem books_iterate {p : Poll} {s : Serving} (hp : p.Sound s) (h : Books s.book) :
    Books (after (iterate p) s).book := by
  unfold iterate
  cases p.result with
  | interrupted => exact h
  | failed err => exact h
  | ready =>
    refine Evolves.bind_keeps (I := fun t : Serving => Books t.book) (books_beforeChannel hp h)
      (fun _ ht => ht) fun _ _ ht => ?_
    exact Evolves.bind books_readChannel (fun _ _ _ => Evolves.bind books_flushOutbound
      fun _ _ _ => Evolves.bind books_checkBacklog fun _ _ _ => books_surfaceUpgrade) ht

end Holder
