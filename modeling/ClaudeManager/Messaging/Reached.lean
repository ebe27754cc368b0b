import ClaudeManager.Messaging.Calls
import ClaudeManager.Messaging.NameKeys

/-!
# The states a store reaches

* `Store.Call` — one call of a store, whether it succeeds or fails
* `Reached` — what a store is after any calls
* `Upkeep.reached` — an invariant that commits of fitting events keep holds of every such state
* `Opened.holds` — an invariant of histories holds of what is opened from any disk and then called
-/

namespace ClaudeManager

open Json Containers Program

section

variable [Externals] {Fit : Store → Value → Prop} {I : Store → Prop} {s t : Store}

/-! ## Decisions -/

theorem journalStatus_beside {kind : String} {id digest : Option String} {data : Value} :
    Evolves Store.Beside (journalStatus kind id digest data) s := by
  unfold journalStatus flushIngestBatch
  refine .bind_modify ?_ (.bind_query fun _ _ => .bind_query fun pos hpos => .bind
    (.of_eq rfl rfl rfl rfl fun hnone => hnone) fun _ t ht => .bind_get (.bind_modify ?_
      (.of_decisions applyReplicationJournal_frame)))
  · unfold Store.flushed
    split <;> exact .of_eq rfl rfl rfl rfl fun hnone => hnone
  · cases ht
    refine ⟨rfl, ?_, Nat.le_refl _, .of_eq rfl, fun hnone => hnone⟩
    obtain ⟨rfl, -⟩ := checkedAdd_ok.mp hpos
    exact Nat.le_succ _

theorem recordReceipt_beside {receipt : Value} :
    Evolves Store.Beside (recordReceipt receipt) s := by
  unfold recordReceipt
  refine .bind_check fun _ _ => .bind_check fun _ _ => .bind_query fun _ _ => .bind_get
    (.bind_okOr fun _ _ => .bind_refuse fun _ => ?_)
  split
  · exact .refl_of after_refuse
  · exact journalStatus_beside

theorem rejectReplicationFrom_beside : ∀ {fuel : Nat} {id reason : String} {s : Store},
    Evolves Store.Beside (rejectReplicationFrom fuel id reason) s
  | 0, _, _, _ => .pure
  | fuel + 1, id, reason, s => by
    unfold rejectReplicationFrom
    refine .bind_get (.onlyIf fun _ => .bind_refuse fun _ => .bind_okOr fun _ _ => .bind ?_
      fun _ _ _ => .bind_query fun _ _ => .forM (fun _ _ _ => rejectReplicationFrom_beside) _)
    unfold rejectOne
    exact .bind_get journalStatus_beside

theorem rejectReplication_beside {id reason : String} :
    Evolves Store.Beside (rejectReplication id reason) s := by
  unfold rejectReplication
  exact .bind_get rejectReplicationFrom_beside

theorem retainLegacyReceipts_beside : Evolves Store.Beside retainLegacyReceipts s := by
  unfold retainLegacyReceipts
  refine .bind_get (.onlyIf fun _ => .forM (fun e _ s => ?_) _)
  unfold retainLegacyReceipt
  exact .bind_get (.bind_refuse fun _ => recordReceipt_beside)

/-! ## Read state -/

omit [Externals] in
theorem Store.Beside.of_reads {reads : Map ReadState} {pending : Map StrSet} {loaded : StrSet}
    (h : Store.ForwardReads s.reads reads) :
    Store.Beside s { s with
      reads, readModel.pendingLegacy := pending, readModel.loaded := loaded } :=
  ⟨rfl, Nat.le_refl _, Nat.le_refl _, h, id⟩

omit [Externals] in
theorem mergeCursorMemory_beside {actor cid : String} {cursor : ReadCursor} :
    Store.Beside s (s.mergeCursorMemory actor cid cursor) :=
  .of_reads Store.forward_mergeCursor

omit [Externals] in
theorem foldl_mergeCursor_beside {actor : String} : ∀ {cursors : List (String × ReadCursor)} {s : Store},
    Store.Beside s (cursors.foldl (fun s e => s.mergeCursorMemory actor e.1 e.2) s)
  | [], s => Std.Refl.refl (r := Store.Beside) s
  | _ :: _, _ => IsTrans.trans (r := Store.Beside) _ _ _ mergeCursorMemory_beside
      foldl_mergeCursor_beside

omit [Externals] in
theorem mergeLegacyMemory_beside {actor : String} {ids : List String} :
    Store.Beside s (s.mergeLegacyMemory actor ids) := by
  have hforward := @Store.forward_mergeLegacyMemory s actor ids
  rw [Store.mergeLegacyMemory_eq] at hforward ⊢
  exact .of_reads hforward

omit [Externals] in
theorem loadRead_beside {actor : String} {file : Option Checkpoint} {legacy : Option StrSet} :
    Evolves Store.Beside (loadRead actor file legacy) s := by
  unfold loadRead
  refine .bind_get (.onlyIf fun _ => .bind_modify (.of_reads fun a cid c hc => ⟨c, ?_, le_refl c⟩)
    (.bind_modify ?_ (.of_modify (.of_reads (.refl _)))))
  · rw [getElem?_upsert]
    by_cases ha : a = actor
    · subst ha
      rw [if_pos rfl]
      obtain ⟨r, hr, hcursor⟩ := Option.bind_eq_some_iff.mp hc
      unfold entryD
      rw [hr]
      exact hcursor
    · rw [if_neg ha]
      exact hc
  · unfold Store.loadedRead
    split
    · exact IsTrans.trans (r := Store.Beside) _ _ _ mergeLegacyMemory_beside
        foldl_mergeCursor_beside
    · exact mergeLegacyMemory_beside

section

variable (h : Upkeep Fit I) (huuid : MintsOnce)

include h huuid

theorem retainCursors_keeps {actor : String} {fresh : List (String × ReadCursor)} :
    Evolves (Keeps (Held I)) (retainCursors actor fresh) s := by
  unfold retainCursors
  refine .bind_get (.ite (fun _ => .bind (h.of_beside uuid_beside) fun _ _ _ =>
    .bind (h.publish huuid fun _ => ?_) fun _ _ _ => .pure) fun _ => .bind_query fun _ _ =>
      h.of_beside (.of_modify foldl_mergeCursor_beside))
  exact .of_plain (by simp [cursorDraft, idx_object, List.lookup])
    (by simp [cursorDraft, idx_object, List.lookup])

theorem advanceCursors_keeps {actor : String} {cursors : List (String × ReadCursor)} :
    Evolves (Keeps (Held I)) (advanceCursors actor cursors) s := by
  unfold advanceCursors
  exact .bind_get (.ite (fun _ => .pure) fun _ => .bind_query fun _ _ =>
    .bind (retainCursors_keeps h huuid) fun _ _ _ => .pure)

theorem retainLegacyOwnerReads_keeps : Evolves (Keeps (Held I)) retainLegacyOwnerReads s := by
  unfold retainLegacyOwnerReads
  refine .bind_get (.forM (fun chunk _ s => .bind (h.of_beside uuid_beside) fun _ _ _ =>
    .bind (h.publish huuid fun _ => ?_) fun _ _ _ => .pure) _)
  exact .of_plain (by simp [cursorDraft, idx_object, List.lookup])
    (by simp [cursorDraft, idx_object, List.lookup])

theorem react_keeps {actor : String} {p : Value} : Evolves (Keeps (Held I)) (react actor p) s := by
  unfold react
  refine .bind_check fun _ _ => .bind_check fun _ _ => .bind_refuse fun _ => .bind_get
    (.bind_okOr fun _ _ => .bind_query fun request _ => .bind ?_ fun _ _ _ => .bind
      (.onlyIf fun _ => .bind_check fun _ _ => .bind (advanceCursors_keeps h huuid) fun _ _ _ => .pure)
        fun _ _ _ => .pure)
  unfold publishReaction
  split
  · exact .pure
  · refine .bind_query fun _ _ => h.publish huuid fun _ => ?_
    exact .of_plain (by simp [idx_object, List.lookup]) (by simp [idx_object, List.lookup])

/-! ## Opening -/

theorem recover_keeps {norms : String} : Evolves (Keeps (Held I)) (recover norms) s := by
  unfold recover
  refine .bind_get (.onlyIf fun _ => .bind (.forM (fun _ _ _ => bootstrapChannel_keeps h huuid) _)
    fun _ _ _ => .bind (bootstrapNorms_keeps h huuid) fun _ _ _ => .tryCatch ?_ fun _ _ _ =>
      h.of_beside (.of_modify (.of_eq rfl rfl rfl rfl fun hnone => by cases hnone)))
  unfold recoverProjection
  exact .bind (initializeMemberships_keeps h huuid) fun _ _ _ =>
    .bind (h.of_beside retainLegacyReceipts_beside) fun _ _ _ =>
      .bind (enrollParticipants_keeps h huuid) fun _ _ _ =>
        .bind (repairAttestations_keeps h) fun _ _ _ => normalizeExistingNames_keeps h huuid

end

/-! ## Deliveries -/

/-- The event of a wire uses no identifier that is still to be minted here. -/
def Arrives (s : Store) (wire : Value) : Prop :=
  ∀ raw e, required wire "event" = .ok raw → fromSlice raw = .ok e → ∀ a, Carried e a → Past s a

theorem Arrives.mono {wire : Value} (h : Arrives s wire) (hdaemon : t.daemonId = s.daemonId)
    (hminted : s.minted ≤ t.minted) : Arrives t wire :=
  fun raw e hraw he a ha => (h raw e hraw he a ha).mono hdaemon hminted

/-- An envelope is checked on the event that its text says. -/
theorem envelope_read {raw : String} {e : Value} (h : s.validateReplicationEnvelope raw = .ok e) :
    fromSlice raw = .ok e ∧ envelopeOk e = true := by
  unfold Store.validateReplicationEnvelope at h
  obtain ⟨-, -, h⟩ := except_bind_ok.mp h
  obtain ⟨e', hread, h⟩ := except_bind_ok.mp h
  obtain ⟨-, -, h⟩ := except_bind_ok.mp h
  obtain ⟨_, hformed, h⟩ := except_bind_ok.mp h
  obtain ⟨-, -, h⟩ := except_bind_ok.mp h
  obtain ⟨origin, -, h⟩ := except_bind_ok.mp h
  obtain ⟨-, -, h⟩ := except_bind_ok.mp h
  obtain ⟨time, -, h⟩ := except_bind_ok.mp h
  obtain ⟨-, -, h⟩ := except_bind_ok.mp h
  obtain ⟨created, -, h⟩ := except_bind_ok.mp h
  obtain ⟨-, -, h⟩ := except_bind_ok.mp h
  obtain rfl := except_pure_ok.mp h
  rw [except_refuse_ok, not_or, not_not] at hformed
  exact ⟨hread, hformed.1⟩

/-- A commit of a delivered event keeps the invariant. -/
theorem Upkeep.commit_delivered (h : Upkeep Fit I) {e : Value} {bytes source : String}
    {receipt : Option Value} (hfit : Held I s → Fit s e) (hpast : ∀ a, Carried e a → Past s a) :
    Evolves (Keeps (Held I)) (commitBytes e bytes source receipt) s :=
  fun hs => h.held_commit hs (hfit hs) hpast _ _ _

theorem acceptNew_keeps (h : Upkeep Fit I) {host id raw : String} {e : Value}
    (hcoordinator : s.isCoordinator = true) (henvelope : s.validateReplicationEnvelope raw = .ok e)
    (horigin : e["origin_daemon_id"] = .str host) (hnew : s.hasEvent (strv e "id") = false)
    (hpast : ∀ a, Carried e a → Past s a) :
    Evolves (Keeps (Held I)) (acceptNew host e id raw) s := by
  unfold acceptNew
  refine .bind_check fun actor hactor => .bind_query fun _ hsender => .ite (fun htype => ?_)
    fun htype => ?_
  · refine .bind_query fun _ hadmitted => .bind (h.commit_delivered (fun hs => ?_) hpast) fun _ _ _ =>
      .query
    exact h.uploaded hs.holds ⟨hcoordinator, henvelope, horigin, hnew, actor, hactor, hsender,
      by rw [if_pos htype]; exact hadmitted⟩
  · refine .bind_query fun stale hadmitted => .bind_query fun _ _ => .bind (h.commit_delivered
      (fun hs => ?_) hpast) fun _ _ _ => .query
    exact h.uploaded hs.holds ⟨hcoordinator, henvelope, horigin, hnew, actor, hactor, hsender,
      by rw [if_neg htype]; exact ⟨stale, hadmitted⟩⟩

theorem acceptUpload_keeps (h : Upkeep Fit I) {host : String} {wire : Value}
    (harrives : Arrives s wire) : Evolves (Keeps (Held I)) (acceptUpload host wire) s := by
  unfold acceptUpload
  refine .bind_query fun _ hshared => .bind_check fun raw hraw => .bind_query fun e henvelope =>
    .bind_check fun id hid => .bind_refuse fun hforeign => .bind_get (.ite (fun _ => ?_) fun hnew => ?_)
  · unfold acceptKnown
    exact .bind_query fun _ _ => .bind_refuse fun _ => .query
  · obtain ⟨rfl, -⟩ := required_ok.mp hid
    rw [not_or, not_not] at hforeign
    unfold Store.sharedMutationAllowed at hshared
    rw [except_refuse_ok, not_not] at hshared
    exact acceptNew_keeps h hshared henvelope hforeign.1 (Bool.not_eq_true _ ▸ hnew)
      (harrives raw e hraw (envelope_read henvelope).1)

/-- The store as it was, with identifiers used up. -/
structure Later (s t : Store) : Prop where
  daemonId : t.daemonId = s.daemonId
  minted : s.minted ≤ t.minted

omit [Externals] in
theorem Later.trans {u : Store} (h : Later s t) (h' : Later t u) : Later s u :=
  ⟨h'.daemonId.trans h.daemonId, h.minted.trans h'.minted⟩

omit [Externals] in
theorem Later.of_beside (h : Store.Beside s t) : Later s t := ⟨h.daemonId, h.minted⟩

/-- The invariant holds, in a store that is later than `r`. -/
def HeldSince (I : Store → Prop) (r s : Store) : Prop := Held I s ∧ Later r s

theorem Upkeep.since_beside (h : Upkeep Fit I) {α : Type} {m : Action α} {r : Store}
    (hm : Evolves Store.Beside m s) : Evolves (Keeps (HeldSince I r)) m s :=
  fun hs => ⟨h.of_beside hm hs.1, hs.2.trans (.of_beside hm)⟩

theorem ingestOne_keeps (h : Upkeep Fit I) {r : Store} {wire : Value} (harrives : Arrives r wire) :
    Evolves (Keeps (HeldSince I r)) (ingestOne wire) s := by
  unfold ingestOne
  refine .bind_check fun raw hraw => .bind_query fun e henvelope => .bind_check fun id hid =>
    .bind_get (.ite (fun _ => h.since_beside ?_) fun hnew => ?_)
  · unfold ingestKnown
    refine .bind_query fun _ _ => .bind_refuse fun _ => .bind ?_ fun _ _ _ => .pure
    cases Store.wireReceipt wire with
    | none => exact .pure
    | some receipt => exact recordReceipt_beside
  · unfold ingestNew
    refine .bind_okOr fun receipt _ => .bind_query fun _ hchecked => .bind (fun hs => ?_)
      fun _ _ _ => .pure
    obtain ⟨rfl, -⟩ := required_ok.mp hid
    have hext := @commitBytes_extends _ s e raw "replica" (some receipt) _ rfl
    refine ⟨h.held_commit hs.1 (h.delivered hs.1.holds ⟨henvelope, Bool.not_eq_true _ ▸ hnew, hchecked⟩)
      ?_ _ _ _, hs.2.trans ⟨hext.daemonId, hext.minted⟩⟩
    exact (harrives.mono hs.2.daemonId hs.2.minted) raw e hraw (envelope_read henvelope).1

theorem ingestWires_keeps (h : Upkeep Fit I) {r : Store} :
    ∀ {wires : List Value} {s : Store}, (∀ wire ∈ wires, Arrives r wire) →
      Evolves (Keeps (HeldSince I r)) (ingestWires wires) s
  | [], _, _ => .pure
  | wire :: rest, s, harrives => by
    unfold ingestWires
    refine .bind (.tryCatch (.bind (ingestOne_keeps h (harrives wire List.mem_cons_self))
      fun _ _ _ => .pure) fun _ _ _ => .pure) fun result _ _ => ?_
    cases result with
    | error _ => exact .pure
    | ok _ =>
      exact .bind (ingestWires_keeps h fun w hw => harrives w (List.mem_cons_of_mem _ hw))
        fun _ _ _ => .pure

theorem ingestReplicaPage_keeps (h : Upkeep Fit I) {wires : List Value}
    (harrives : ∀ wire ∈ wires, Arrives s wire) :
    Evolves (Keeps (Held I)) (ingestReplicaPage wires) s := by
  have hpage : Evolves (Keeps (HeldSince I s)) (ingestReplicaPage wires) s := by
    unfold ingestReplicaPage
    refine .bind_get (.bind_refuse fun _ => .bind_modify (fun hs => ?_) (.bind
      (ingestWires_keeps h harrives) fun result _ _ => .bind (h.since_beside ?_) fun _ _ _ => .bind
        (h.since_beside ?_) fun _ _ _ => .bind (h.since_beside ?_) fun _ _ _ => .pure))
    · have hbeside : Store.Beside s { s with ingestBatch := some [] } :=
        .of_eq rfl rfl rfl rfl id
      exact ⟨h.held_beside hs.1 hbeside, hs.2.trans (.of_beside hbeside)⟩
    · unfold flushIngestBatch Store.flushed
      refine .of_modify ?_
      split <;> exact .of_eq rfl rfl rfl rfl id
    · exact .of_modify (.of_eq rfl rfl rfl rfl id)
    · cases result.2 with
      | none => exact .pure
      | some _ => exact .throw
  exact fun hs => (hpage ⟨hs, rfl, Nat.le_refl _⟩).1

/-! ## Runs -/

/-- A store without what its owner, its link and a handoff keep beside the shared history. -/
def Store.sansOwn (s : Store) : Store :=
  { s with
    taskBindings := ∅, taskAuthority := none, personal := ∅, frozen := false
    replication := { s.replication with enabled := false, operationOrigin := none } }

/-- One call of a store, whether it succeeds or fails. What comes from another daemon uses no
identifier that is still to be minted here. -/
inductive Store.Call (s : Store) : Store → Prop
  | send (actor uid kind : String) (p : Value) (people : List Person)
    (attribution : Option Value) :
    Call s (after (sendWithAttribution actor uid kind p people attribution) s)
  | rename (actor uid : String) (p : Value) : Call s (after (ClaudeManager.rename actor uid p) s)
  | assignTaskName (actor uid name : String) (release : List String) (key : String) :
    Call s (after (ClaudeManager.assignTaskName actor uid name release key) s)
  | enroll (people : List Person) : Call s (after (enrollParticipants people) s)
  | createChannel (actor : String) (p : Value) (people : List Person) : actor ≠ "" →
    Call s (after (ClaudeManager.createChannel actor p people) s)
  | updateChannel (actor : String) (p : Value) (people : List Person) :
    Call s (after (ClaudeManager.updateChannel actor p people) s)
  | changeMembership (actor : String) (p : Value) (people : List Person) :
    Call s (after (ClaudeManager.changeMembership actor p people) s)
  | pins (actor : String) (p : Value) (people : List Person) :
    Call s (after (ClaudeManager.pins actor p people) s)
  | changeNorms (actor kind name : String) (p : Value) :
    Call s (after (ClaudeManager.changeNorms actor kind name p) s)
  | setAvailability (actor : String) (p : Value) :
    Call s (after (ClaudeManager.setAvailability actor p) s)
  | publishMaintenance (notice : MaintenanceNotice) :
    Call s (after (ClaudeManager.publishMaintenance notice) s)
  | postSystemNotice (channelId body key : String) :
    Call s (after (ClaudeManager.postSystemNotice channelId body key) s)
  | registerHost (host : String) (active ownerAccess : Bool) (people : List Person) :
    Call s (after (ClaudeManager.registerHost host active ownerAccess people) s)
  | loadRead (actor : String) (file : Option Checkpoint) (legacy : Option StrSet) :
    Call s (after (ClaudeManager.loadRead actor file legacy) s)
  | advanceCursors (actor : String) (cursors : List (String × ReadCursor)) :
    Call s (after (ClaudeManager.advanceCursors actor cursors) s)
  | retainLegacyOwnerReads : Call s (after ClaudeManager.retainLegacyOwnerReads s)
  | react (actor : String) (p : Value) : Call s (after (ClaudeManager.react actor p) s)
  | recordReceipt (receipt : Value) : Call s (after (ClaudeManager.recordReceipt receipt) s)
  | rejectReplication (id reason : String) :
    Call s (after (ClaudeManager.rejectReplication id reason) s)
  | recover (norms : String) : Call s (after (ClaudeManager.recover norms) s)
  | upload (host : String) (wire : Value) : Arrives s wire →
    Call s (after (acceptUpload host wire) s)
  | ingest (wires : List Value) : (∀ wire ∈ wires, Arrives s wire) →
    Call s (after (ingestReplicaPage wires) s)
  | own {t : Store} : t.sansOwn = s.sansOwn → Call s t

/-- What a store is after any calls. -/
abbrev Reached : Store → Store → Prop := Relation.ReflTransGen Store.Call

omit [Externals] in
theorem Store.Beside.of_own (h : t.sansOwn = s.sansOwn) : Store.Beside s t := by
  refine .of_eq ?_ ?_ ?_ ?_ fun hnone => ?_
  · have hkept := congrArg Store.kept h
    exact hkept
  · have hposition := congrArg Store.position h
    exact hposition
  · have hminted := congrArg Store.minted h
    exact hminted
  · have hreads := congrArg Store.reads h
    exact hreads
  · have hdegraded := congrArg Store.degraded h
    exact hdegraded.symm.trans hnone

section

variable (h : Upkeep Fit I) (huuid : MintsOnce)
  (hparse : ∀ v w, Externals.parse (Externals.compact v) = .ok w → w = v)

include h huuid hparse

theorem Upkeep.call (hcall : Store.Call s t) (hs : Held I s) : Held I t := by
  cases hcall with
  | send => exact sendWithAttribution_keeps h huuid hparse hs
  | rename => exact rename_keeps h huuid hs
  | assignTaskName => exact assignTaskName_keeps h huuid hs
  | enroll => exact enrollParticipants_keeps h huuid hs
  | createChannel _ _ _ hactor => exact createChannel_keeps h huuid hactor hs
  | updateChannel => exact updateChannel_keeps h huuid hs
  | changeMembership => exact changeMembership_keeps h huuid hs
  | pins => exact pins_keeps h huuid hs
  | changeNorms => exact changeNorms_keeps h huuid hs
  | setAvailability => exact setAvailability_keeps h huuid hs
  | publishMaintenance => exact publishMaintenance_keeps h huuid hs
  | postSystemNotice => exact postSystemNotice_keeps h huuid hs
  | registerHost => exact registerHost_keeps h huuid hs
  | loadRead => exact h.of_beside loadRead_beside hs
  | advanceCursors => exact advanceCursors_keeps h huuid hs
  | retainLegacyOwnerReads => exact retainLegacyOwnerReads_keeps h huuid hs
  | react => exact react_keeps h huuid hs
  | recordReceipt => exact h.of_beside recordReceipt_beside hs
  | rejectReplication => exact h.of_beside rejectReplication_beside hs
  | recover => exact recover_keeps h huuid hs
  | upload _ _ harrives => exact acceptUpload_keeps h harrives hs
  | ingest _ harrives => exact ingestReplicaPage_keeps h harrives hs
  | own hown => exact h.held_beside hs (.of_own hown)

/-- An invariant that commits of fitting events keep holds of every state that is reached. -/
theorem Upkeep.reached (hrun : Reached s t) (hs : Held I s) : Held I t := by
  induction hrun with
  | refl => exact hs
  | tail _ hcall ih => exact h.call huuid hparse hcall ih

end

/-! ## Opened stores -/

section

/-- An invariant that a growing history keeps is kept by every call. -/
theorem upkeep_of_grows {I : Store → Prop} (hindexed : ∀ {s}, I s → Indexed s)
    (hI : ∀ {s t}, Grows s t → I s → I t) :
    Upkeep (fun s e => s.hasEvent (strv e "id") = false) I where
  beside h hs := hI (.of_beside h) hs
  commit _ _ _ hnew hs := hI ((commitBytes_extends rfl).grows (hindexed hs) hnew) hs
  composed _ h := h.new
  attested _ h := h.new
  uploaded _ h := h.new
  delivered _ h := h.new
  new h := h

/-- What a store is that was opened, whatever its disk said, and then called. -/
structure Opened (s : Store) : Prop where
  reached : ∃ r : Store, Fresh r.reopen ∧ Reached r.reopen s

variable (huuid : MintsOnce)
  (hparse : ∀ v w, Externals.parse (Externals.compact v) = .ok w → w = v)

include huuid hparse

theorem Opened.holds {I : Store → Prop} (hI : ∀ {s t}, Grows s t → I s → I t)
    (hopen : ∀ s : Store, I s.fresh) (hs : Opened s) : Held I s := by
  obtain ⟨r, hfresh, hrun⟩ := hs.reached
  obtain ⟨hindexed, hr⟩ := reopen_keeps (s := r) hI (hopen r)
  have hheld := (upkeep_of_grows (I := fun s => Indexed s ∧ I s) (fun h => h.1)
    fun h hs => ⟨hs.1.grows h, hI h hs.2⟩).reached huuid hparse hrun ⟨⟨hindexed, hr⟩, hindexed, hfresh⟩
  exact ⟨hheld.holds.2, hheld.indexed, hheld.fresh⟩


/-- Cursors move forward in every run. -/
theorem Reached.forward (hs : Held (fun _ => True) s) (hrun : Reached s t) : Store.Forward s t := by
  have hupkeep : Upkeep (fun s e => s.hasEvent (strv e "id") = false) (Store.Forward s) :=
    { beside := fun h hs => IsTrans.trans (r := Store.Forward) _ _ _ hs h.forward
      commit := fun _ _ _ _ hs => IsTrans.trans (r := Store.Forward) _ _ _ hs
        (commitBytes_extends rfl).forward
      composed := fun _ h => h.new
      attested := fun _ h => h.new
      uploaded := fun _ h => h.new
      delivered := fun _ h => h.new
      new := fun h => h }
  exact (hupkeep.reached huuid hparse hrun ⟨Std.Refl.refl (r := Store.Forward) s, hs.indexed,
    hs.fresh⟩).holds

end

end

/-! ## A sample -/

/-- `n`, in twelve digits or more. -/
def twelveDigits (n : Nat) : String :=
  String.ofList (List.replicate (12 - (Nat.toDigits 10 n).length) '0' ++ Nat.toDigits 10 n)

theorem twelveDigits_inj {m n : Nat} (h : twelveDigits m = twelveDigits n) : m = n := by
  have hread : ∀ k, Nat.ofDigitChars 10 (twelveDigits k).toList 0 = k := by
    intro k
    unfold twelveDigits
    rw [String.toList_ofList, Nat.ofDigitChars_append, Nat.ofDigitChars_replicate_zero, Nat.mul_zero,
      Nat.ofDigitChars_ten_toDigits]
  rw [← hread m, h, hread n]

/-- Texts as in `plainText`, with identifiers that never repeat. -/
@[reducible] def mintingText : Externals :=
  { plainText fun _ => none with uuid := fun _ n => "00000000-0000-4000-8000-" ++ twelveDigits n }

theorem mintingText_once : @MintsOnce mintingText := by
  intro daemon m n h
  have h' : "00000000-0000-4000-8000-" ++ twelveDigits m = "00000000-0000-4000-8000-" ++ twelveDigits n :=
    h
  refine twelveDigits_inj (String.toList_injective ?_)
  have hl := congrArg String.toList h'
  rw [String.toList_append, String.toList_append] at hl
  exact List.append_cancel_left hl

theorem freshStore_opened : @Opened mintingText (@Store.reopen mintingText freshStore) := by
  let _ := mintingText
  exact ⟨freshStore, fun p hp => (List.not_mem_nil hp).elim, .refl⟩

end ClaudeManager
