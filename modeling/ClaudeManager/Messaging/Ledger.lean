import ClaudeManager.Messaging.Commit
import ClaudeManager.Messaging.Cursors
import ClaudeManager.Program.Runs

/-!
# What a call may do to a store

* `Beside` — the retained events and what is derived from them stay; the rest only grows
* `commitBytes_steps` — a commit stays beside the ledger, appends its event, or gives up on it
* `Extends` — what a commit leaves of the history, whether it succeeds or fails
* `Indexed` — the retained events have different IDs, and each is found under its own
-/

namespace ClaudeManager

open Json Containers Program

namespace Store

/-- What is retained, and what is derived from it. -/
def kept (s : Store) : Store :=
  { s with
    degraded := none, taskBindings := ∅, taskAuthority := none, ingestBatch := none, position := 0
    clock := 0, reads := ∅, personal := ∅, frozen := false, files := [], journal := []
    minted := 0, readings := 0
    replication :=
      { s.replication with
        coordinatorId := "", coordinatorLineage := ∅, enabled := false, operationOrigin := none
        receipts := ∅, rejections := ∅, coverage := ∅ }
    readModel := { s.readModel with pendingLocal := [], loaded := ∅, pendingLegacy := ∅ } }

/-- The ledger stays: positions and minted identifiers are used up, cursors move forward, and a
store that was given up on stays so. -/
structure Beside (s t : Store) : Prop where
  kept : t.kept = s.kept
  position : s.position ≤ t.position
  minted : s.minted ≤ t.minted
  forward : Forward s t
  degraded : t.degraded = none → s.degraded = none

instance : Std.Refl Beside :=
  ⟨fun s => ⟨rfl, Nat.le_refl _, Nat.le_refl _, Std.Refl.refl (r := Forward) s, id⟩⟩

instance : IsTrans Store Beside :=
  ⟨fun s t u h h' => ⟨h'.kept.trans h.kept, h.position.trans h'.position, h.minted.trans h'.minted,
    IsTrans.trans (r := Forward) s t u h.forward h'.forward, fun hu => h.degraded (h'.degraded hu)⟩⟩

section

variable {s t : Store}

theorem Beside.of_eq (hkept : t.kept = s.kept) (hposition : t.position = s.position)
    (hminted : t.minted = s.minted) (hreads : t.reads = s.reads)
    (hdegraded : t.degraded = none → s.degraded = none) : Beside s t :=
  ⟨hkept, hposition.ge, hminted.ge, .of_eq hreads.symm, hdegraded⟩

theorem Beside.events (h : Beside s t) : t.events = s.events := by
  have he := congrArg Store.events h.kept
  exact he

theorem Beside.eventIndex (h : Beside s t) : t.eventIndex = s.eventIndex := by
  have he := congrArg Store.eventIndex h.kept
  exact he

theorem Beside.daemonId (h : Beside s t) : t.daemonId = s.daemonId := by
  have he := congrArg Store.daemonId h.kept
  exact he

theorem Beside.conversations (h : Beside s t) :
    t.readModel.conversations = s.readModel.conversations := by
  have he := congrArg (·.readModel.conversations) h.kept
  exact he

theorem Beside.addressed (h : Beside s t) (hs : s.Addressed) : t.Addressed := by
  have hchannels := congrArg Store.channels h.kept
  have hconversations := congrArg Store.conversations h.kept
  exact hs.of_eq hchannels hconversations

theorem Beside.memberships (h : Beside s t) : t.memberships = s.memberships := by
  have he := congrArg Store.memberships h.kept
  exact he

theorem Beside.membershipRevisions (h : Beside s t) :
    t.membershipRevisions = s.membershipRevisions := by
  have he := congrArg Store.membershipRevisions h.kept
  exact he

theorem Beside.hasEvent (h : Beside s t) (id : String) : t.hasEvent id = s.hasEvent id := by
  unfold Store.hasEvent
  rw [h.eventIndex]

end

end Store

section

variable [Externals] {s t : Store}

/-! ## Commits -/

/-- A store without the hub's decisions. -/
def Store.sansDecisions (s : Store) : Store :=
  { s with
    replication := { s.replication with receipts := ∅, rejections := ∅, coverage := ∅ }
    readModel := { s.readModel with pendingLocal := [] } }

theorem applyReplicationJournal_frame {j : Value} :
    Evolves (Alike Store.sansDecisions) (applyReplicationJournal j) s := by
  unfold applyReplicationJournal
  refine .ite (fun _ => ?_) fun _ => .ite (fun _ => .bind ?_ fun _ t _ => .of_modify ?_) fun _ =>
    .ite (fun _ => ?_) fun _ => .throw
  · unfold retainPublishReceipt
    split
    · exact .pure
    · exact .bind_check fun _ _ => .bind_check fun _ _ => .bind_query fun _ _ => .of_modify rfl
  · unfold retainDecision
    refine .bind_check fun _ _ => .bind_get (.bind_okOr fun _ _ => .bind_refuse fun _ =>
      .ite (fun _ => ?_) fun _ => .ite (fun _ => ?_) fun _ => .throw)
    · exact .bind_get (.bind_refuse fun _ => .bind_check fun _ _ => .bind_query fun _ _ =>
        .of_modify rfl)
    · exact .bind_get (.bind_refuse fun _ => .of_modify rfl)
  · unfold Store.settlePending
    split <;> rfl
  · unfold retainCoverage
    exact .bind_check fun _ _ => .bind_check fun _ _ => .bind_check fun _ _ => .bind_get
      (.bind_refuse fun _ => .of_modify rfl)

omit [Externals] in
theorem Store.Beside.of_decisions (h : s.sansDecisions = t.sansDecisions) : Store.Beside s t := by
  refine .of_eq ?_ ?_ ?_ ?_ ?_
  · have hkept := congrArg Store.kept h
    exact hkept.symm
  · have hposition := congrArg Store.position h
    exact hposition.symm
  · have hminted := congrArg Store.minted h
    exact hminted.symm
  · have hreads := congrArg Store.reads h
    exact hreads.symm
  · have hdegraded := congrArg Store.degraded h
    exact fun ht => hdegraded.trans ht

theorem written_beside {e : Value} {bytes source : String} {receipt : Option Value}
    {path : EventPath} {time : Nat} : Store.Beside s (s.written e bytes source receipt path time)
      ∧ (s.written e bytes source receipt path time).position = s.position + 1
      ∧ (s.written e bytes source receipt path time).minted = s.minted := by
  unfold Store.written Store.makeDurable Store.writeRecord
  refine ⟨?_, ?_, ?_⟩
  · simp only
    split <;> exact ⟨rfl, Nat.le_succ _, Nat.le_refl _, .of_eq rfl, id⟩
  · split <;> rfl
  · split <;> rfl

/-- The store once the receipt of a commit is retained. -/
theorem replayed_beside {e : Value} {bytes source : String} {receipt : Option Value}
    {path : EventPath} {time : Nat} {j : Value} {t : Store}
    (h : after (applyReplicationJournal j) (s.written e bytes source receipt path time) = t) :
    Store.Beside s t ∧ t.position = s.position + 1 ∧ t.minted = s.minted := by
  obtain ⟨hwritten, hposition, hminted⟩ := @written_beside _ s e bytes source receipt path time
  have hframe : (s.written e bytes source receipt path time).sansDecisions = t.sansDecisions :=
    h ▸ applyReplicationJournal_frame
  have hbeside := Store.Beside.of_decisions hframe
  refine ⟨IsTrans.trans (r := Store.Beside) _ _ _ hwritten hbeside, ?_, ?_⟩
  · have hp := congrArg Store.position hframe
    exact hp.symm.trans hposition
  · have hm := congrArg Store.minted hframe
    exact hm.symm.trans hminted

/-- What a commit leaves once its record is on disk: the event is in the history, or the store is
given up on. -/
def Settles (e : Value) (s t u : Store) : Prop :=
  (∃ v p, reduce e t = .ok ⟨⟩ v ∧ p.event = e ∧ p.position = s.position + 1 ∧ u = v.pushPublished p)
    ∨ ∃ v f reason, reduce e t = .error f v ∧ u = { v with degraded := some reason }

/-- A commit stays beside the ledger, or its record is on disk and the event is reduced. -/
theorem commitBytes_steps {e : Value} {bytes source : String} {receipt : Option Value} {u : Store}
    (hu : after (commitBytes e bytes source receipt) s = u) : Store.Beside s u
      ∨ ∃ t, Store.Beside s t ∧ t.position = s.position + 1 ∧ t.minted = s.minted
        ∧ Settles e s t u := by
  rw [← hu]
  unfold after
  cases h : commitBytes e bytes source receipt s with
  | ok v t =>
    obtain ⟨path, time, s2, s3, -, -, hj, hr, -, rfl⟩ := commitBytes_ok.mp h
    obtain ⟨hbeside, hposition, hminted⟩ := replayed_beside (after_ok hj)
    exact .inr ⟨s2, hbeside, hposition, hminted, .inl ⟨s3, _, hr, rfl, rfl, rfl⟩⟩
  | error f t =>
    obtain rfl | rfl | ⟨path, time, hc, ⟨-, reason, rfl⟩ | ⟨-, hj | ⟨s2, s3, e', hj, hr, rfl⟩⟩⟩ :=
      commitBytes_error h
    · exact .inl (Std.Refl.refl (r := Store.Beside) t)
    · exact .inl (.of_eq rfl rfl rfl rfl id)
    · exact .inl (.of_eq rfl rfl rfl rfl fun h => nomatch h)
    · exact .inl (replayed_beside (after_error hj)).1
    · obtain ⟨hbeside, hposition, hminted⟩ := replayed_beside (after_ok hj)
      exact .inr ⟨s2, hbeside, hposition, hminted, .inr ⟨s3, e', _, hr, rfl⟩⟩

/-- The history of `u` is that of `s`, or has the event after it. -/
structure Extends (e : Value) (s u : Store) : Prop where
  daemonId : u.daemonId = s.daemonId
  minted : s.minted ≤ u.minted
  position : s.position ≤ u.position
  forward : Store.Forward s u
  addressed : s.Addressed → u.Addressed
  history : u.events = s.events ∧ u.eventIndex = s.eventIndex
      ∧ u.readModel.conversations = s.readModel.conversations
    ∨ ∃ p : Published, p.event = e ∧ strv e "id" ≠ "" ∧ p.position = s.position + 1
      ∧ u.position = s.position + 1 ∧ u.events = s.events ++ [p]
      ∧ u.eventIndex = s.eventIndex.insert (strv e "id") s.events.length
      ∧ u.readModel.conversations = Store.nextIndexes s.readModel.conversations p s.events.length

theorem commitBytes_extends {e : Value} {bytes source : String} {receipt : Option Value} {u : Store}
    (hu : after (commitBytes e bytes source receipt) s = u) : Extends e s u := by
  obtain hbeside | ⟨t, ht, hposition, hminted, hsettles⟩ := commitBytes_steps hu
  · exact ⟨hbeside.daemonId, hbeside.minted, hbeside.position, hbeside.forward, hbeside.addressed,
      .inl ⟨hbeside.events, hbeside.eventIndex, hbeside.conversations⟩⟩
  have hreduced : ∀ {v : Store}, after (reduce e) t = v → v.daemonId = s.daemonId
      ∧ v.minted = s.minted ∧ v.position = s.position + 1 ∧ Store.Forward s v
      ∧ (s.Addressed → v.Addressed) ∧ v.events = s.events ∧ v.eventIndex = s.eventIndex
      ∧ v.readModel.conversations = s.readModel.conversations := by
    rintro v rfl
    have hframe : t.sansDerived = (after (reduce e) t).sansDerived := reduce_frame
    have hfield : ∀ {α : Type} (f : Store → α), f t.sansDerived = f (after (reduce e) t).sansDerived :=
      fun f => congrArg f hframe
    exact ⟨(hfield Store.daemonId).symm.trans ht.daemonId,
      (hfield Store.minted).symm.trans hminted, (hfield Store.position).symm.trans hposition,
      IsTrans.trans (r := Store.Forward) _ _ _ ht.forward reduce_forward,
      fun hs => reduce_addressed (ht.addressed hs), (hfield Store.events).symm.trans ht.events, (hfield Store.eventIndex).symm.trans ht.eventIndex,
      (hfield (·.readModel.conversations)).symm.trans ht.conversations⟩
  obtain ⟨v, p, hr, rfl, hp, rfl⟩ | ⟨v, f, reason, hr, rfl⟩ := hsettles
  · obtain ⟨hdaemon, hmint, hpos, hforward, haddressed, hevents, hindex, hconversations⟩ :=
      hreduced (after_ok hr)
    have hsettled : Store.Forward v (v.appended p) :=
      Store.forward_settledMemory (m := (v.reads, v.readModel.pendingLegacy)) (e := p.event)
    rw [Store.pushPublished_eq]
    refine ⟨hdaemon, hmint.ge, ?_, ?_, fun hs => (haddressed hs).of_eq rfl rfl, .inr ⟨p, rfl, reduce_required hr, hp, hpos, ?_, ?_, ?_⟩⟩
    · exact (Nat.le_succ _).trans hpos.ge
    · exact IsTrans.trans (r := Store.Forward) _ _ _ hforward hsettled
    · exact congrArg (· ++ [p]) hevents
    · show v.eventIndex.insert _ v.events.length = _
      rw [hindex, hevents]
    · show Store.nextIndexes v.readModel.conversations p v.events.length = _
      rw [hconversations, hevents]
  · obtain ⟨hdaemon, hmint, hpos, hforward, haddressed, hkept⟩ := hreduced (after_error hr)
    exact ⟨hdaemon, hmint.ge, (Nat.le_succ _).trans hpos.ge, hforward,
      fun hs => (haddressed hs).of_eq rfl rfl, .inl hkept⟩

/-! ## The index of the events -/

/-- The retained events have different IDs, and each is found under its own. -/
structure Indexed (s : Store) : Prop where
  distinct : (s.events.map fun p => strv p.event "id").Nodup
  index : ∀ (id : String) (i : Nat), s.eventIndex[id]? = some i ↔
    ∃ p, s.events[i]? = some p ∧ strv p.event "id" = id
  ordered : s.events.Pairwise fun p q => p.position < q.position
  bounded : ∀ p ∈ s.events, p.position ≤ s.position

omit [Externals] in
theorem Indexed.hasEvent_iff (h : Indexed s) {id : String} :
    s.hasEvent id = true ↔ ∃ p ∈ s.events, strv p.event "id" = id := by
  unfold Store.hasEvent
  rw [Std.ExtTreeMap.contains_eq_isSome_getElem?, Option.isSome_iff_exists]
  constructor
  · rintro ⟨i, hi⟩
    obtain ⟨p, hp, hid⟩ := (h.index id i).mp hi
    exact ⟨p, List.mem_of_getElem? hp, hid⟩
  · rintro ⟨p, hp, hid⟩
    obtain ⟨i, hi⟩ := List.mem_iff_getElem?.mp hp
    exact ⟨i, (h.index id i).mpr ⟨p, hi, hid⟩⟩

omit [Externals] in
/-- A retained event is found under its ID. -/
theorem Indexed.published_iff (h : Indexed s) {id : String} {p : Published} :
    s.published id = some p ↔ p ∈ s.events ∧ strv p.event "id" = id := by
  unfold Store.published
  rw [Option.bind_eq_some_iff]
  constructor
  · rintro ⟨i, hi, hp⟩
    obtain ⟨q, hq, hid⟩ := (h.index id i).mp hi
    obtain rfl := Option.some.inj (hq.symm.trans hp)
    exact ⟨List.mem_of_getElem? hp, hid⟩
  · rintro ⟨hp, hid⟩
    obtain ⟨i, hi⟩ := List.mem_iff_getElem?.mp hp
    exact ⟨i, (h.index id i).mpr ⟨p, hi, hid⟩, hi⟩

omit [Externals] in
theorem Indexed.of_same (h : Indexed s) (hevents : t.events = s.events)
    (hindex : t.eventIndex = s.eventIndex) (hposition : s.position ≤ t.position) : Indexed t := by
  refine ⟨hevents ▸ h.distinct, ?_, hevents ▸ h.ordered, fun p hp => ?_⟩
  · rw [hevents, hindex]
    exact h.index
  · rw [hevents] at hp
    exact (h.bounded p hp).trans hposition

omit [Externals] in
/-- A new event at a later position. -/
theorem Indexed.of_push (h : Indexed s) {p : Published} (hnew : s.hasEvent (strv p.event "id") = false)
    (hlater : ∀ q ∈ s.events, q.position < p.position) (hposition : p.position ≤ t.position)
    (hevents : t.events = s.events ++ [p])
    (hindex : t.eventIndex = s.eventIndex.insert (strv p.event "id") s.events.length) :
    Indexed t := by
  have hfresh : ∀ q ∈ s.events, strv q.event "id" ≠ strv p.event "id" := by
    intro q hq hid
    rw [h.hasEvent_iff.mpr ⟨q, hq, hid⟩] at hnew
    cases hnew
  refine ⟨?_, fun id i => ?_, ?_, fun q hq => ?_⟩
  · rw [hevents, List.map_append, List.nodup_append]
    refine ⟨h.distinct, List.nodup_singleton _, fun a ha b hb => ?_⟩
    obtain ⟨q, hq, rfl⟩ := List.mem_map.mp ha
    rw [List.mem_singleton.mp hb]
    exact hfresh q hq
  · rw [hevents, hindex, getElem?_insert_map]
    by_cases hid : id = strv p.event "id"
    · subst hid
      rw [if_pos rfl]
      constructor
      · intro hi
        obtain rfl := Option.some.inj hi
        exact ⟨p, by simp, rfl⟩
      · rintro ⟨q, hq, hid⟩
        rcases lt_or_ge i s.events.length with hi | hi
        · rw [List.getElem?_append_left hi] at hq
          exact absurd hid (hfresh q (List.mem_of_getElem? hq))
        · rw [List.getElem?_append_right hi, List.getElem?_singleton] at hq
          split at hq
          · rw [Nat.le_antisymm hi (by omega)]
          · cases hq
    · rw [if_neg hid, h.index id i]
      constructor
      · rintro ⟨q, hq, hqid⟩
        refine ⟨q, ?_, hqid⟩
        rw [List.getElem?_append_left (List.getElem?_eq_some_iff.mp hq).1]
        exact hq
      · rintro ⟨q, hq, hqid⟩
        rcases lt_or_ge i s.events.length with hi | hi
        · rw [List.getElem?_append_left hi] at hq
          exact ⟨q, hq, hqid⟩
        · rw [List.getElem?_append_right hi, List.getElem?_singleton] at hq
          split at hq
          · rw [Option.some.inj hq] at hid
            exact absurd hqid.symm hid
          · cases hq
  · rw [hevents, List.pairwise_append]
    exact ⟨h.ordered, List.pairwise_singleton _ p, fun q hq r hr =>
      List.mem_singleton.mp hr ▸ hlater q hq⟩
  · rw [hevents] at hq
    rcases List.mem_append.mp hq with hq | hq
    · exact (hlater q hq).le.trans hposition
    · rw [List.mem_singleton.mp hq]
      exact hposition

/-- The history of `u` is that of `s`, or has a new event after it. -/
structure Grows (s u : Store) : Prop where
  position : s.position ≤ u.position
  addressed : s.Addressed → u.Addressed
  history : u.events = s.events ∧ u.eventIndex = s.eventIndex
      ∧ u.readModel.conversations = s.readModel.conversations
    ∨ ∃ p : Published, strv p.event "id" ≠ "" ∧ s.hasEvent (strv p.event "id") = false
      ∧ (∀ q ∈ s.events, q.position < p.position) ∧ p.position ≤ u.position
      ∧ u.events = s.events ++ [p]
      ∧ u.eventIndex = s.eventIndex.insert (strv p.event "id") s.events.length
      ∧ u.readModel.conversations = Store.nextIndexes s.readModel.conversations p s.events.length

omit [Externals] in
theorem Grows.of_beside (h : Store.Beside s t) : Grows s t :=
  ⟨h.position, h.addressed, .inl ⟨h.events, h.eventIndex, h.conversations⟩⟩

omit [Externals] in
/-- A commit of a new event does so. -/
theorem Extends.grows {e : Value} {u : Store} (h : Extends e s u) (hs : Indexed s)
    (hnew : s.hasEvent (strv e "id") = false) : Grows s u := by
  refine ⟨h.position, h.addressed, h.history.imp id ?_⟩
  rintro ⟨p, rfl, hid, hp, hposition, hhistory⟩
  refine ⟨p, hid, hnew, fun q hq => ?_, (hp.trans hposition.symm).le, hhistory⟩
  have := hs.bounded q hq
  omega

omit [Externals] in
theorem Indexed.grows {u : Store} (h : Indexed s) (hu : Grows s u) : Indexed u := by
  obtain ⟨hevents, hindex, -⟩ | ⟨p, -, hnew, hlater, hposition, hevents, hindex, -⟩ := hu.history
  · exact h.of_same hevents hindex hu.position
  · exact h.of_push hnew hlater hposition hevents hindex

omit [Externals] in
/-- A commit keeps the index, where the event is new. -/
theorem Indexed.commit {e : Value} {u : Store} (h : Indexed s) (hnew : s.hasEvent (strv e "id") = false)
    (hu : Extends e s u) : Indexed u := h.grows (hu.grows h hnew)

/-! ## Replay -/

/-- What a reduction leaves: the history, and the positions. -/
theorem reduce_history {e : Value} (h : after (reduce e) s = t) : t.events = s.events
    ∧ t.eventIndex = s.eventIndex ∧ t.readModel.conversations = s.readModel.conversations
    ∧ t.position = s.position := by
  have hframe : s.sansDerived = t.sansDerived := h ▸ reduce_frame
  have hevents := congrArg Store.events hframe
  have hindex := congrArg Store.eventIndex hframe
  have hconversations := congrArg (·.readModel.conversations) hframe
  have hposition := congrArg Store.position hframe
  exact ⟨hevents.symm, hindex.symm, hconversations.symm, hposition.symm⟩

/-- A new publication at the end of the history. -/
theorem grows_push {p : Published} (hid : strv p.event "id" ≠ "")
    (hnew : s.hasEvent (strv p.event "id") = false)
    (hlater : ∀ q ∈ s.events, q.position < p.position) (hposition : p.position ≤ s.position) :
    Grows s (s.pushPublished p) := by
  rw [Store.pushPublished_eq]
  exact ⟨Nat.le_refl _, fun hs => hs.of_eq rfl rfl, .inr ⟨p, hid, hnew, hlater, hposition, rfl, rfl, rfl⟩⟩

/-- An event that a replay applies is a new one. -/
theorem checkRebuilt_new {j e : Value} {path : EventPath} {time : Nat}
    (h : s.checkRebuilt j path e = .ok time) :
    strv e "id" ≠ "" ∧ s.hasEvent (strv e "id") = false := by
  unfold Store.checkRebuilt at h
  obtain ⟨-, -, h⟩ := except_bind_ok.mp h
  obtain ⟨id, hid, h⟩ := except_bind_ok.mp h
  obtain ⟨_, hnew, -⟩ := except_bind_ok.mp h
  obtain ⟨rfl, hne⟩ := required_ok.mp hid
  rw [except_refuse_ok] at hnew
  exact ⟨hne, Bool.not_eq_true _ ▸ hnew⟩

section

variable {I : Store → Prop} (hI : ∀ {s t}, Grows s t → I s → I t)

include hI

/-- An invariant that a growing history keeps holds of what a record is replayed into. -/
theorem applyRebuilt_keeps {file : Nat} {prepared : Prepared} :
    Evolves (Keeps fun s => Indexed s ∧ I s) (applyRebuilt file prepared) s := by
  have hkeeps : ∀ {s t : Store}, Grows s t → Indexed s ∧ I s → Indexed t ∧ I t :=
    fun h hs => ⟨hs.1.grows h, hI h hs.2⟩
  unfold applyRebuilt
  refine .bind_check fun position _ => .bind_check fun pos _ => .bind_get (.bind_refuse fun hrecord => ?_)
  rw [not_or, not_le] at hrecord
  cases prepared.event with
  | none =>
    refine .bind (hkeeps (.of_beside (.of_decisions applyReplicationJournal_frame))) fun _ t ht =>
      .of_modify (hkeeps ⟨?_, fun h => h.of_eq rfl rfl, .inl ⟨rfl, rfl, rfl⟩⟩)
    have hframe : s.sansDecisions = t.sansDecisions := after_ok ht ▸ applyReplicationJournal_frame
    have hposition := congrArg Store.position hframe
    exact hposition.symm.le.trans hrecord.1.le
  | some event =>
    refine .assuming fun hs => .bind_check fun entry _ => .bind_query fun time hchecked => ?_
    obtain ⟨path, event⟩ := entry
    refine .bind_modify (hkeeps ⟨Nat.le_refl _, fun h => h.of_eq rfl rfl, .inl ⟨rfl, rfl, rfl⟩⟩)
      (.bind_modify (hkeeps ⟨hrecord.1.le, fun h => h.of_eq rfl rfl, .inl ⟨rfl, rfl, rfl⟩⟩) (.bind
        (hkeeps (.of_beside (.of_decisions applyReplicationJournal_frame))) fun _ t ht =>
          .bind ?_ fun _ u hu => .bind_check fun received _ => .bind_check fun digest _ =>
            .of_modify (hkeeps ?_)))
    · obtain ⟨hevents, hindex, hconversations, hposition⟩ := reduce_history (s := t) rfl
      exact hkeeps ⟨hposition.ge, reduce_addressed, .inl ⟨hevents, hindex, hconversations⟩⟩
    · have hframe := applyReplicationJournal_frame.trans (congrArg Store.sansDecisions (after_ok ht))
      obtain ⟨hevents, hindex, -, hposition⟩ := reduce_history (after_ok hu)
      have htevents := congrArg Store.events hframe
      have htindex := congrArg Store.eventIndex hframe
      have htposition := congrArg Store.position hframe
      obtain ⟨hid, hnew⟩ := checkRebuilt_new hchecked
      refine grows_push hid ?_ (fun q hq => ?_) (hposition.trans htposition.symm).ge
      · unfold Store.hasEvent
        rw [hindex.trans htindex.symm]
        exact hnew
      · rw [hevents.trans htevents.symm] at hq
        exact (hs.1.bounded q hq).trans_lt hrecord.1

theorem rebuild_keeps {files : List (EventPath × String)} {journal : List (Nat × String)} :
    Evolves (Keeps fun s => Indexed s ∧ I s) (rebuild files journal) s := by
  unfold rebuild
  refine .forM (fun record _ s => ?_) s
  unfold replayRecord
  exact .bind_check fun _ _ => applyRebuilt_keeps hI

/-- Such an invariant holds of an opened store, whatever its disk says. -/
theorem reopen_keeps (hopen : I s.fresh) : Indexed s.reopen ∧ I s.reopen := by
  have hempty : Indexed s.fresh := by
    refine ⟨List.nodup_nil, fun id i => ?_, List.Pairwise.nil, fun p hp => by cases hp⟩
    constructor
    · intro h
      cases (Std.ExtTreeMap.getElem?_empty).symm.trans h
    · rintro ⟨p, hp, -⟩
      cases hp
  have hrebuilt : Indexed (after (rebuild s.files s.journal) s.fresh)
      ∧ I (after (rebuild s.files s.journal) s.fresh) := rebuild_keeps hI ⟨hempty, hopen⟩
  have hdisk : ∀ {r u : Store}, Indexed r ∧ I r → u.events = r.events → u.eventIndex = r.eventIndex →
      u.readModel.conversations = r.readModel.conversations → r.position ≤ u.position →
      (r.Addressed → u.Addressed) → Indexed u ∧ I u :=
    fun hr hevents hindex hconversations hposition haddressed =>
      have hgrows : Grows _ _ := ⟨hposition, haddressed, .inl ⟨hevents, hindex, hconversations⟩⟩
      ⟨hr.1.grows hgrows, hI hgrows hr.2⟩
  unfold Store.reopen
  unfold after at hrebuilt
  split
  · rename_i heq
    rw [heq] at hrebuilt
    exact hdisk hrebuilt rfl rfl rfl (Nat.le_refl _) fun h => h.of_eq rfl rfl
  · rename_i heq
    rw [heq] at hrebuilt
    exact hdisk hrebuilt rfl rfl rfl (Nat.le_refl _) fun h => h.of_eq rfl rfl

end

end

end ClaudeManager
