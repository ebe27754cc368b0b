import ClaudeManager.Messaging.Journal
import ClaudeManager.Messaging.Frames

/-!
# What a commit does

A commit checks the event, writes its file and its record, applies the record, reduces the
event and pushes it to the history. A status record is written and applied. Each of the two
is stated here as the states it goes through, for a success and for a failure.
-/

namespace ClaudeManager

open Json Containers Program

/-! ## Guards -/

namespace Store

theorem flushed_position {s : Store} : s.flushed.position = s.position := by
  unfold flushed
  cases s.ingestBatch <;> rfl

theorem flushed_degraded {s : Store} : s.flushed.degraded = s.degraded := by
  unfold flushed
  cases s.ingestBatch <;> rfl

end Store

theorem notDegraded_ok {s : Store} {u : PUnit} : s.notDegraded = .ok u ↔ s.degraded = none := by
  unfold Store.notDegraded
  cases h : s.degraded with
  | none => exact iff_of_true rfl rfl
  | some reason => simp

theorem ensureMessagingWritable_ok {s : Store} {u : PUnit} :
    s.ensureMessagingWritable = .ok u ↔ s.frozen = false := by
  simp [Store.ensureMessagingWritable]

theorem outcomeUnknown_fails {α : Type} (reason : String) (s : Store) (a : α) (t : Store) :
    outcomeUnknown reason s ≠ .ok a t := by
  intro h
  unfold outcomeUnknown at h
  rw [bind_modify_ok] at h
  exact throw_ok h

theorem giveUp_fails (e : ChatError) (s : Store) (a : PUnit) (t : Store) :
    giveUp e s ≠ .ok a t := by
  intro h
  unfold giveUp at h
  rw [bind_modify_ok] at h
  exact throw_ok h

section

variable [Externals]

/-! ## States on the way -/

namespace Store

/-- The store once a commit has read the clock and the event's logical time. -/
def clocked (s : Store) (time : Nat) : Store :=
  s.readClock.witness time

/-- The record of a commit. -/
def commitRecord (s : Store) (event : Value) (bytes source : String) (receipt : Option Value)
    (path : EventPath) (time : Nat) : Value :=
  (s.clocked time).publishRecord (s.position + 1) (Externals.now s.readings) event (hash bytes)
    source path ((s.clocked time).commitReceipt (s.position + 1) event (hash bytes) receipt)

/-- The store once the file and the record of a commit are written. -/
def written (s : Store) (event : Value) (bytes source : String) (receipt : Option Value)
    (path : EventPath) (time : Nat) : Store :=
  (s.clocked time).makeDurable (s.position + 1) path bytes
    (Externals.pretty (s.commitRecord event bytes source receipt path time))

/-- The publication of a commit. -/
def publication (s : Store) (event : Value) (bytes : String) : Published :=
  ⟨event, s.position + 1, Externals.now s.readings, hash bytes⟩

/-- What a commit checks before it writes. -/
structure Committable (s : Store) (event : Value) (bytes : String) (path : EventPath)
    (time : Nat) : Prop where
  writable : s.frozen = false
  sound : s.degraded = none
  path : s.eventPath event = .ok path
  size : checkEventSize event bytes.utf8ByteSize = .ok ⟨⟩
  room : s.position + 1 < 2 ^ 64
  timed : strv event "logical_time" ≠ ""
  time : parseU64 (strv event "logical_time") = some time

end Store

theorem bind_now_ok {α : Type} {f : String → Action α} {s t : Store} {b : α} :
    (now >>= f) s = .ok b t ↔
      f (Externals.now s.readings) s.readClock = .ok b t := Iff.rfl

theorem bind_now_error {α : Type} {f : String → Action α} {s t : Store} {e : ChatError} :
    (now >>= f) s = .error e t ↔ f (Externals.now s.readings) s.readClock = .error e t := Iff.rfl

theorem bind_uuid_ok {α : Type} {f : String → Action α} {s t : Store} {b : α} :
    (uuid >>= f) s = .ok b t ↔
      f (Externals.uuid s.daemonId s.minted) s.mint = .ok b t := Iff.rfl

theorem commitBytes_ok {event v : Value} {bytes source : String} {receipt : Option Value}
    {s t : Store} :
    commitBytes event bytes source receipt s = .ok v t ↔
      ∃ path time s2 s3, s.Committable event bytes path time ∧ s.files.lookup path = none
        ∧ applyReplicationJournal (s.commitRecord event bytes source receipt path time)
            (s.written event bytes source receipt path time) = .ok ⟨⟩ s2
        ∧ reduce event s2 = .ok ⟨⟩ s3
        ∧ v = event ∧ t = s3.pushPublished (s.publication event bytes) := by
  unfold commitBytes
  simp only [bind_query_ok, bind_check_ok, bind_get_ok, bind_modify_ok, bind_now_ok, required_ok,
    notDegraded_ok, ensureMessagingWritable_ok, checkedAdd_ok, u64Or_ok,
    bind_unless_ok (outcomeUnknown_fails _)]
  constructor
  · rintro ⟨_, hwritable, _, hsound, path, hpath, _, hsize, _, ⟨rfl, hroom⟩, _, ⟨rfl, htimed⟩, time,
      htime, hfile, h⟩
    obtain ⟨s2, happly, h⟩ := bind_unit_ok.mp h
    obtain ⟨s3, hreduce, h⟩ := bind_unit_ok.mp h
    rw [tryCatch_ok giveUp_fails] at hreduce
    rw [bind_modify_ok] at h
    obtain ⟨rfl, rfl⟩ := pure_ok.mp h
    exact ⟨path, time, s2, s3, ⟨hwritable, hsound, hpath, hsize, hroom, htimed, htime⟩,
      Option.not_isSome_iff_eq_none.mp hfile, happly, hreduce, rfl, rfl⟩
  · rintro ⟨path, time, s2, s3, hc, hfile, happly, hreduce, rfl, rfl⟩
    refine ⟨⟨⟩, hc.writable, ⟨⟩, hc.sound, path, hc.path, ⟨⟩, hc.size, _, ⟨rfl, hc.room⟩, _,
      ⟨rfl, hc.timed⟩, time, hc.time, ?_, bind_unit_ok.mpr ⟨s2, happly, bind_unit_ok.mpr ⟨s3,
        (tryCatch_ok giveUp_fails).mpr hreduce, rfl⟩⟩⟩
    show ¬ (s.files.lookup path).isSome = true
    simp [hfile]

/-- How a commit fails: refused, before or after it read the clock; where a file is in the
way; on its receipt, or in a reducer, with its record on disk. -/
theorem commitBytes_error {event : Value} {bytes source : String} {receipt : Option Value}
    {s t : Store} {e : ChatError} (h : commitBytes event bytes source receipt s = .error e t) :
    t = s ∨ t = s.readClock
      ∨ ∃ path time, s.Committable event bytes path time
        ∧ (((s.files.lookup path).isSome = true
            ∧ ∃ reason, t = { s.clocked time with degraded := some reason })
          ∨ s.files.lookup path = none
            ∧ (applyReplicationJournal (s.commitRecord event bytes source receipt path time)
                  (s.written event bytes source receipt path time) = .error e t
              ∨ ∃ s2 s3 e', applyReplicationJournal
                    (s.commitRecord event bytes source receipt path time)
                    (s.written event bytes source receipt path time) = .ok ⟨⟩ s2
                  ∧ reduce event s2 = .error e' s3
                  ∧ t = { s3 with degraded := some e'.display })) := by
  unfold commitBytes at h
  rw [bind_query_error] at h
  obtain ⟨-, rfl⟩ | ⟨_, hwritable, h⟩ := h
  · exact .inl rfl
  rw [bind_query_error] at h
  obtain ⟨-, rfl⟩ | ⟨_, hsound, h⟩ := h
  · exact .inl rfl
  rw [bind_query_error] at h
  obtain ⟨-, rfl⟩ | ⟨path, hpath, h⟩ := h
  · exact .inl rfl
  rw [bind_check_error] at h
  obtain ⟨-, rfl⟩ | ⟨_, hsize, h⟩ := h
  · exact .inl rfl
  rw [bind_query_error] at h
  obtain ⟨-, rfl⟩ | ⟨_, hadd, h⟩ := h
  · exact .inl rfl
  obtain ⟨rfl, hroom⟩ := checkedAdd_ok.mp hadd
  rw [bind_now_error, bind_check_error] at h
  obtain ⟨-, rfl⟩ | ⟨_, htimed, h⟩ := h
  · exact .inr (.inl rfl)
  obtain ⟨rfl, htimed⟩ := required_ok.mp htimed
  rw [bind_check_error] at h
  obtain ⟨-, rfl⟩ | ⟨time, htime, h⟩ := h
  · exact .inr (.inl rfl)
  rw [u64Or_ok] at htime
  refine .inr (.inr ⟨path, time, ⟨ensureMessagingWritable_ok.mp hwritable,
    notDegraded_ok.mp hsound, hpath, hsize, hroom, htimed, htime⟩, ?_⟩)
  rw [bind_modify_error, bind_get_error, bind_unit_error] at h
  obtain h | ⟨s', hfile, h⟩ := h
  · obtain ⟨hfile, h⟩ := onlyIf_error.mp h
    unfold outcomeUnknown at h
    rw [bind_modify_error, throw_error] at h
    exact .inl ⟨hfile, _, h.2.symm⟩
  · obtain ⟨hexists, hskip⟩ := onlyIf_ok.mp hfile
    have hnone : ¬ (s.files.lookup path).isSome = true := fun hsome =>
      outcomeUnknown_fails _ _ _ _ (hexists hsome)
    obtain rfl := hskip hnone
    refine .inr ⟨Option.not_isSome_iff_eq_none.mp hnone, ?_⟩
    rw [bind_modify_error, bind_unit_error] at h
    obtain h | ⟨s2, happly, h⟩ := h
    · exact .inl h
    · rw [bind_unit_error] at h
      obtain h | ⟨s3, -, h⟩ := h
      · obtain ⟨e', s3, hreduce, h⟩ := tryCatch_error.mp h
        refine .inr ⟨s2, s3, e', happly, hreduce, ?_⟩
        unfold giveUp at h
        rw [bind_modify_error, throw_error] at h
        exact h.2.symm
      · rw [bind_modify_error] at h
        exact absurd h pure_error

/-! ## Status records -/

namespace Store

/-- The status record that a store writes next. -/
def nextStatus (s : Store) (kind : String) (id digest : Option String) (data : Value) : Value :=
  s.flushed.readClock.statusRecord (s.flushed.position + 1) (Externals.now s.flushed.readings) kind id
    digest data

/-- The store once a status record is on disk. -/
def recorded (s : Store) (kind : String) (id digest : Option String) (data : Value) : Store :=
  s.flushed.readClock.appendRecord (s.flushed.position + 1)
    (Externals.pretty (s.nextStatus kind id digest data))

end Store

theorem journalStatus_ok {kind : String} {id digest : Option String} {data : Value}
    {s t : Store} :
    journalStatus kind id digest data s = .ok ⟨⟩ t ↔
      s.degraded = none ∧ s.position + 1 < 2 ^ 64
        ∧ applyReplicationJournal (s.nextStatus kind id digest data)
            (s.recorded kind id digest data) = .ok ⟨⟩ t := by
  unfold journalStatus flushIngestBatch
  simp only [bind_query_ok, bind_get_ok, bind_modify_ok, bind_now_ok, notDegraded_ok,
    checkedAdd_ok]
  rw [Store.flushed_degraded]
  constructor
  · rintro ⟨_, hsound, _, ⟨rfl, hroom⟩, h⟩
    exact ⟨hsound, Store.flushed_position (s := s) ▸ hroom, h⟩
  · rintro ⟨hsound, hroom, h⟩
    rw [← Store.flushed_position] at hroom
    exact ⟨⟨⟩, hsound, _, ⟨rfl, hroom⟩, h⟩

end

end ClaudeManager
