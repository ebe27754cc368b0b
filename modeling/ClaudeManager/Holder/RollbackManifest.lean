import ClaudeManager.Holder.Calm

/-!
# The reverse-migration manifest

The manifest of a monolith, put together from the record blobs that the brain stored, each
patched with the holder's own descriptors, pid and start time.
-/

namespace Holder

open Json Containers Program

/-! ## Session records -/

structure DoneReportRecord where
  atUnix : Rat
  ageS : Rat
  reason : Option String
  deriving DecidableEq

/-- One session of the manifest. -/
structure SessionRecord where
  uid : String
  generation : Nat
  transcriptId : Option String
  transcriptPath : Option String
  sessionType : String
  title : String
  workspaceId : String
  taskId : Option String
  managedByUid : Option String
  workflowRunId : Option String
  workflowRole : Option String
  continuousTaskId : Option String
  globalPerms : Bool
  memoryCapSoftBytes : Option Nat
  memoryCapHardBytes : Option Nat
  lastActivityAgeS : Option Rat
  lastInputAgeS : Option Rat
  lastOperatorInputAgeS : Option Rat
  lastTurnEndAgeS : Option Rat
  doneReport : Option DoneReportRecord
  childPid : Int
  childStartTime : Nat
  ptyMasterFd : Fd
  pidfd : Fd
  cgroupPrefix : Option String
  watcherCheckpoint : Option Value
  org : Option Value
  deriving DecidableEq

structure ReexecManifest where
  schemaVersion : Nat
  attempt : Nat
  reexecGeneration : Nat
  rollbackBinFd : Fd
  sessions : List SessionRecord
  listenerFd : Fd
  tlsListenerFd : Option Fd

/-! ## Parsing -/

/-- An `f64`. -/
def asF64 : Value → Option Rat
  | .num n => some n
  | .frac q => some q
  | _ => none

def asInt : Value → Option Int
  | .num n => some n
  | _ => none

def asNat : Value → Option Nat
  | .num n => if 0 ≤ n then some n.toNat else none
  | _ => none

def asObject : Value → Option Value
  | .obj members => some (.obj members)
  | _ => none

/-- A record is an object of named fields or an array of its fields in order. -/
def doneReportRecord : Value → Option DoneReportRecord
  | .obj members => do
    let v := Value.obj members
    let atUnix ← (v.get? "at_unix").bind asF64
    let ageS ← (v.get? "age_s").bind asF64
    let reason ← Decode.option Value.asStr (v.get? "reason")
    some ⟨atUnix, ageS, reason⟩
  | .arr [atUnix, ageS, reason] => do
    let atUnix ← asF64 atUnix
    let ageS ← asF64 ageS
    let reason ← Decode.option Value.asStr (some reason)
    some ⟨atUnix, ageS, reason⟩
  | _ => none

/-- The fields of a record that the holder does not patch. -/
def SessionRecord.fromBlob (v : Value) (uid : String) (childPid : Int) (childStartTime : Nat)
    (ptyMasterFd pidfd : Fd) : Option SessionRecord := do
  let generation ← (v.get? "generation").bind Value.asU64
  let transcriptId ← Decode.option Value.asStr (v.get? "transcript_id")
  let transcriptPath ← Decode.option Value.asStr (v.get? "transcript_path")
  let sessionType ← (v.get? "session_type").bind Value.asStr
  let title ← (v.get? "title").bind Value.asStr
  let workspaceId ← (v.get? "workspace_id").bind Value.asStr
  let taskId ← Decode.option Value.asStr (v.get? "task_id")
  let managedByUid ← Decode.option Value.asStr (v.get? "managed_by_uid")
  let workflowRunId ← Decode.option Value.asStr (v.get? "workflow_run_id")
  let workflowRole ← Decode.option Value.asStr (v.get? "workflow_role")
  let continuousTaskId ← Decode.option Value.asStr (v.get? "continuous_task_id")
  let globalPerms ← (v.get? "global_perms").bind Value.asBool
  let memoryCapSoftBytes ← Decode.option Value.asU64 (v.get? "memory_cap_soft_bytes")
  let memoryCapHardBytes ← Decode.option Value.asU64 (v.get? "memory_cap_hard_bytes")
  let lastActivityAgeS ← Decode.option asF64 (v.get? "last_activity_age_s")
  let lastInputAgeS ← Decode.option asF64 (v.get? "last_input_age_s")
  let lastOperatorInputAgeS ← Decode.option asF64 (v.get? "last_operator_input_age_s")
  let lastTurnEndAgeS ← Decode.option asF64 (v.get? "last_turn_end_age_s")
  let doneReport ← Decode.option doneReportRecord (v.get? "done_report")
  let cgroupPrefix ← Decode.option Value.asStr (v.get? "cgroup_prefix")
  let watcherCheckpoint ← Decode.option some (v.get? "watcher_checkpoint")
  let org ← Decode.option asObject (v.get? "org")
  some { uid, generation, transcriptId, transcriptPath, sessionType, title, workspaceId, taskId,
         managedByUid, workflowRunId, workflowRole, continuousTaskId, globalPerms,
         memoryCapSoftBytes, memoryCapHardBytes, lastActivityAgeS, lastInputAgeS,
         lastOperatorInputAgeS, lastTurnEndAgeS, doneReport, childPid, childStartTime,
         ptyMasterFd, pidfd, cgroupPrefix, watcherCheckpoint, org }

/-- `from_value` on a record. The five fields that the holder patches have its own numbers' width. -/
def sessionRecord (v : Value) : Option SessionRecord := do
  let uid ← (v.get? "uid").bind Value.asStr
  let childPid ← (v.get? "child_pid").bind asInt
  let childStartTime ← (v.get? "child_start_time").bind asNat
  let ptyMasterFd ← (v.get? "pty_master_fd").bind asInt
  let pidfd ← (v.get? "pidfd").bind asInt
  SessionRecord.fromBlob v uid childPid childStartTime ptyMasterFd pidfd

/-! ## The projection -/

inductive RollbackError where
  | noRecord (uid : String)
  | notObject (uid : String)
  | noMaster (uid : String)
  | badRecord (uid : String)
  | noListener
  deriving DecidableEq

/-- What the error says, short of what the parser says. -/
def RollbackError.text : RollbackError → String
  | .noRecord uid => s!"session '{uid}' has no rollback_record"
  | .notObject uid => s!"session '{uid}' blob is not an object"
  | .noMaster uid => s!"session '{uid}' has no master fd"
  | .badRecord uid => s!"session '{uid}' blob does not parse as a SessionRecord: "
  | .noListener => "no custodied unix listener"

/-- The blob, patched with what the holder knows of the session. -/
def SessionEntry.patched (e : SessionEntry) (uid : String) (master : Fd) (blob : Value) : Value :=
  ((((blob.set "uid" (.str uid)).set "pty_master_fd" (.num master)).set "pidfd"
    (.num e.pidfd.fd)).set "child_pid" (.num e.pid)).set "child_start_time" (.num e.childStartTime)

/-- The record of one session. -/
def rollbackSession (uid : String) (e : SessionEntry) : Except RollbackError SessionRecord := do
  let blob ← okOr e.rollbackRecord (.noRecord uid)
  refuse (¬ blob.isObj) (.notObject uid)
  let master ← okOr e.masterRawFd (.noMaster uid)
  okOr (sessionRecord (e.patched uid master blob)) (.badRecord uid)

/-- `rollback_manifest`. -/
def State.rollbackManifest (h : State) (schemaVersion reexecGeneration : Nat)
    (rollbackBinFd : Fd) : Except RollbackError ReexecManifest := do
  let sessions ← h.sessions.toList.mapM fun entry => rollbackSession entry.1 entry.2
  let listener ← okOr (h.listeners.find? fun l => l.1.kind = "unix") .noListener
  pure
    { schemaVersion := schemaVersion
      attempt := 0
      reexecGeneration := reexecGeneration
      rollbackBinFd := rollbackBinFd
      sessions := sessions
      listenerFd := listener.2
      tlsListenerFd := (h.listeners.find? fun l => l.1.kind = "tls").map (·.2) }

/-! ## What it hands over -/

/-- What a record says of the session's kernel objects. -/
def SessionRecord.handle (r : SessionRecord) : String × Option Fd × Fd × Int × Nat :=
  (r.uid, some r.ptyMasterFd, r.pidfd, r.childPid, r.childStartTime)

def SessionEntry.handle (uid : String) (e : SessionEntry) : String × Option Fd × Fd × Int × Nat :=
  (uid, e.masterRawFd, e.pidfd.fd, e.pid, e.childStartTime)

/-- The session can be handed over: it has a master, and a blob that parses once patched. -/
def Projects (uid : String) (e : SessionEntry) : Prop := ∃ r, rollbackSession uid e = .ok r

instance (uid : String) (e : SessionEntry) : Decidable (Projects uid e) :=
  match h : rollbackSession uid e with
  | .ok r => isTrue ⟨r, h⟩
  | .error _ => isFalse fun ⟨_, hr⟩ => by
    rw [h] at hr
    cases hr

theorem rollbackSession_ok {uid : String} {e : SessionEntry} {r : SessionRecord} :
    rollbackSession uid e = .ok r ↔ ∃ blob master, e.rollbackRecord = some blob ∧
      blob.isObj = true ∧ e.masterRawFd = some master ∧
      sessionRecord (e.patched uid master blob) = some r := by
  unfold rollbackSession
  simp only [except_bind_ok, except_okOr_ok, except_refuse_ok, not_not]
  constructor
  · rintro ⟨blob, hb, _, hobj, master, hm, hr⟩
    exact ⟨blob, master, hb, hobj, hm, hr⟩
  · rintro ⟨blob, master, hb, hobj, hm, hr⟩
    exact ⟨blob, hb, ⟨⟩, hobj, master, hm, hr⟩

/-- A session that retains what is handed over projects to the same record. -/
theorem rollbackSession_retains {uid : String} {e e' : SessionEntry} (h : Retains e e') :
    rollbackSession uid e' = rollbackSession uid e := by
  unfold rollbackSession SessionEntry.masterRawFd SessionEntry.patched
  rw [h.record, h.master, h.pidfd, h.pid, h.startTime]

/-- The fields that the holder patches are taken over as they are. -/
theorem SessionRecord.fromBlob_handle {v : Value} {uid : String} {childPid : Int}
    {childStartTime : Nat} {ptyMasterFd pidfd : Fd} {r : SessionRecord}
    (h : fromBlob v uid childPid childStartTime ptyMasterFd pidfd = some r) :
    r.handle = (uid, some ptyMasterFd, pidfd, childPid, childStartTime) := by
  unfold fromBlob at h
  -- one field after the other decoded
  iterate 22 obtain ⟨_, -, h⟩ := Option.bind_eq_some_iff.mp h
  cases h
  rfl

/-- A projected record names the session's own descriptors, pid and start time. -/
theorem rollbackSession_handle {uid : String} {e : SessionEntry} {r : SessionRecord}
    (h : rollbackSession uid e = .ok r) : r.handle = e.handle uid := by
  obtain ⟨blob, master, -, hobj, hm, hr⟩ := rollbackSession_ok.mp h
  obtain ⟨members, rfl⟩ : ∃ members, blob = .obj members := by
    cases blob <;> simp_all [Value.isObj]
  have huid : (e.patched uid master (.obj members)).get? "uid" = some (.str uid) := by
    simp [SessionEntry.patched, Value.set, Value.get?, lookup_insertMember]
  have hmaster : (e.patched uid master (.obj members)).get? "pty_master_fd"
      = some (.num master) := by
    simp [SessionEntry.patched, Value.set, Value.get?, lookup_insertMember]
  have hpidfd : (e.patched uid master (.obj members)).get? "pidfd" = some (.num e.pidfd.fd) := by
    simp [SessionEntry.patched, Value.set, Value.get?, lookup_insertMember]
  have hpid : (e.patched uid master (.obj members)).get? "child_pid" = some (.num e.pid) := by
    simp [SessionEntry.patched, Value.set, Value.get?, lookup_insertMember]
  have hstart : (e.patched uid master (.obj members)).get? "child_start_time"
      = some (.num e.childStartTime) := by
    simp [SessionEntry.patched, Value.set, Value.get?, lookup_insertMember]
  unfold sessionRecord at hr
  rw [huid, hmaster, hpidfd, hpid, hstart] at hr
  simp only [Option.bind_eq_bind, Option.bind_some, Value.asStr, asInt, asNat,
    Int.natCast_nonneg, if_true, Int.toNat_natCast] at hr
  rw [SessionRecord.fromBlob_handle hr, SessionEntry.handle, hm]

theorem except_mapM_ok {α β ε : Type} {l : List α} {f : α → Except ε β}
    (h : ∀ a ∈ l, ∃ b, f a = .ok b) :
    ∃ bs, l.mapM f = .ok bs ∧ List.Forall₂ (fun a b => f a = .ok b) l bs := by
  induction l with
  | nil => exact ⟨[], rfl, .nil⟩
  | cons a l ih =>
    obtain ⟨b, hb⟩ := h a (by simp)
    obtain ⟨bs, hbs, hall⟩ := ih fun x hx => h x (List.mem_cons_of_mem _ hx)
    refine ⟨b :: bs, ?_, .cons hb hall⟩
    rw [List.mapM_cons, hb]
    simp only [hbs, bind, Except.bind]
    rfl

/-- Where each session projects and a unix listener is held, the manifest has one record for each
session, which names the session's own descriptors, pid and start time. -/
theorem rollbackManifest_ok {h : State}
    (hall : ∀ (uid : String) (e : SessionEntry), h.sessions[uid]? = some e → Projects uid e)
    (hlistener : ∃ l ∈ h.listeners, l.1.kind = "unix") (version generation : Nat) (bin : Fd) :
    ∃ m, h.rollbackManifest version generation bin = .ok m ∧
      m.sessions.map SessionRecord.handle
        = h.sessions.toList.map fun entry => entry.2.handle entry.1 := by
  obtain ⟨records, hrecords, hpairs⟩ := except_mapM_ok (l := h.sessions.toList)
    (f := fun entry => rollbackSession entry.1 entry.2) fun entry he =>
      hall entry.1 entry.2 (mem_toList_map.mp he)
  obtain ⟨listener, hl⟩ : ∃ l, h.listeners.find? (fun l => l.1.kind = "unix") = some l := by
    rw [← Option.isSome_iff_exists, List.find?_isSome]
    simpa using hlistener
  refine ⟨⟨version, 0, generation, bin, records, listener.2,
    (h.listeners.find? fun l => l.1.kind = "tls").map (·.2)⟩, ?_, ?_⟩
  · unfold State.rollbackManifest
    rw [hrecords, hl]
    rfl
  · clear hrecords hall
    generalize h.sessions.toList = l at hpairs ⊢
    induction hpairs with
    | nil => rfl
    | cons hr _ ih =>
      rw [List.map_cons, List.map_cons, rollbackSession_handle hr, ih]

end Holder
