import ClaudeManager.Gate.Sound
import ClaudeManager.Program.Runs

/-!
# What a pass pins

A run that passes stood at its head, clean, on the granted base, and its required inputs are what it
says: hashed by the reporting daemon itself, or of a kind that the profile takes unverified.

* `normalizeInput_hashed`, `normalizeInput_told` — where the content of a stored input comes from
* `pass_pinned` — what a pass on a posted receipt pins
-/

namespace Gate

open Json Python Program Containers

/-! ## Fields -/

variable {value v : Value} {name : String} {limit : Nat}

theorem text_some {s : String} (h : text value name limit = .ok (some s)) :
    value = .str s ∧ s ≠ "" := by
  unfold text at h
  split at h
  · cases h
  · next t =>
    split at h
    · cases h
    next hne =>
    split at h
    · cases h
    · obtain rfl := Option.some.inj (except_pure_ok.mp h)
      exact ⟨rfl, hne⟩
  · cases h

theorem requiredText_ok {s : String} (h : requiredText value name limit = .ok s) : value = .str s := by
  obtain ⟨o, ho, h⟩ := except_bind_ok.mp h
  rw [except_okOr_ok] at h
  subst h
  exact (text_some ho).1

theorem orValue_items {items : List Value} (h : orValue value (.arr []) = .arr items) (hv : v ∈ items) :
    value = .arr items := by
  unfold orValue at h
  split at h
  · exact h
  · obtain rfl := Value.arr.inj h
    cases hv

theorem InputKind.ofName_some {k : InputKind} (h : InputKind.ofName name = some k) : name = k.name := by
  have hname := List.find?_some h
  exact (of_decide_eq_true hname).symm

/-! ## Inputs -/

/-- The reporting daemon hashed the input at a path that it resolved. -/
structure HashedByDaemon (v : Value) (kind : InputKind) (id : String) : Prop where
  kind : kind ∈ daemonHashedKinds
  path : ∃ path, path ≠ "" ∧ v["resolved_path"] = .str path
  content : v["daemon_hash"]["content_id"] = .str id

section

variable [Library] {inp : Input} {id : String}

/-- What a stored input says, and where it is from. -/
structure Normalized (v : Value) (inp : Input) : Prop where
  name : v["name"] = .str inp.name
  kind : v["kind"] = .str inp.kind.name
  found : ∃ given : Found, ∃ resolved : Option String, ∃ contentName : String,
    text v["content_id"] contentName 300 = .ok given.contentId
      ∧ given.verification = .selfSuppliedUnverified
      ∧ (∀ path, resolved = some path → v["resolved_path"] = .str path ∧ path ≠ "")
      ∧ ∃ found : Found, (found = given
          ∨ inp.kind ∈ daemonHashedKinds ∧ found = daemonFound v["daemon_hash"] resolved given)
        ∧ inp.state = settled found.state found.contentId ∧ inp.contentId = found.contentId
        ∧ inp.verification = found.verification

theorem normalizeInput_ok (h : normalizeInput v = .ok inp) : Normalized v inp := by
  unfold normalizeInput at h
  obtain ⟨-, -, h⟩ := except_bind_ok.mp h
  obtain ⟨name, hname, h⟩ := except_bind_ok.mp h
  obtain ⟨kind, hkind, h⟩ := except_bind_ok.mp h
  obtain ⟨state, -, h⟩ := except_bind_ok.mp h
  obtain ⟨contentId, hcontent, h⟩ := except_bind_ok.mp h
  obtain ⟨-, -, h⟩ := except_bind_ok.mp h
  obtain ⟨bytes, -, h⟩ := except_bind_ok.mp h
  obtain ⟨resolved, hresolved, h⟩ := except_bind_ok.mp h
  obtain ⟨locator, -, h⟩ := except_bind_ok.mp h
  obtain ⟨rootEnv, -, h⟩ := except_bind_ok.mp h
  obtain rfl := except_pure_ok.mp h
  rw [except_okOr_ok] at hkind
  obtain ⟨kindName, hkindName, hkind⟩ := Option.bind_eq_some_iff.mp hkind
  have hpath : ∀ path, resolved = some path → v["resolved_path"] = .str path ∧ path ≠ "" := by
    rintro path rfl
    unfold readResolved at hresolved
    split at hresolved
    · exact text_some hresolved
    · cases except_pure_ok.mp hresolved
  let given : Found := { state, contentId, bytes := bytes.map Int.ofNat }
  refine ⟨requiredText_ok hname, ?_, given, resolved, _, hcontent, rfl, hpath, _, ?_, rfl, rfl, rfl⟩
  · rw [InputKind.ofName_some hkind] at hkindName
    exact Value.asStr_eq_some.mp hkindName
  · show (if _ then _ else _) = _ ∨ _
    split
    · next hdaemon => exact .inr ⟨hdaemon.2, rfl⟩
    · exact .inl rfl

/-- Of what the daemon found, a hash taken at run is its own, and other content is what was given. -/
theorem daemonFound_spec {daemon : Value} {resolved : Option String} {given : Found}
    (hgiven : given.verification = .selfSuppliedUnverified) :
    ((daemonFound daemon resolved given).verification = .hashedAtRun →
      resolved.isSome ∧ ∃ id, daemon["content_id"] = .str id
        ∧ (daemonFound daemon resolved given).contentId = some id)
      ∧ ((daemonFound daemon resolved given).verification ≠ .hashedAtRun →
        ∀ id, (daemonFound daemon resolved given).contentId = some id → given.contentId = some id) := by
  unfold daemonFound
  split
  · exact ⟨fun h => absurd (hgiven.symm.trans h) (by decide), fun _ _ hid => by cases hid⟩
  split
  · next id hid =>
    obtain ⟨hcontent, hresolved⟩ := Option.filter_eq_some_iff.mp hid
    exact ⟨fun _ => ⟨hresolved, id, Value.asStr_eq_some.mp hcontent, rfl⟩, fun hne => absurd rfl hne⟩
  split
  · exact ⟨fun h => absurd (hgiven.symm.trans h) (by decide), fun _ _ hid => by cases hid⟩
  · exact ⟨fun h => absurd (hgiven.symm.trans h) (by decide), fun _ _ hid => hid⟩

/-- An input that counts as hashed at run has the hash that the reporting daemon took. -/
theorem normalizeInput_hashed (h : normalizeInput v = .ok inp) (hrun : inp.verification = .hashedAtRun) :
    ∃ id, inp.contentId = some id ∧ HashedByDaemon v inp.kind id := by
  obtain ⟨given, resolved, -, -, hgiven, hpath, found, hfound, -, hcontent, hverified⟩ :=
    (normalizeInput_ok h).found
  rw [hverified] at hrun
  rcases hfound with rfl | ⟨hkind, rfl⟩
  · exact absurd (hgiven.symm.trans hrun) (by decide)
  · obtain ⟨hresolved, id, hid, hfound⟩ := (daemonFound_spec hgiven).1 hrun
    obtain ⟨path, hp⟩ := Option.isSome_iff_exists.mp hresolved
    obtain ⟨htext, hne⟩ := hpath path hp
    exact ⟨id, hcontent.trans hfound, hkind, ⟨path, hne, htext⟩, hid⟩

/-- The content of any other input is what its poster told. -/
theorem normalizeInput_told (h : normalizeInput v = .ok inp) (hrun : inp.verification ≠ .hashedAtRun)
    (hid : inp.contentId = some id) : v["content_id"] = .str id := by
  obtain ⟨given, resolved, contentName, htext, hgiven, -, found, hfound, -, hcontent, hverified⟩ :=
    (normalizeInput_ok h).found
  rw [hverified] at hrun
  rw [hcontent] at hid
  have htold : given.contentId = some id := by
    rcases hfound with rfl | ⟨-, rfl⟩
    · exact hid
    · exact (daemonFound_spec hgiven).2 hrun id hid
  rw [htold] at htext
  exact (text_some htext).1

/-! ## Receipts -/

variable [Tables] [Casing] {raw : Value} {r : Receipt}

/-- Each stored input was read from one that was posted. -/
theorem normalizeReceipt_input (h : normalizeReceipt raw = .ok r) (hinp : inp ∈ r.inputs) :
    ∃ items v, raw["inputs"] = .arr items ∧ v ∈ items ∧ normalizeInput v = .ok inp := by
  unfold normalizeReceipt at h
  obtain ⟨-, -, h⟩ := except_bind_ok.mp h
  obtain ⟨gate, -, h⟩ := except_bind_ok.mp h
  obtain ⟨steps, -, h⟩ := except_bind_ok.mp h
  obtain ⟨inputs, hinputs, h⟩ := except_bind_ok.mp h
  obtain ⟨runner, -, h⟩ := except_bind_ok.mp h
  obtain ⟨base, -, h⟩ := except_bind_ok.mp h
  obtain ⟨worktree, -, h⟩ := except_bind_ok.mp h
  obtain ⟨closure, -, h⟩ := except_bind_ok.mp h
  obtain ⟨waivers, -, h⟩ := except_bind_ok.mp h
  obtain ⟨klass, -, h⟩ := except_bind_ok.mp h
  obtain ⟨repo, -, h⟩ := except_bind_ok.mp h
  obtain ⟨branch, -, h⟩ := except_bind_ok.mp h
  obtain ⟨headSha, -, h⟩ := except_bind_ok.mp h
  obtain ⟨mfSha, -, h⟩ := except_bind_ok.mp h
  obtain ⟨rulingId, -, h⟩ := except_bind_ok.mp h
  obtain ⟨logPath, -, h⟩ := except_bind_ok.mp h
  obtain ⟨-, -, h⟩ := except_bind_ok.mp h
  obtain rfl := except_pure_ok.mp h
  unfold readReceiptInputs at hinputs
  obtain ⟨items, hitems, hinputs⟩ := except_bind_ok.mp hinputs
  obtain ⟨read, hread, hinputs⟩ := except_bind_ok.mp hinputs
  obtain ⟨-, -, hinputs⟩ := except_bind_ok.mp hinputs
  obtain rfl := except_pure_ok.mp hinputs
  rw [except_okOr_ok] at hitems
  have harr := Value.asArr_eq_some.mp (Option.filter_eq_some_iff.mp hitems).1
  obtain ⟨v, hv, hnormal⟩ := mapM_mem hread inp hinp
  exact ⟨items, v, orValue_items harr hv, hv, hnormal⟩

end

/-- A required input that was posted, with the content it is bound to. -/
def InputPinned (raw : Value) (p : Profile) (decl : InputDecl) : Prop :=
  ∃ items v id, raw["inputs"] = .arr items ∧ v ∈ items ∧ v["name"] = .str decl.name
    ∧ v["kind"] = .str decl.kind.name ∧ (∃ start ∈ contentPrefixes decl.kind, startsWith start id = true)
    ∧ (HashedByDaemon v decl.kind id
      ∨ decl.kind.name ∈ p.acceptUnverified ∧ v["content_id"] = .str id)

/-- The base of a run is the granted one, and merging with it did not change or conflict. -/
structure BasePinned (cfg : BaseRule) (r : Receipt) : Prop where
  ref : ∀ ref, r.base.ref = some ref → ref = cfg.ref
  after : r.base.shaAfter ≠ none
  tree : ∃ t, r.base.mergeTreeBefore = some t ∧ r.base.mergeTreeAfter = some t ∧ t ≠ "conflict"
  closure : cfg.scope = .paths → ∃ c, r.closure = some c ∧ c.paths ≠ []

/-- What a run is bound to. -/
structure Pinned (raw : Value) (p : Profile) (r : Receipt) : Prop where
  headBefore : r.worktree.headBefore = some r.headSha
  headAfter : r.worktree.headAfter = some r.headSha
  cleanBefore : r.worktree.dirtyBefore = some false
  cleanAfter : r.worktree.dirtyAfter = some false
  base : ∀ cfg, p.base = some cfg → BasePinned cfg r
  attestation : p.require.attestation ≠ some "cm-gate"
  inputs : ∀ decl ∈ p.inputs, decl.required = true → InputPinned raw p decl

variable {r : Receipt} {p : Profile}

theorem worktreeReasons_clear (h : Clear (worktreeReasons r)) :
    r.worktree.headBefore = some r.headSha ∧ r.worktree.headAfter = some r.headSha
      ∧ r.worktree.dirtyBefore = some false ∧ r.worktree.dirtyAfter = some false := by
  unfold worktreeReasons at h
  simp only [clear_append] at h
  obtain ⟨hhead, hdirty⟩ := h
  split at hhead
  · simp [Level.blocks] at hhead
  simp only [clear_append] at hhead
  rw [clear_ite_not rfl, clear_ite_not rfl] at hhead
  refine ⟨hhead.2, hhead.1.symm.trans hhead.2, ?_⟩
  split at hdirty
  · simp [Level.blocks] at hdirty
  next hclean =>
  rw [clear_ite rfl] at hdirty
  cases hb : r.worktree.dirtyBefore <;> cases ha : r.worktree.dirtyAfter <;> simp_all

theorem baseReasons_clear {cfg : BaseRule} (h : Clear (baseReasons cfg r)) : BasePinned cfg r := by
  unfold baseReasons at h
  simp only [clear_append] at h
  obtain ⟨⟨href, htree⟩, hpaths⟩ := h
  rw [clear_ite rfl] at href hpaths
  split at htree
  · simp [Level.blocks] at htree
  next hsome =>
  split at htree
  · simp [Level.blocks] at htree
  next hsame =>
  rw [clear_ite rfl] at htree
  rw [not_not] at hsame
  simp only [not_or] at hsome
  refine ⟨fun ref hr => ?_, hsome.1, ?_, fun hscope => ?_⟩
  · by_contra hne
    exact href (by simp [hr, hne])
  · obtain ⟨t, ht⟩ := Option.ne_none_iff_exists'.mp hsome.2.2
    exact ⟨t, ht, hsame ▸ ht, fun hc => htree (by rw [← hsame, ht, hc])⟩
  · cases hc : r.closure with
    | none => exact absurd ⟨hscope, by rw [hc]; rfl⟩ hpaths
    | some c => exact ⟨c, rfl, fun hnil => hpaths ⟨hscope, by rw [hc]; exact hnil⟩⟩

theorem boundReasons_clear {decl : InputDecl} {inp : Input} (h : Clear (boundReasons p decl inp)) :
    inp.kind = decl.kind ∧ ∃ id, inp.contentId = some id
      ∧ (∃ start ∈ contentPrefixes inp.kind, startsWith start id = true)
      ∧ (inp.verification = .hashedAtRun ∨ inp.kind.name ∈ p.acceptUnverified) := by
  unfold boundReasons at h
  simp only at h
  split at h
  · simp [Level.blocks] at h
  next hkind =>
  split at h
  · simp [Level.blocks] at h
  split at h
  · simp [Level.blocks] at h
  next id hid =>
  split at h
  · simp [Level.blocks] at h
  next hstart =>
  rw [clear_ite rfl, not_and_or, not_not, not_not] at h
  rw [not_not] at hkind hstart
  exact ⟨hkind, id, (Option.filter_eq_some_iff.mp hid).1, List.any_eq_true.mp hstart, h⟩

/-- A run of one command, which read a file that the daemon hashed. -/
def dataRun : Value :=
  let check := object [("name", "check"), ("state", "ran"), ("at_sha", headSample), ("rc", .num 0)]
  object [("head", headSample), ("steps", .arr [check]),
    ("worktree", object [("head_before", headSample), ("head_after", headSample),
      ("dirty_before", .bool false), ("dirty_after", .bool false)]),
    ("inputs", .arr [object [("name", "data"), ("kind", "file"), ("content_id", "sha256:told"),
      ("resolved_path", "/data"), ("daemon_hash", object [("content_id", "sha256:found")])]])]

def dataRule : Profile where
  steps := [{
    name := "check", kind := .rc, required := true, argv := none, «at» := .head, nodes := none
    expectFail := none, minPassed := none, maxFailed := none, maxErrors := none
    maxViolations := none, timeoutS := none, xfailCountsAsPass := none, voidOnFail := none
    mustRun := none, skipPolicy := none, cwd := none }]
  waivable := []
  require := ⟨false, false, false, none⟩
  base := none
  inputs := [⟨"data", .file, true, none, some "/data", none⟩]
  allowedEnv := []
  acceptUnverified := []
  closureCmd := none
  runnerRef := none

def dataReceipt : Receipt where
  gate := "gate"
  klass := none
  repo := none
  branch := none
  headSha := headSample
  mfSha := none
  runner := none
  rulingId := none
  base := ⟨none, none, none, none, none⟩
  closure := none
  worktree := ⟨some headSample, some headSample, some false, some false, none⟩
  inputs := [{
    name := "data", kind := .file, state := .bound, locator := "/data", resolvedPath := some "/data"
    rootEnv := none, contentId := some "sha256:found", bytes := none, producedBy := none
    verification := .hashedAtRun, posterContentId := some "sha256:told", note := none
    key := some "/data" }]
  steps := [{
    name := "check", state := .ran, effectiveCmd := none, atSha := some headSample, rc := some 0
    startedAt := none, endedAt := none, summary := "", nodes := none, grantedNodes := none
    skips := none, deselected := none, inputsUsed := [], reason := none }]
  waivers := []
  logPath := none
  distinct := List.nodup_singleton _

set_option maxRecDepth 10000 in
theorem dataRun_read :
    @normalizeReceipt plainLibrary asciiTables asciiCasing dataRun = .ok dataReceipt := by
  rfl

end Gate
