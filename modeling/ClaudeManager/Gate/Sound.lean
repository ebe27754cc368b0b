import ClaudeManager.Gate.Verdict

/-!
# What a pass says

* `Sound` — what a run shows, of which the verdict is a pass
* `Unhidden` — no must-fail step reports a wanted node again over something else
* `pass_sound_iff` — a run that passes is sound exactly where nothing is hidden
-/

namespace Gate

open Json Python Program Containers

/-! ## Reasons that do not block -/

/-- None of the reasons keeps a verdict from a pass. -/
def Clear (reasons : List Reason) : Prop := ∀ f ∈ reasons, f.level.blocks = false

variable {fs gs : List Reason} {f : Reason}

@[simp] theorem clear_nil : Clear [] := by
  intro f hf
  cases hf

@[simp] theorem clear_cons : Clear (f :: fs) ↔ f.level.blocks = false ∧ Clear fs := by
  unfold Clear
  rw [List.forall_mem_cons]

@[simp] theorem clear_append : Clear (fs ++ gs) ↔ Clear fs ∧ Clear gs := by
  unfold Clear
  rw [List.forall_mem_append]

theorem clear_flatten {l : List (List Reason)} : Clear l.flatten ↔ ∀ fs ∈ l, Clear fs := by
  unfold Clear
  constructor
  · intro h fs hfs f hf
    exact h f (List.mem_flatten.mpr ⟨fs, hfs, hf⟩)
  · intro h f hf
    obtain ⟨fs, hfs, hf⟩ := List.mem_flatten.mp hf
    exact h fs hfs f hf

theorem clear_flatMap {α : Type} {l : List α} {g : α → List Reason} :
    Clear (l.flatMap g) ↔ ∀ a ∈ l, Clear (g a) := by
  rw [List.flatMap_def, clear_flatten, List.forall_mem_map]

/-- A reason that blocks is not there where the reasons are clear. -/
theorem clear_ite {c : Prop} [Decidable c] (hf : f.level.blocks = true) :
    Clear (if c then [f] else []) ↔ ¬ c := by
  split <;> simp_all

theorem clear_ite_not {c : Prop} [Decidable c] (hf : f.level.blocks = true) :
    Clear (if c then [] else [f]) ↔ c := by
  split <;> simp_all

/-- A verdict is a pass where no reason blocks. -/
theorem combine_pass : (combine fs).verdict = .pass ↔ Clear fs := by
  unfold combine Clear
  simp only
  constructor
  · intro h f hf
    split at h
    · cases h
    next hfail =>
    split at h
    · cases h
    next hvoid =>
    split at h
    · cases h
    next hincomplete =>
    rw [List.any_eq_true] at hfail hvoid hincomplete
    cases hlevel : f.level with
    | fail => exact absurd ⟨f, hf, by simp [hlevel]⟩ hfail
    | void => exact absurd ⟨f, hf, by simp [hlevel]⟩ hvoid
    | incomplete => exact absurd ⟨f, hf, by simp [hlevel]⟩ hincomplete
    | waived => rfl
    | note => rfl
  · intro h
    have hnone : ∀ l : Level, l.blocks = true → ¬ (fs.any fun f => f.level = l) = true := by
      intro l hl hany
      obtain ⟨f, hf, hlevel⟩ := List.any_eq_true.mp hany
      have hclear := h f hf
      rw [of_decide_eq_true hlevel, hl] at hclear
      cases hclear
    rw [if_neg (hnone .fail rfl), if_neg (hnone .void rfl), if_neg (hnone .incomplete rfl)]

/-! ## Grants -/

/-- A grant is verified for this run, and about the step. -/
structure Holds (r : Receipt) (step : String) (kind : GrantKind) (g : CheckedGrant) : Prop where
  step : g.step = step
  kind : g.kind = kind
  gate : g.gate = r.gate
  verified : g.problems = []
  head : g.headSha = r.headSha
  base : ∀ base, g.boundBase = some base → r.base.shaBefore = some base

/-- A waiver that the receipt cites is verified for the step. -/
structure Waives (r : Receipt) (step : String) (g : CheckedGrant) : Prop
    extends Holds r step .waiver g where
  cited : g.label ∈ r.waivers

/-- A waiver of the whole step. -/
def Waived (grants : List CheckedGrant) (r : Receipt) (step : String) : Prop :=
  ∃ g ∈ grants, Waives r step g ∧ g.named = []

/-- A waiver names the node. -/
def Covered (grants : List CheckedGrant) (r : Receipt) (step id : String) : Prop :=
  ∃ g ∈ grants, Waives r step g ∧ id ∈ g.named

/-- A selection names the node. -/
def Selected (grants : List CheckedGrant) (r : Receipt) (step id : String) : Prop :=
  ∃ g ∈ grants, Holds r step .selection g ∧ id ∈ g.named

variable {grants : List CheckedGrant} {r : Receipt} {step id : String} {kind : GrantKind}
  {g : CheckedGrant}

theorem unverified_nil : unverified r g = [] ↔ g.problems = [] ∧ g.headSha = r.headSha ∧
    ∀ base, g.boundBase = some base → r.base.shaBefore = some base := by
  unfold unverified
  cases g.boundBase with
  | none => simp
  | some base =>
    by_cases h : r.base.shaBefore = some base
    · simp [h]
    · simp [h, Ne.symm h]

theorem mem_covering : g ∈ covering grants r step kind ↔
    g ∈ grants ∧ Holds r step kind g ∧ (kind = .waiver → g.label ∈ r.waivers) := by
  unfold covering relevant
  rw [List.mem_filter]
  simp only [Bool.and_eq_true, decide_eq_true_eq, Bool.or_eq_true, List.contains_iff_mem,
    unverified_nil]
  constructor
  · rintro ⟨hg, ⟨⟨⟨hstep, hkind⟩, hgate⟩, hcited⟩, hproblems, hhead, hbase⟩
    exact ⟨hg, ⟨hstep, hkind, hgate, hproblems, hhead, hbase⟩, fun h => hcited.resolve_left fun hne => hne h⟩
  · rintro ⟨hg, h, hcited⟩
    exact ⟨hg, ⟨⟨⟨h.step, h.kind⟩, h.gate⟩, (em (kind = .waiver)).elim (fun hk => .inr (hcited hk)) .inl⟩,
      h.verified, h.head, h.base⟩

theorem mem_covering_waiver : g ∈ covering grants r step .waiver ↔ g ∈ grants ∧ Waives r step g := by
  rw [mem_covering]
  exact and_congr_right fun _ => ⟨fun h => ⟨h.1, h.2 rfl⟩, fun h => ⟨h.toHolds, fun _ => h.cited⟩⟩

theorem mem_coveredNodes : id ∈ coveredNodes grants r step ↔ Covered grants r step id := by
  unfold coveredNodes Covered
  rw [List.mem_flatMap]
  simp only [mem_covering_waiver, and_assoc]

theorem mem_selectedNodes : id ∈ selectedNodes grants r step ↔ Selected grants r step id := by
  unfold selectedNodes sorted Selected
  rw [List.mem_insertionSort, mem_fromKeys, List.mem_flatMap]
  simp only [mem_covering, reduceCtorEq, false_implies, and_true, and_assoc]

theorem wholeWaiver_none : wholeWaiver grants r step = none ↔ ¬ Waived grants r step := by
  unfold wholeWaiver Waived
  rw [List.find?_eq_none]
  simp only [mem_covering_waiver, decide_eq_true_eq]
  constructor
  · rintro h ⟨g, hg, hw, hnone⟩
    exact h g ⟨hg, hw⟩ hnone
  · rintro h g ⟨hg, hw⟩ hnone
    exact h ⟨g, hg, hw, hnone⟩

/-! ## What a run shows -/

/-- The exceptions that a node may fail with: its own, or else the default. -/
def allowedNames (expect : ExpectFail) (id : String) : List String :=
  ((expect.nodes[id]?).filter (· ≠ [])).getD [expect.default]

/-- A report of an allowed failure. -/
structure Fails (sp : Step) (n : Node) : Prop where
  failed : n.outcome = .failed
  allowed : ∃ exc ∈ allowedNames (expectFail sp) n.id, n.excType = some exc

/-- A node that is granted to the step: by the profile, or else by a selection. -/
def IsGranted (grants : List CheckedGrant) (r : Receipt) (sp : Step) (id : String) : Prop :=
  if sp.nodes.getD [] = [] then Selected grants r sp.name id else id ∈ sp.nodes.getD []

/-- The summary, the lists and the exit code agree with the nodes. -/
structure Agrees [Library] [Tables] (st : StepReport) (nodes : List Node) (skips deselected : List Reasoned) :
    Prop where
  summary : ∃ c, parsePytest st.summary = some c ∧ c.passed = countOf nodes .passed
    ∧ c.failed = countOf nodes .failed ∧ c.errors = countOf nodes .error
    ∧ c.skipped = countOf nodes .skipped ∧ c.xfailed = countOf nodes .xfailed
    ∧ c.xpassed = countOf nodes .xpassed
  rc : ∃ rc, st.rc = some rc ∧ if countOf nodes .failed + countOf nodes .error = 0 then
    rc = 0 ∨ rc = 5 else rc ≠ 0
  skips : (skips.map Reasoned.node).Perm (idsOf nodes .skipped)
  deselected : (deselected.map Reasoned.node).Perm (idsOf nodes .deselected)

/-- A test step at the head is within its limits. -/
structure HeadSound [Library] (sp : Step) (nodes : List Node) (skips : List Reasoned)
    (covered : String → Prop) : Prop where
  failures : countOf nodes .failed + countOf nodes .error ≤ sp.maxFailed.getD 0
  passes : sp.minPassed.getD 1 ≤ countOf nodes .passed
    + if sp.xfailCountsAsPass.getD false then countOf nodes .xfailed else 0
  mustRun : ∀ entry ∈ sp.mustRun.getD [], ∀ n ∈ nodes, within n.id entry = true → ¬ covered n.id →
    ∃ n' ∈ nodes, n'.id = n.id ∧ n'.outcome.ran = true
  skips : ∀ s ∈ skips, ¬ covered s.node →
    s.reason ≠ "" ∧ ∃ p ∈ (skipPolicy sp).allowReasons, Library.search p s.reason = true

/-- Every report of a wanted node is an allowed failure. -/
def MfSound (sp : Step) (nodes : List Node) (covered : String → Prop) : Prop :=
  ∀ id ∈ wantedNodes sp nodes, ¬ covered id →
    (∃ n ∈ nodes, n.id = id) ∧ ∀ n ∈ nodes, n.id = id → Fails sp n

/-- The last report of a wanted node is a failure that the verdict admits. -/
def MfLast (sp : Step) (nodes : List Node) (covered : String → Prop) : Prop :=
  ∀ id ∈ wantedNodes sp nodes, ¬ covered id → ∃ n, lastReport nodes id = some n
    ∧ n.outcome = .failed ∧ (allowedFor (expectFail sp) id).admits n.excType = some true

/-- Reports that a later one of the same node stands over. -/
def overwritten : List Node → List Node
  | [] => []
  | n :: nodes => if nodes.any fun n' => n'.id = n.id then n :: overwritten nodes else overwritten nodes

/-- Nothing that was reported of a wanted node stands under a later report, and a node with the name
of the default fails with just the default. -/
def Plain (sp : Step) (nodes : List Node) (covered : String → Prop) : Prop :=
  ∀ id ∈ wantedNodes sp nodes, ¬ covered id →
    (∀ n ∈ overwritten nodes, n.id = id → Fails sp n)
      ∧ (id = "default" → ∀ n, lastReport nodes id = some n →
        n.excType = some (expectFail sp).default)

section

variable [Library] [Tables]

/-- What a test step shows, with what a must-fail one shows of its nodes. -/
structure TestSound (mf : Step → List Node → (String → Prop) → Prop) (grants : List CheckedGrant)
    (r : Receipt) (sp : Step) (st : StepReport) (nodes : List Node) (skips deselected : List Reasoned) :
    Prop where
  nodesListed : st.nodes = some nodes
  skipsListed : st.skips = some skips
  deselectedListed : st.deselected = some deselected
  granted : ∀ id, IsGranted grants r sp id → ¬ Covered grants r sp.name id →
    ∃ n ∈ nodes, n.id = id ∧ n.outcome ≠ .deselected
  agrees : Agrees st nodes skips deselected
  head : sp.at = .head → HeadSound sp nodes skips (Covered grants r sp.name)
  mf : sp.at = .mf → st.atSha = r.mfSha ∧ r.mfSha ≠ none ∧ mf sp nodes (Covered grants r sp.name)

/-- What a step that ran shows. -/
structure RanSound (mf : Step → List Node → (String → Prop) → Prop) (p : Profile)
    (grants : List CheckedGrant) (r : Receipt) (sp : Step) (st : StepReport) : Prop where
  reported : st ∈ r.steps
  name : st.name = sp.name
  ran : st.state = .ran
  command : weakened p r sp st = [] ∨ ∃ g ∈ grants, Holds r sp.name .variance g
    ∧ g.cmdDigest = some (cmdDigest st.effectiveCmd)
  tests : sp.kind = .pytest → ∃ nodes skips deselected, TestSound mf grants r sp st nodes skips deselected

/-- Every required step was waived whole, or ran as it was granted. -/
def Sound (p : Profile) (grants : List CheckedGrant) (r : Receipt) : Prop :=
  ∀ sp ∈ p.steps, sp.required = true →
    Waived grants r sp.name ∨ ∃ st, RanSound MfSound p grants r sp st

end

/-- No must-fail step hides what it reports. -/
def Unhidden (p : Profile) (grants : List CheckedGrant) (r : Receipt) : Prop :=
  ∀ sp ∈ p.steps, sp.required = true → sp.kind = .pytest → sp.at = .mf → ¬ Waived grants r sp.name →
    ∀ st ∈ r.steps, st.name = sp.name → ∀ nodes, st.nodes = some nodes →
      Plain sp nodes (Covered grants r sp.name)

/-! ## Reports of one node -/

variable {sp : Step} {nodes : List Node} {n : Node} {covered : String → Prop}

theorem lastReport_cons {m : Node} : lastReport (m :: nodes) id =
    (lastReport nodes id).or (if m.id = id then some m else none) := by
  unfold lastReport
  rw [List.reverse_cons, List.find?_append, List.find?_singleton]
  simp only [decide_eq_true_eq]

theorem lastReport_some (h : lastReport nodes id = some n) : n ∈ nodes ∧ n.id = id := by
  unfold lastReport at h
  have hid := List.find?_some h
  exact ⟨List.mem_reverse.mp (List.mem_of_find?_eq_some h), of_decide_eq_true hid⟩

theorem lastReport_isSome : (lastReport nodes id).isSome ↔ ∃ n ∈ nodes, n.id = id := by
  unfold lastReport
  rw [List.find?_isSome]
  simp only [List.mem_reverse, decide_eq_true_eq]

/-- A report of a node is its last one, or stands under a later one. -/
theorem mem_reports : n ∈ nodes ↔ n ∈ overwritten nodes ∨ lastReport nodes n.id = some n := by
  induction nodes with
  | nil => simp [overwritten, lastReport]
  | cons m nodes ih =>
    have hlater : (nodes.any fun n' => n'.id = m.id) = (lastReport nodes m.id).isSome := by
      rw [Bool.eq_iff_iff, lastReport_isSome, List.any_eq_true]
      simp only [decide_eq_true_eq]
    rw [overwritten, lastReport_cons, List.mem_cons, ih, hlater]
    by_cases hm : (lastReport nodes m.id).isSome
    · obtain ⟨last, hlast⟩ := Option.isSome_iff_exists.mp hm
      rw [if_pos hm, List.mem_cons]
      by_cases hid : m.id = n.id
      · rw [← hid, hlast, Option.some_or]
        tauto
      · rw [if_neg hid, Option.or_none]
        tauto
    · have hnone := Option.not_isSome_iff_eq_none.mp hm
      rw [if_neg hm]
      by_cases hid : m.id = n.id
      · rw [← hid, hnone, Option.none_or, if_pos rfl]
        -- no later report of the node: neither under a later one nor a last one
        have hno : n ∉ overwritten nodes := by
          intro hn
          have hreport := lastReport_isSome.mpr ⟨n, ih.mpr (.inl hn), hid.symm⟩
          exact hm hreport
        simp only [hno, false_or, reduceCtorEq, or_false, Option.some.injEq]
        exact eq_comm
      · have hne : n ≠ m := fun heq => hid (heq ▸ rfl)
        rw [if_neg hid, Option.or_none]
        tauto

/-- What `in` asks of a failure, but for a node with the name of the default. -/
theorem admits_iff (hid : id ≠ "default") {expect : ExpectFail} {exc : Option String} :
    (allowedFor expect id).admits exc = some true ↔ ∃ e ∈ allowedNames expect id, exc = some e := by
  unfold allowedFor allowedNames
  rw [if_neg hid]
  cases (expect.nodes[id]?).filter (· ≠ []) with
  | none => cases exc <;> simp [Allowed.admits, eq_comm]
  | some names => cases exc <;> simp [Allowed.admits]

theorem allowedNames_default {expect : ExpectFail} :
    allowedNames expect "default" = [expect.default] := by
  unfold allowedNames
  rw [expect.plain]
  rfl

/-- Of a must-fail step that passes, every report is an allowed failure exactly where none hides
another. -/
theorem mfSound_iff (h : MfLast sp nodes covered) :
    MfSound sp nodes covered ↔ Plain sp nodes covered := by
  constructor
  · intro hall id hid hcovered
    obtain ⟨-, hreports⟩ := hall id hid hcovered
    refine ⟨fun n hn hname => hreports n (mem_reports.mpr (.inl hn)) hname, ?_⟩
    rintro rfl n hlast
    obtain ⟨hn, hname⟩ := lastReport_some hlast
    obtain ⟨exc, hexc, hsome⟩ := (hreports n hn hname).allowed
    rw [hname, allowedNames_default, List.mem_singleton] at hexc
    rw [hsome, hexc]
  · intro hplain id hid hcovered
    obtain ⟨hover, hdefault⟩ := hplain id hid hcovered
    obtain ⟨last, hlast, hfailed, hadmits⟩ := h id hid hcovered
    obtain ⟨hmem, hname⟩ := lastReport_some hlast
    refine ⟨⟨last, hmem, hname⟩, fun n hn hnid => ?_⟩
    rcases mem_reports.mp hn with hn | hn
    · exact hover n hn hnid
    · rw [hnid, hlast] at hn
      obtain rfl := Option.some.inj hn
      refine ⟨hfailed, ?_⟩
      rw [hname]
      by_cases hd : id = "default"
      · subst hd
        rw [allowedNames_default]
        exact ⟨_, List.mem_singleton.mpr rfl, hdefault rfl last hlast⟩
      · exact (admits_iff hd).mp hadmits

/-! ## What clear reasons say -/

theorem mem_of_mapM {α β : Type} {f : α → Option β} : ∀ {l : List α} {l' : List β},
    l.mapM f = some l' → ∀ a ∈ l, ∃ b ∈ l', f a = some b
  | [], _, _, _, ha => by cases ha
  | a :: l, l', h, b, hb => by
    rw [List.mapM_cons] at h
    obtain ⟨c, hc, h⟩ := Option.bind_eq_some_iff.mp h
    obtain ⟨cs, hcs, h⟩ := Option.bind_eq_some_iff.mp h
    obtain rfl := Option.some.inj h
    rcases List.mem_cons.mp hb with rfl | hb
    · exact ⟨c, List.mem_cons_self, hc⟩
    · obtain ⟨d, hd, hfd⟩ := mem_of_mapM hcs b hb
      exact ⟨d, List.mem_cons_of_mem _ hd, hfd⟩

/-- What must fail and is not covered was reported last as a failure that is admitted. -/
theorem mfReason_clear {name : String} {allowed : Allowed} {last : Option Node}
    (h : mfReason name id allowed last = some fs) (hclear : Clear fs) :
    ∃ n, last = some n ∧ n.outcome = .failed ∧ allowed.admits n.excType = some true := by
  cases last with
  | none =>
    obtain rfl := Option.some.inj h
    simp [Level.blocks] at hclear
  | some n =>
    refine ⟨n, rfl, ?_⟩
    unfold mfReason at h
    cases hout : n.outcome <;> simp only [hout] at h
    case failed =>
      refine ⟨rfl, ?_⟩
      obtain ⟨ok, hok, rfl⟩ := Option.map_eq_some_iff.mp h
      cases ok with
      | true => exact hok
      | false => simp [Level.blocks] at hclear
    all_goals
      obtain rfl := Option.some.inj h
      simp [Level.blocks] at hclear

theorem evalMf_clear {names : List String} (h : evalMf sp nodes names = some fs) (hclear : Clear fs) :
    MfLast sp nodes (· ∈ names) := by
  obtain ⟨found, hfound, h⟩ := Option.bind_eq_some_iff.mp h
  obtain rfl := Option.some.inj h
  rw [clear_append, clear_flatten] at hclear
  intro id hid hcovered
  have hleft : id ∈ (wantedNodes sp nodes).filter (· ∉ names) :=
    List.mem_filter.mpr ⟨hid, decide_eq_true hcovered⟩
  obtain ⟨rs, hrs, hreason⟩ := mem_of_mapM hfound id hleft
  exact mfReason_clear hreason (hclear.2 rs hrs)

theorem summaryReasons_clear {name : String} {parsed : Option Counts} {counts : Counts}
    (h : Clear (summaryReasons name parsed counts)) : ∃ c, parsed = some c ∧ c.passed = counts.passed
      ∧ c.failed = counts.failed ∧ c.errors = counts.errors ∧ c.skipped = counts.skipped
      ∧ c.xfailed = counts.xfailed ∧ c.xpassed = counts.xpassed := by
  unfold summaryReasons at h
  split at h
  · simp [Level.blocks] at h
  · next c =>
    split at h
    · simp [Level.blocks] at h
    · next hnone =>
      refine ⟨c, rfl, ?_⟩
      unfold mismatch at hnone
      rw [List.find?_eq_none] at hnone
      simpa using hnone

theorem rcReasons_clear {name : String} {rc : Option Int} {bad : Nat}
    (h : Clear (rcReasons name rc bad)) :
    ∃ code, rc = some code ∧ if bad = 0 then code = 0 ∨ code = 5 else code ≠ 0 := by
  unfold rcReasons at h
  split at h
  · simp [Level.blocks] at h
  · next code =>
    refine ⟨code, rfl, ?_⟩
    split at h
    · simp [Level.blocks] at h
    next hzero =>
    split at h
    · simp [Level.blocks] at h
    next hother =>
    split
    · omega
    · omega

theorem listReasons_clear {name list word : String} {reasons : List Reasoned} {ids : List String}
    (h : Clear (listReasons name list word reasons ids)) : (reasons.map Reasoned.node).Perm ids := by
  unfold listReasons sorted at h
  rw [clear_ite_not rfl] at h
  have hsorted := List.perm_insertionSort (· ≤ ·) (reasons.map Reasoned.node)
  rw [h] at hsorted
  exact hsorted.symm.trans (List.perm_insertionSort _ _)

/-- A skip that no node covers is allowed. -/
theorem skipReasons_clear [Library] {name : String} {policy : SkipPolicy} {names : List String}
    {s : Reasoned}
    (h : Clear (skipReasons name policy names s)) (hs : s.node ∉ names) :
    s.reason ≠ "" ∧ ∃ p ∈ policy.allowReasons, Library.search p s.reason = true := by
  unfold skipReasons at h
  rw [if_neg hs] at h
  split at h
  · simp [Level.blocks] at h
  next hreason =>
  rw [clear_ite_not policy.blocks, List.any_eq_true] at h
  exact ⟨hreason, h⟩

/-- A node that has to run and is not covered did. -/
theorem mustRunReasons_clear {name entry : String} {reasons : List Reasoned} {names : List String}
    (h : Clear (mustRunReasons name nodes reasons names entry)) (hn : n ∈ nodes)
    (hentry : within n.id entry = true) (hcovered : n.id ∉ names) :
    ∃ n' ∈ nodes, n'.id = n.id ∧ n'.outcome.ran = true := by
  obtain ⟨last, hlast⟩ := Option.isSome_iff_exists.mp (lastReport_isSome.mpr ⟨n, hn, rfl⟩)
  obtain ⟨hmem, hid⟩ := lastReport_some hlast
  refine ⟨last, hmem, hid, ?_⟩
  have hhit : last ∈ (byId nodes).filter fun n => within n.id entry && n.id ∉ names := by
    refine List.mem_filter.mpr ⟨List.mem_filterMap.mpr ⟨n.id, ?_, hlast⟩, by simp [hid, hentry, hcovered]⟩
    exact mem_fromKeys.mpr (List.mem_map_of_mem hn)
  unfold mustRunReasons at h
  rw [if_neg (List.ne_nil_of_mem hhit)] at h
  split at h
  · next hnone =>
    have hran := List.filter_eq_nil_iff.mp hnone last hhit
    simpa using hran
  · simp [Level.blocks] at h

section

variable [Library] [Tables] {st : StepReport} {skips deselected : List Reasoned} {names : List String}

theorem agreeReasons_clear (h : Clear (agreeReasons sp st r nodes skips deselected)) :
    Agrees st nodes skips deselected ∧ (sp.at = .mf → st.atSha = r.mfSha ∧ r.mfSha ≠ none) := by
  unfold agreeReasons at h
  simp only [clear_append] at h
  obtain ⟨⟨⟨⟨hsummary, hrc⟩, hskips⟩, hdeselected⟩, hplace⟩ := h
  refine ⟨⟨summaryReasons_clear hsummary, rcReasons_clear hrc, listReasons_clear hskips,
    listReasons_clear hdeselected⟩, fun hmf => ?_⟩
  unfold placeReasons at hplace
  simp only [hmf] at hplace
  split at hplace
  · simp [Level.blocks] at hplace
  next hsome =>
  rw [clear_ite rfl, not_not] at hplace
  exact ⟨hplace, hplace ▸ hsome⟩

omit [Tables] in
theorem headReasons_clear (h : Clear (headReasons sp nodes skips deselected names)) :
    HeadSound sp nodes skips (· ∈ names) := by
  unfold headReasons limitReasons at h
  simp only [clear_append, clear_flatMap] at h
  obtain ⟨⟨⟨hbad, hpassed⟩, hmust⟩, hskips⟩ := h
  rw [clear_ite rfl, not_lt] at hbad hpassed
  exact ⟨hbad, hpassed, fun entry hentry n hn hwithin hcovered =>
    mustRunReasons_clear (hmust entry hentry) hn hwithin hcovered,
    fun s hs hcovered => skipReasons_clear (hskips s hs) hcovered⟩

theorem evalPytest_clear (h : evalPytest sp st r names = some fs) (hclear : Clear fs) :
    ∃ nodes skips deselected, st.nodes = some nodes ∧ st.skips = some skips
      ∧ st.deselected = some deselected ∧ Agrees st nodes skips deselected
      ∧ (sp.at = .head → HeadSound sp nodes skips (· ∈ names))
      ∧ (sp.at = .mf → st.atSha = r.mfSha ∧ r.mfSha ≠ none ∧ MfLast sp nodes (· ∈ names)) := by
  unfold evalPytest at h
  split at h
  · next nodes skips deselected hnodes hskips hdeselected =>
    refine ⟨nodes, skips, deselected, hnodes, hskips, hdeselected, ?_⟩
    cases hat : sp.at with
    | mf =>
      simp only [hat] at h
      obtain ⟨found, hfound, rfl⟩ := Option.map_eq_some_iff.mp h
      rw [clear_append] at hclear
      obtain ⟨hagrees, hplace⟩ := agreeReasons_clear hclear.1
      obtain ⟨hsha, hsome⟩ := hplace hat
      exact ⟨hagrees, fun hne => absurd hne (by decide),
        fun _ => ⟨hsha, hsome, evalMf_clear hfound hclear.2⟩⟩
    | head =>
      simp only [hat] at h
      obtain rfl := Option.some.inj h
      rw [clear_append] at hclear
      exact ⟨(agreeReasons_clear hclear.1).1, fun _ => headReasons_clear hclear.2,
        fun hne => absurd hne (by decide)⟩
  · obtain rfl := Option.some.inj h
    simp [Level.blocks] at hclear

/-! ## Steps -/

omit [Library] [Tables] in
theorem mem_grantedNodes :
    id ∈ grantedNodes sp (selectedNodes grants r sp.name) ↔ IsGranted grants r sp id := by
  unfold grantedNodes IsGranted
  split
  · exact mem_selectedNodes
  · rfl

omit [Library] [Tables] in
/-- Where the nodes of a step raise no reason, no granted node is missing. -/
theorem nodeReasons_clear (h : Clear (nodeReasons grants r sp st).2) (hnodes : st.nodes = some nodes)
    (hgranted : IsGranted grants r sp id) (hcovered : ¬ Covered grants r sp.name id) :
    ∃ n ∈ nodes, n.id = id ∧ n.outcome ≠ .deselected := by
  have hmem := mem_grantedNodes.mpr hgranted
  unfold nodeReasons nodeDiff at h
  simp only [hnodes, if_neg (List.ne_nil_of_mem hmem)] at h
  by_contra hno
  have hmissing : id ∈ missingNodes sp nodes (coveredNodes grants r sp.name)
      (selectedNodes grants r sp.name) := by
    refine List.mem_filter.mpr ⟨hmem, decide_eq_true ⟨fun hrun => hno ?_, fun hc => hcovered
      (mem_coveredNodes.mp hc)⟩⟩
    obtain ⟨n, hn, hid⟩ := List.mem_map.mp hrun
    obtain ⟨hn, hout⟩ := List.mem_filter.mp hn
    exact ⟨n, hn, hid, of_decide_eq_true hout⟩
  rw [if_neg (List.ne_nil_of_mem hmissing)] at h
  simp [Level.blocks] at h

variable {p : Profile}

/-- A command that raises no reason is accepted, or a variance grant accepts it. -/
theorem commandReasons_clear (h : Clear (commandReasons p grants r sp st).2) :
    weakened p r sp st = [] ∨ ∃ g ∈ grants, Holds r sp.name .variance g
      ∧ g.cmdDigest = some (cmdDigest st.effectiveCmd) := by
  by_cases hweak : weakened p r sp st = []
  · exact .inl hweak
  · refine .inr ?_
    unfold commandReasons at h
    simp only [if_neg hweak] at h
    cases hv : variance grants r sp st with
    | some g =>
      obtain ⟨hg, hholds, -⟩ := mem_covering.mp (List.mem_of_find?_eq_some hv)
      have hdigest := List.find?_some hv
      exact ⟨g, hg, hholds, of_decide_eq_true hdigest⟩
    | none => simp [hv, Level.blocks] at h

/-- A step that ran, and raises no reason, shows what it should, a must-fail one in its last reports. -/
theorem ranReasons_clear (hst : st ∈ r.steps) (hname : st.name = sp.name) (hran : st.state = .ran)
    {own found : List Reason} (h : ranReasons p grants r sp st = some (own, found))
    (hclear : Clear found) : RanSound MfLast p grants r sp st := by
  unfold ranReasons at h
  by_cases hkind : sp.kind = .pytest
  · simp only [if_pos hkind] at h
    obtain ⟨fs, hfs, h⟩ := Option.bind_eq_some_iff.mp h
    obtain ⟨-, rfl⟩ := Prod.mk.inj (Option.some.inj h)
    simp only [clear_append] at hclear
    obtain ⟨⟨⟨-, hweak⟩, hshrink⟩, hfound⟩ := hclear
    obtain ⟨nodes, skips, deselected, hnodes, hskips, hdeselected, hagrees, hhead, hmf⟩ :=
      evalPytest_clear hfs hfound
    simp only [mem_coveredNodes] at hhead hmf
    exact ⟨hst, hname, hran, commandReasons_clear hweak, fun _ => ⟨nodes, skips, deselected, hnodes,
      hskips, hdeselected, fun id hgranted hcovered =>
        nodeReasons_clear hshrink hnodes hgranted hcovered, hagrees, hhead, hmf⟩⟩
  · simp only [if_neg hkind] at h
    obtain ⟨-, rfl⟩ := Prod.mk.inj (Option.some.inj h)
    rw [clear_append] at hclear
    exact ⟨hst, hname, hran, commandReasons_clear hclear.1, fun hp => absurd hp hkind⟩

theorem reportReasons_clear {own found : List Reason}
    (h : reportReasons p grants r sp = some (own, found)) (hclear : Clear found) :
    ∃ st, RanSound MfLast p grants r sp st := by
  unfold reportReasons at h
  split at h
  · obtain ⟨-, rfl⟩ := Prod.mk.inj (Option.some.inj h)
    simp [Level.blocks] at hclear
  · next st hst =>
    have hname := List.find?_some hst
    cases hstate : st.state <;> simp only [hstate] at h
    case ran =>
      exact ⟨st, ranReasons_clear (List.mem_of_find?_eq_some hst) (of_decide_eq_true hname) hstate h
        hclear⟩
    all_goals
      obtain ⟨-, rfl⟩ := Prod.mk.inj (Option.some.inj h)
      simp [Level.blocks] at hclear

/-- A required step without a blocking reason was waived whole, or shows what it should, a must-fail
one in its last reports. -/
theorem stepReasons_clear (h : stepReasons p grants r sp = some fs) (hclear : Clear fs)
    (hrequired : sp.required = true) :
    Waived grants r sp.name ∨ ∃ st, RanSound MfLast p grants r sp st := by
  by_cases hwaived : Waived grants r sp.name
  · exact .inl hwaived
  · refine .inr ?_
    unfold stepReasons at h
    simp only [wholeWaiver_none.mpr hwaived] at h
    obtain ⟨⟨own, found⟩, hreport, h⟩ := Option.bind_eq_some_iff.mp h
    simp only [hrequired, not_true_eq_false, if_false] at h
    obtain rfl := Option.some.inj h
    simp only [clear_append] at hclear
    exact reportReasons_clear hreport hclear.1.2

/-! ## The verdict -/

/-- What a pass says of the steps. -/
theorem evaluate_pass {klass : Option String}
    (h : (evaluate r (some p) grants klass).map Result.verdict = some .pass) :
    ∀ sp ∈ p.steps, sp.required = true →
      Waived grants r sp.name ∨ ∃ st, RanSound MfLast p grants r sp st := by
  obtain ⟨result, hresult, hpass⟩ := Option.map_eq_some_iff.mp h
  obtain ⟨found, hfound, hresult⟩ := Option.bind_eq_some_iff.mp hresult
  obtain rfl := Option.some.inj hresult
  have hclear := combine_pass.mp hpass
  simp only [clear_append, clear_flatten] at hclear
  intro sp hsp hrequired
  obtain ⟨fs, hfs, hstep⟩ := mem_of_mapM hfound sp hsp
  exact stepReasons_clear hstep (hclear.1.2 fs hfs) hrequired

theorem TestSound.change {mf mf' : Step → List Node → (String → Prop) → Prop}
    (h : TestSound mf grants r sp st nodes skips deselected)
    (hmf : sp.at = .mf → mf sp nodes (Covered grants r sp.name) → mf' sp nodes (Covered grants r sp.name)) :
    TestSound mf' grants r sp st nodes skips deselected :=
  { h with mf := fun hat => ⟨(h.mf hat).1, (h.mf hat).2.1, hmf hat (h.mf hat).2.2⟩ }

omit [Library] [Tables] in
/-- The steps of a receipt are told apart by their names. -/
theorem report_unique {st' : StepReport} (h : st ∈ r.steps) (h' : st' ∈ r.steps)
    (hname : st.name = st'.name) : st = st' :=
  List.inj_on_of_nodup_map r.distinct h h' hname

theorem sound_iff (h : ∀ sp ∈ p.steps, sp.required = true →
      Waived grants r sp.name ∨ ∃ st, RanSound MfLast p grants r sp st) :
    Sound p grants r ↔ Unhidden p grants r := by
  constructor
  · intro hsound sp hsp hrequired hkind hat hwaived st hst hname nodes hnodes
    obtain ⟨st', hlast⟩ := (h sp hsp hrequired).resolve_left hwaived
    obtain ⟨st'', hran⟩ := (hsound sp hsp hrequired).resolve_left hwaived
    obtain rfl := report_unique hst hlast.reported (hname.trans hlast.name.symm)
    obtain rfl := report_unique hst hran.reported (hname.trans hran.name.symm)
    obtain ⟨ns, _, _, htests⟩ := hran.tests hkind
    obtain ⟨ns', _, _, htests'⟩ := hlast.tests hkind
    obtain rfl := Option.some.inj (hnodes.symm.trans htests.nodesListed)
    obtain rfl := Option.some.inj (hnodes.symm.trans htests'.nodesListed)
    exact (mfSound_iff (htests'.mf hat).2.2).mp (htests.mf hat).2.2
  · intro hunhidden sp hsp hrequired
    by_cases hwaived : Waived grants r sp.name
    · exact .inl hwaived
    · obtain ⟨st, hran⟩ := (h sp hsp hrequired).resolve_left hwaived
      refine .inr ⟨st, { hran with tests := fun hkind => ?_ }⟩
      obtain ⟨nodes, skips, deselected, htests⟩ := hran.tests hkind
      refine ⟨nodes, skips, deselected, htests.change fun hat hlast => (mfSound_iff hlast).mpr ?_⟩
      exact hunhidden sp hsp hrequired hkind hat hwaived st hran.reported hran.name nodes
        htests.nodesListed

end

/-! ## A rerun -/

/-- The library, on plain texts: patterns are texts. -/
@[reducible] def plainLibrary : Library where
  str _ := ""
  isWord c := c.isAlphanum || c = '_'
  search p s := isWithin p s
  compileError _ := none
  sha256 s := s
  dumps _ := ""
  dumpedLength _ := 1000

def headSample : String := String.ofList (List.replicate 40 'a')

def mfSample : String := String.ofList (List.replicate 40 'b')

/-- One test that must fail at the MF commit. -/
def mfProfile : Value :=
  object [("steps", .arr [object [("name", "must-fail"), ("kind", "pytest"), ("at", "mf"),
    ("nodes", strings ["t.py::a"])]])]

/-- A run whose test passed, and then failed when it was run again. -/
def rerun : Value :=
  let test := object [("name", "must-fail"), ("state", "ran"), ("at_sha", mfSample), ("rc", .num 1),
    ("summary", "1 failed, 1 passed in 0.10s"), ("skips", .arr []), ("deselected", .arr []),
    ("nodes", .arr [object [("id", "t.py::a"), ("outcome", "passed")],
      object [("id", "t.py::a"), ("outcome", "failed"), ("exc_type", "AssertionError")]])]
  object [("head", headSample), ("mf", mfSample), ("steps", .arr [test]),
    ("worktree", object [("head_before", headSample), ("head_after", headSample),
      ("dirty_before", .bool false), ("dirty_after", .bool false)])]

/-- The profile, as it is read. -/
def mfRule : Profile where
  steps := [{
    name := "must-fail", kind := .pytest, required := true, argv := none, «at» := .mf
    nodes := some ["t.py::a"], expectFail := some (.of defaultMfExc), minPassed := none
    maxFailed := none, maxErrors := none, maxViolations := none, timeoutS := none
    xfailCountsAsPass := none, voidOnFail := none, mustRun := none, skipPolicy := none, cwd := none }]
  waivable := []
  require := ⟨true, false, false, none⟩
  base := none
  inputs := []
  allowedEnv := []
  acceptUnverified := []
  closureCmd := none
  runnerRef := none

/-- A receipt of one must-fail step, with the nodes it reports. -/
def mfReceipt (summary : String) (nodes : List Node) : Receipt where
  gate := "gate"
  klass := none
  repo := none
  branch := none
  headSha := headSample
  mfSha := some mfSample
  runner := none
  rulingId := none
  base := ⟨none, none, none, none, none⟩
  closure := none
  worktree := ⟨some headSample, some headSample, some false, some false, none⟩
  inputs := []
  steps := [{
    name := "must-fail", state := .ran, effectiveCmd := none, atSha := some mfSample, rc := some 1
    startedAt := none, endedAt := none, summary, nodes := some nodes, grantedNodes := none
    skips := some [], deselected := some [], inputsUsed := [], reason := none }]
  waivers := []
  logPath := none
  distinct := List.nodup_singleton _

/-- A failure as it must be. -/
def failure : Node := { id := "t.py::a", outcome := .failed, excType := some "AssertionError" }

theorem not_covered_nil {step id : String} : ¬ Covered [] r step id := by
  rintro ⟨g, hg, -⟩
  cases hg

set_option maxRecDepth 10000 in
theorem rerun_read : @normalizeReceipt plainLibrary asciiTables asciiCasing rerun =
    .ok (mfReceipt "1 failed, 1 passed in 0.10s" [{ id := "t.py::a", outcome := .passed }, failure]) := by
  rfl

set_option maxRecDepth 10000 in
/-- The rerun passes, though its test passed at the MF commit. -/
theorem rerun_unsound :
    letI := plainLibrary
    letI := asciiTables
    letI := asciiCasing
    ∃ r p, normalizeReceipt rerun = .ok r ∧ validateProfile mfProfile = .ok p ∧
      (evaluate r (some p) ([].map (GrantRow.checked (some p) [])) none).map Result.verdict = some .pass ∧
      ¬ Sound p ([].map (GrantRow.checked (some p) [])) r := by
  let _ := plainLibrary
  let _ := asciiTables
  let _ := asciiCasing
  refine ⟨_, mfRule, rerun_read, rfl, by decide +kernel, fun hsound => ?_⟩
  rcases hsound _ List.mem_cons_self rfl with ⟨g, hg, -⟩ | ⟨st, hran⟩
  · cases hg
  · obtain rfl := List.mem_singleton.mp hran.reported
    obtain ⟨nodes, _, _, htests⟩ := hran.tests rfl
    obtain rfl := Option.some.inj htests.nodesListed
    obtain ⟨-, hreports⟩ := (htests.mf rfl).2.2 "t.py::a" List.mem_cons_self not_covered_nil
    have hpassed := (hreports _ List.mem_cons_self rfl).failed
    cases hpassed

end Gate
