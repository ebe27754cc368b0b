import ClaudeManager.Workflow.Transcript

/-!
# Slices of a transcript

What a template sees of a role: the messages before the launch, those since, and those of the turn.

* `startWorkflow` — the baselines that are recorded at launch
* `Resolver` — the slices that a template is given
* `Split` — the transcript at launch, and what was added since
* `slices_split_iff` — the slices are right where every entry at launch has a text
-/

namespace ClaudeManager

open Json Text

section

variable [JsonText]

/-! ## Runs of a workflow -/

/-- The transcripts of a worktree, by engine and session. -/
abbrev Transcripts := Engine → String → Option (List Char)

namespace Transcripts

def listMessages (t : Transcripts) (engine : Engine) (sid : String) (kind : MessageKind) : List String :=
  match t engine sid with
  | none => []
  | some contents => ClaudeManager.listMessages engine contents kind

def countMessages (t : Transcripts) (engine : Engine) (sid : String) (kind : MessageKind) : Nat :=
  match t engine sid with
  | none => 0
  | some contents => ClaudeManager.countMessages engine contents kind

end Transcripts

structure MessageBaseline where
  userCount : Nat := 0
  assistantCount : Nat := 0
  deriving DecidableEq

def MessageBaseline.count (b : MessageBaseline) : MessageKind → Nat
  | .user => b.userCount
  | .assistant => b.assistantCount

structure RoleBinding where
  currentSessionId : Option String
  bound : Bool

structure HistoryEntry where
  iteration : Nat
  role : String
  assistantCountAtStart : Nat
  textMessagesAtStart : Nat

structure WorkflowRun where
  roleSessions : String → Option RoleBinding
  activeRole : Option String
  iteration : Nat
  history : List HistoryEntry
  roleBaselines : String → Option MessageBaseline

namespace WorkflowRun

def new (roleSessions : String → Option RoleBinding) (initialRole : String)
    (roleBaselines : String → Option MessageBaseline) (initialTextCount : Nat) : WorkflowRun :=
  { roleSessions, roleBaselines
    activeRole := some initialRole
    iteration := 1
    history := [⟨1, initialRole, ((roleBaselines initialRole).map (·.assistantCount)).getD 0, initialTextCount⟩] }

def latestEntry (run : WorkflowRun) (role : String) : Option HistoryEntry :=
  run.history.reverse.find? (·.role = role)

/-- The baseline of the idle gate. -/
def activeAssistantStartCount (run : WorkflowRun) : Option Nat :=
  (run.history.getLast?.filter fun h => some h.role = run.activeRole).map (·.assistantCountAtStart)

/-- An entry is appended, unless the last one is of the same role and iteration. -/
def appendHistoryEntryForEventTargetRole (run : WorkflowRun) (targetRole : String)
    (eventIteration assistantCountAtStart textMessagesAtStart : Nat) : WorkflowRun :=
  let entryIteration := if 0 < eventIteration then eventIteration else run.iteration
  if run.history.getLast?.any fun last => last.role = targetRole && last.iteration = entryIteration then run
  else
    { run with history := run.history ++
        [⟨entryIteration, targetRole, assistantCountAtStart, textMessagesAtStart⟩] }

end WorkflowRun

/-! ## At launch -/

/-- A role that takes over a session that is there. -/
structure BindWork where
  role : String
  engine : Engine
  sid : String

/-- A map of what is inserted one after the other. -/
def collect {α β : Type} (key : α → String) (f : α → β) (l : List α) : String → Option β :=
  l.foldl (fun m a => Function.update m (key a) (some (f a))) fun _ => none

def boundBindings (binds : List BindWork) : String → Option RoleBinding :=
  collect BindWork.role (fun bw => ⟨some bw.sid, true⟩) binds

def boundBaselines (t : Transcripts) (binds : List BindWork) : String → Option MessageBaseline :=
  collect BindWork.role (fun bw =>
    ⟨t.countMessages bw.engine bw.sid .user, t.countMessages bw.engine bw.sid .assistant⟩) binds

def boundTextCounts (t : Transcripts) (binds : List BindWork) : String → Option Nat :=
  collect BindWork.role (fun bw => (t.listMessages bw.engine bw.sid .assistant).length) binds

/-- The run as it is launched. A role that is not bound gets a session that has no transcript yet. -/
def startWorkflow (t : Transcripts) (roleOrder : List String) (binds : List BindWork) : Option WorkflowRun :=
  let roleSessions := collect id (fun role => (boundBindings binds role).getD ⟨none, false⟩) roleOrder
  let roleBaselines := collect id (fun role =>
    match boundBindings binds role with
    | some _ => (boundBaselines t binds role).getD {}
    | none => {}) roleOrder
  roleOrder.head?.map fun initialRole =>
    .new roleSessions initialRole roleBaselines ((boundTextCounts t binds initialRole).getD 0)

/-! ## The slices -/

/-- What the template engine asks. -/
structure Resolver where
  run : WorkflowRun
  worktree : Option Transcripts
  roleEngines : String → Option Engine

namespace Resolver

def lookup (r : Resolver) (role : String) : Option (Engine × Transcripts × String) := do
  let engine ← r.roleEngines role
  let binding ← r.run.roleSessions role
  let sid ← binding.currentSessionId
  let worktree ← r.worktree
  some (engine, worktree, sid)

def listMessages (r : Resolver) (role : String) (kind : MessageKind) : List String :=
  match r.lookup role with
  | none => []
  | some (engine, worktree, sid) => worktree.listMessages engine sid kind

def baseline (r : Resolver) (role : String) (kind : MessageKind) : Nat :=
  ((r.run.roleBaselines role).map (·.count kind)).getD 0

/-- The messages from the baseline on. -/
def messages (r : Resolver) (kind : MessageKind) (role : String) : List String :=
  (r.listMessages role kind).drop (r.baseline role kind)

def userMessages : Resolver → String → List String := (messages · .user)

def assistantMessages : Resolver → String → List String := (messages · .assistant)

/-- The messages before the baseline. -/
def priorMessages (r : Resolver) (kind : MessageKind) (role : String) : List String :=
  (r.listMessages role kind).take (r.baseline role kind)

def priorUserMessages : Resolver → String → List String := (priorMessages · .user)

def priorAssistantMessages : Resolver → String → List String := (priorMessages · .assistant)

def assistantSinceActivation (r : Resolver) (role : String) : List String :=
  (r.listMessages role .assistant).drop (((r.run.latestEntry role).map (·.textMessagesAtStart)).getD 0)

end Resolver

/-! ## A run goes on -/

/-- The counts of the transcript of a role. -/
def persistentBaselines (run : WorkflowRun) (role : String) (engine : Engine) (t : Transcripts) : Nat × Nat :=
  match (run.roleSessions role).bind (·.currentSessionId) with
  | none => (0, 0)
  | some sid => (t.countMessages engine sid .assistant, (t.listMessages engine sid .assistant).length)

/-- The first entry of the role gets these counts. -/
def recount (role : String) (counts : Nat × Nat) : List HistoryEntry → List HistoryEntry
  | [] => []
  | h :: rest =>
    if h.role = role then { h with assistantCountAtStart := counts.1, textMessagesAtStart := counts.2 } :: rest
    else h :: recount role counts rest

/-- A run with its worktree. For one role, what its transcript had when its latest entry was counted
is kept with it. -/
structure Course where
  run : WorkflowRun
  worktree : Transcripts
  engines : String → Engine
  baselined : Option (List Char)

inductive RunEvent where
  | write (worktree : Transcripts)
  /-- Another role becomes active. -/
  | advance (activeRole : Option String) (iteration : Nat)
  /-- The activation of a role that keeps its session is entered. -/
  | activate (role : String) (iteration : Nat)
  /-- The activation of a role that starts over is entered. -/
  | reset (role : String) (iteration : Nat)
  /-- The goal is about to be delivered to a role. -/
  | deliver (role : String)
  /-- The session of a role is found. -/
  | bind (role sid : String)

namespace Course

def resolver (s : Course) : Resolver := ⟨s.run, some s.worktree, fun role => some (s.engines role)⟩

def baselines (s : Course) (role : String) : Nat × Nat :=
  persistentBaselines s.run role (s.engines role) s.worktree

/-- The entry of the role goes with what its transcript has. -/
def marked (s : Course) (own : Bool) (contents : Option (List Char)) : Option (List Char) :=
  if own then contents else s.baselined

/-- One event, where the role that is followed has this session. -/
def step (role : String) (engine : Engine) (sid : String) (s : Course) : RunEvent → Course
  | .write worktree => { s with worktree }
  | .advance activeRole iteration => { s with run := { s.run with activeRole, iteration } }
  | .activate other iteration =>
    let counts := s.baselines other
    let run := s.run.appendHistoryEntryForEventTargetRole other iteration counts.1 counts.2
    { s with
      run
      baselined := s.marked (other = role && run.history.length != s.run.history.length) (s.worktree engine sid) }
  | .reset other iteration =>
    let run := s.run.appendHistoryEntryForEventTargetRole other iteration 0 0
    { s with run := { run with
      roleBaselines := Function.update run.roleBaselines other (some {})
      roleSessions := Function.update run.roleSessions other (some ⟨none, false⟩) } }
  | .deliver other =>
    { s with
      run := { s.run with history := (recount other (s.baselines other) s.run.history.reverse).reverse }
      baselined := s.marked (other = role && (s.run.latestEntry role).isSome) (s.worktree engine sid) }
  | .bind other sid =>
    { s with run := { s.run with roleSessions := Function.update s.run.roleSessions other (some ⟨some sid, false⟩) } }

end Course

/-- The file goes on, and the entries that it had are read as before: a line that was an entry is not
written on. -/
def Continues (old new : List Char) : Prop := old <+: new ∧ records old <+: records new

/-- The transcript of the role only goes on, and the role keeps its session. -/
def RunEvent.Keeps (role : String) (engine : Engine) (sid : String) (s : Course) : RunEvent → Prop
  | .write worktree => ∀ old, s.worktree engine sid = some old → ∃ new, worktree engine sid = some new ∧ Continues old new
  | .reset other _ => other ≠ role
  | .bind other _ => other ≠ role
  | _ => True

def Course.Kept (role : String) (engine : Engine) (sid : String) : Course → List RunEvent → Prop
  | _, [] => True
  | s, ev :: evs => RunEvent.Keeps role engine sid s ev ∧ Course.Kept role engine sid (s.step role engine sid ev) evs

/-- The entries that are counted as messages of a kind. -/
def isEntry (engine : Engine) (kind : MessageKind) (v : Value) : Bool :=
  match engine with
  | .claudeCode => typeOf v = some kind.name && !(kind = .user && isClaudeToolResult v)
  | .codex => codexRole v = some kind.name

/-- A launched run, with the role that is followed. -/
def Course.start (role : String) (run : WorkflowRun) (worktree : Transcripts) (engines : String → Engine)
    (contents : List Char) : Course :=
  { run, worktree, engines, baselined := if run.activeRole = some role then some contents else none }

/-- What the transcript of the role has now. -/
def Course.contents (s : Course) (engine : Engine) (sid : String) : List Char := (s.worktree engine sid).getD []

/-- The slices are those at launch and those since. The gate begins with the entries at launch, and the
turn with the latest entry of the role. -/
structure Split (role : String) (engine : Engine) (launched : WorkflowRun) (contents now : List Char) (s : Course) :
    Prop where
  priorUser : s.resolver.priorUserMessages role = listMessages engine contents .user
  user : listMessages engine contents .user ++ s.resolver.userMessages role = listMessages engine now .user
  priorAssistant : s.resolver.priorAssistantMessages role = listMessages engine contents .assistant
  assistant : listMessages engine contents .assistant ++ s.resolver.assistantMessages role =
    listMessages engine now .assistant
  gate : launched.activeRole = some role →
    launched.activeAssistantStartCount = some ((records contents).countP (isEntry engine .assistant))
  turn : ∀ counted, s.baselined = some counted →
    listMessages engine counted .assistant ++ s.resolver.assistantSinceActivation role =
      listMessages engine now .assistant

/-! ## Entries and messages -/

variable {engine : Engine} {kind : MessageKind} {contents old new : List Char} {v : Value}

omit [JsonText] in
theorem count_apply (state : State) :
    (state.apply v).count kind = state.count kind + if isEntry state.engine kind v = true then 1 else 0 := by
  cases state with
  | claude a u last =>
    unfold isEntry State.apply applyClaudeLine State.engine
    by_cases hassistant : typeOf v = some "assistant"
    · cases kind <;> simp [hassistant, State.count, MessageKind.name]
    · by_cases huser : typeOf v = some "user"
      · cases htool : isClaudeToolResult v <;> cases kind <;> simp [huser, htool, State.count, MessageKind.name]
      · cases kind <;> simp [hassistant, huser, State.count, MessageKind.name]
  | codex a u latest =>
    unfold isEntry State.apply applyCodexLine State.engine
    cases kind
    · by_cases h : codexRole v = some "user" <;> simp [h, State.count, MessageKind.name]
    · by_cases h : codexRole v = some "assistant" <;> simp [h, State.count, MessageKind.name]

omit [JsonText] in
theorem count_foldl (l : List Value) (state : State) :
    (l.foldl State.apply state).count kind = state.count kind + l.countP (isEntry state.engine kind) := by
  induction l generalizing state with
  | nil => rfl
  | cons v l ih =>
    rw [List.foldl_cons, ih, count_apply, State.engine_apply, List.countP_cons]
    omega

theorem countMessages_eq : countMessages engine contents kind = (records contents).countP (isEntry engine kind) := by
  unfold countMessages applyLines
  rw [count_foldl]
  cases engine <;> cases kind <;> exact Nat.zero_add _

omit [JsonText] in
/-- What has a text is an entry. -/
theorem isEntry_of_message (h : (messageOfEntry engine kind v).isSome = true) : isEntry engine kind v = true := by
  unfold messageOfEntry at h
  cases engine with
  | claudeCode =>
    have htext : (extractClaudeLine v kind).isSome = true := by
      cases hline : extractClaudeLine v kind with
      | none => simp [hline] at h
      | some t => rfl
    unfold extractClaudeLine at htext
    split at htext
    · cases htext
    · rename_i htype
      split at htext
      · cases htext
      · rename_i haside
        unfold isClaudeAside at haside
        unfold isEntry
        simp only [not_not] at htype
        cases kind <;> simp_all
  | codex =>
    unfold isEntry
    unfold extractCodexLine at h
    by_cases hrole : codexRole v = some kind.name
    · exact decide_eq_true hrole
    · simp [hrole] at h

theorem length_le_count : (listMessages engine contents kind).length ≤ countMessages engine contents kind := by
  rw [countMessages_eq]
  unfold listMessages
  rw [List.length_filterMap_eq_countP]
  exact List.countP_mono_left fun v _ h => isEntry_of_message h

omit [JsonText] in
theorem countP_eq_iff {p q : Value → Bool} (hqp : ∀ v, q v = true → p v = true) (l : List Value) :
    l.countP p = l.countP q ↔ ∀ v ∈ l, p v = true → q v = true := by
  induction l with
  | nil => simp
  | cons v l ih =>
    have hle : l.countP q ≤ l.countP p := List.countP_mono_left fun v _ h => hqp v h
    rw [List.countP_cons, List.countP_cons, List.forall_mem_cons]
    by_cases hp : p v = true
    · by_cases hq : q v = true
      · simp [hp, hq, ih]
      · simp only [hp, hq, if_true, Bool.false_eq_true, if_false, forall_const, false_and, iff_false]
        omega
    · have hq : q v ≠ true := fun hq => hp (hqp v hq)
      simp [hp, hq, ih]

/-- The messages are as many as the entries where every entry has a text. -/
theorem count_eq_iff : countMessages engine contents kind = (listMessages engine contents kind).length ↔
    ∀ v ∈ records contents, isEntry engine kind v = true → (messageOfEntry engine kind v).isSome = true := by
  rw [countMessages_eq]
  unfold listMessages
  rw [List.length_filterMap_eq_countP]
  exact countP_eq_iff (fun v h => isEntry_of_message h) _

theorem Continues.refl : Continues old old := ⟨List.prefix_rfl, List.prefix_rfl⟩

theorem Continues.trans {c : List Char} (h : Continues old new) (h' : Continues new c) : Continues old c :=
  ⟨h.1.trans h'.1, h.2.trans h'.2⟩

/-- Whole lines and what is written after them. -/
theorem continues_whole (h : WholeLines old) : Continues old (old ++ new) :=
  ⟨List.prefix_append _ _, by rw [records_append h]; exact List.prefix_append _ _⟩

/-- A line that is no entry yet may be written on. -/
theorem continues_partial {line : List Char} (h : WholeLines old) (hline : records line = []) :
    Continues (old ++ line) (old ++ line ++ new) := by
  refine ⟨List.prefix_append _ _, ?_⟩
  rw [List.append_assoc, records_append h, records_append h, hline, List.append_nil]
  exact List.prefix_append _ _

theorem Continues.messages (h : Continues old new) :
    listMessages engine old kind <+: listMessages engine new kind := by
  obtain ⟨more, hmore⟩ := h.2
  unfold listMessages
  rw [← hmore, List.filterMap_append]
  exact List.prefix_append _ _

/-- No message was added where no entry that was added has a text. -/
theorem Continues.same_iff (h : Continues old new) :
    listMessages engine new kind = listMessages engine old kind ↔
      ∀ v ∈ (records new).drop (records old).length, messageOfEntry engine kind v = none := by
  obtain ⟨more, hmore⟩ := h.2
  unfold listMessages
  rw [← hmore, List.filterMap_append, List.drop_left, List.append_right_eq_self, List.filterMap_eq_nil_iff]

omit [JsonText] in
/-- An offset cuts off what there was, where it is the number of these or nothing follows. -/
theorem cut_iff {a b : List String} {n : Nat} (h : a <+: b) (hn : a.length ≤ n) :
    b.take n = a ∧ a ++ b.drop n = b ↔ n = a.length ∨ b = a := by
  obtain ⟨more, rfl⟩ := h
  constructor
  · rintro ⟨htake, -⟩
    have hlength := congrArg List.length htake
    rw [List.length_take, List.length_append] at hlength
    rcases Nat.le_total n (a.length + more.length) with hle | hle
    · exact .inl (by omega)
    · have hmore : more = [] := List.eq_nil_of_length_eq_zero (by omega)
      exact .inr (by rw [hmore, List.append_nil])
  · rintro (rfl | hsame)
    · rw [List.take_left, List.drop_left]
      exact ⟨rfl, rfl⟩
    · rw [hsame, List.take_of_length_le hn, List.drop_of_length_le hn, List.append_nil]
      exact ⟨rfl, rfl⟩

/-! ## What a run keeps -/

section

variable {role sid : String} {s : Course} {ev : RunEvent}

omit [JsonText] in
/-- What is inserted under a key is found there, where nothing else is. -/
theorem collect_eq {α β : Type} {key : α → String} {f : α → β} {l : List α} {a : α} (ha : a ∈ l)
    (hsame : ∀ b ∈ l, key b = key a → f b = f a) : collect key f l (key a) = some (f a) := by
  unfold collect
  induction l using List.reverseRecOn with
  | nil => cases ha
  | append_singleton l b ih =>
    rw [List.foldl_append, List.foldl_cons, List.foldl_nil, Function.update_apply]
    by_cases hkey : key a = key b
    · rw [if_pos hkey, hsame b (List.mem_append_right _ (List.mem_singleton_self b)) hkey.symm]
    · have ha' : a ∈ l := by
        rcases List.mem_append.mp ha with ha | ha
        · exact ha
        · rw [List.mem_singleton.mp ha] at hkey
          exact absurd rfl hkey
      rw [if_neg hkey]
      exact ih ha' fun c hc => hsame c (List.mem_append_left _ hc)

/-- The role has its session and its baselines, its transcript only went on, and its latest entry has
the number of the texts that there were. -/
structure Course.Held (role : String) (engine : Engine) (sid : String) (contents : List Char) (s : Course) : Prop where
  engines : s.engines role = engine
  session : (s.run.roleSessions role).bind (·.currentSessionId) = some sid
  baselines : s.run.roleBaselines role =
    some ⟨countMessages engine contents .user, countMessages engine contents .assistant⟩
  transcript : ∃ now, s.worktree engine sid = some now ∧ Continues contents now
    ∧ ∀ counted, s.baselined = some counted → Continues counted now
  turn : (s.run.latestEntry role).map (·.textMessagesAtStart) =
    s.baselined.map fun counted => (listMessages engine counted .assistant).length

theorem Course.Held.counts (h : Course.Held role engine sid contents s) {now : List Char} (hnow : s.worktree engine sid = some now) :
    s.baselines role = (countMessages engine now .assistant, (listMessages engine now .assistant).length) := by
  unfold Course.baselines persistentBaselines
  rw [h.engines, h.session]
  simp only [Transcripts.countMessages, Transcripts.listMessages, hnow]

omit [JsonText] in
theorem latestEntry_push {run : WorkflowRun} {e : HistoryEntry} :
    ({ run with history := run.history ++ [e] } : WorkflowRun).latestEntry role =
      if e.role = role then some e else run.latestEntry role := by
  unfold WorkflowRun.latestEntry
  rw [List.reverse_append, List.reverse_singleton, List.singleton_append, List.find?_cons]
  by_cases h : e.role = role
  · simp [h]
  · simp [h]

omit [JsonText] in
/-- A new entry, or none. -/
theorem append_cases (run : WorkflowRun) (other : String) (iteration a b : Nat) :
    run.appendHistoryEntryForEventTargetRole other iteration a b = run ∨ ∃ e : HistoryEntry, e.role = other
      ∧ e.textMessagesAtStart = b
      ∧ run.appendHistoryEntryForEventTargetRole other iteration a b = { run with history := run.history ++ [e] } := by
  unfold WorkflowRun.appendHistoryEntryForEventTargetRole
  generalize (if 0 < iteration then iteration else run.iteration) = entryIteration
  simp only
  split
  · exact .inl rfl
  · exact .inr ⟨_, rfl, rfl, rfl⟩

omit [JsonText] in
theorem find?_recount {other : String} {counts : Nat × Nat} (l : List HistoryEntry) :
    ((recount other counts l).find? (·.role = role)).map (·.textMessagesAtStart) =
      ((l.find? (·.role = role)).map fun h => if other = role then counts.2 else h.textMessagesAtStart) := by
  induction l with
  | nil => rfl
  | cons h l ih =>
    unfold recount
    by_cases hother : h.role = other
    · rw [if_pos hother]
      subst hother
      by_cases hrole : h.role = role
      · simp [hrole]
      · simp [hrole]
    · rw [if_neg hother]
      by_cases hrole : h.role = role
      · have hne : other ≠ role := fun he => hother (hrole.trans he.symm)
        simp [hrole, hne]
      · simp only [List.find?_cons, hrole, decide_false]
        exact ih

/-- One event keeps what holds of the role. -/
theorem Course.Held.step (h : Course.Held role engine sid contents s) (hkeeps : RunEvent.Keeps role engine sid s ev) :
    Course.Held role engine sid contents (s.step role engine sid ev) := by
  obtain ⟨now, hnow, hgrown, hcounted⟩ := h.transcript
  cases ev with
  | write worktree =>
    obtain ⟨new, hnew, hmore⟩ := hkeeps now hnow
    exact ⟨h.engines, h.session, h.baselines,
      ⟨new, hnew, hgrown.trans hmore, fun counted hc => (hcounted counted hc).trans hmore⟩, h.turn⟩
  | advance activeRole iteration => exact ⟨h.engines, h.session, h.baselines, h.transcript, h.turn⟩
  | activate other iteration =>
    obtain hsame | ⟨e, hrole, htext, hpush⟩ :=
      append_cases s.run other iteration (s.baselines other).1 (s.baselines other).2
    · unfold Course.step Course.marked
      simp only [hsame, bne_self_eq_false, Bool.and_false, Bool.false_eq_true, if_false]
      exact ⟨h.engines, h.session, h.baselines, h.transcript, h.turn⟩
    · have hlength : ((s.run.history ++ [e]).length != s.run.history.length) = true := by simp
      unfold Course.step Course.marked
      simp only [hpush, hlength, Bool.and_true]
      refine ⟨h.engines, h.session, h.baselines, ⟨now, hnow, hgrown, ?_⟩, ?_⟩
      · intro counted hc
        by_cases hother : other = role
        · simp only [hother, decide_true, if_true, hnow] at hc
          rw [← Option.some.inj hc]
          exact .refl
        · simp only [hother, decide_false, Bool.false_eq_true, if_false] at hc
          exact hcounted counted hc
      · simp only [latestEntry_push, hrole]
        by_cases hother : other = role
        · subst hother
          simp only [if_true, decide_true, Option.map_some, htext, hnow, h.counts hnow]
        · simp only [hother, decide_false, Bool.false_eq_true, if_false]
          exact h.turn
  | reset other iteration =>
    have hother : other ≠ role := hkeeps
    have hne : role ≠ other := Ne.symm hother
    obtain hsame | ⟨e, hrole, -, hpush⟩ := append_cases s.run other iteration 0 0
    · unfold Course.step
      simp only [hsame]
      refine ⟨h.engines, ?_, ?_, h.transcript, h.turn⟩
      · simpa [Function.update_of_ne hne] using h.session
      · simpa [Function.update_of_ne hne] using h.baselines
    · unfold Course.step
      simp only [hpush]
      refine ⟨h.engines, ?_, ?_, h.transcript, ?_⟩
      · simpa [Function.update_of_ne hne] using h.session
      · simpa [Function.update_of_ne hne] using h.baselines
      · have hpushed : ({ s.run with history := s.run.history ++ [e] } : WorkflowRun).latestEntry role = _ :=
          latestEntry_push
        rw [hrole, if_neg hother] at hpushed
        rw [← h.turn, ← hpushed]
        rfl
  | deliver other =>
    have hlatest : ∀ run : WorkflowRun,
        run.history = (recount other (s.baselines other) s.run.history.reverse).reverse →
        (run.latestEntry role).map (·.textMessagesAtStart) =
          (s.run.latestEntry role).map fun e => if other = role then (s.baselines other).2 else e.textMessagesAtStart := by
      intro run hrun
      unfold WorkflowRun.latestEntry
      rw [hrun, List.reverse_reverse]
      exact find?_recount _
    unfold Course.step Course.marked
    by_cases hother : other = role
    · subst hother
      cases hentry : s.run.latestEntry other with
      | none =>
        simp only [Option.isSome_none, Bool.and_false, Bool.false_eq_true, if_false]
        refine ⟨h.engines, h.session, h.baselines, h.transcript, ?_⟩
        rw [← h.turn, hlatest _ rfl, hentry]
        rfl
      | some e =>
        simp only [decide_true, Option.isSome_some, Bool.and_self, if_true, hnow]
        refine ⟨h.engines, h.session, h.baselines, ⟨now, hnow, hgrown, ?_⟩, ?_⟩
        · intro counted hc
          rw [← Option.some.inj hc]
          exact .refl
        · rw [hlatest _ rfl, hentry, h.counts hnow]
          simp
    · simp only [hother, decide_false, Bool.false_and, Bool.false_eq_true, if_false]
      refine ⟨h.engines, h.session, h.baselines, h.transcript, ?_⟩
      rw [← h.turn, hlatest _ rfl]
      simp [hother]
  | bind other sid' =>
    have hne : role ≠ other := Ne.symm hkeeps
    refine ⟨h.engines, ?_, h.baselines, h.transcript, h.turn⟩
    unfold Course.step
    simpa [Function.update_of_ne hne] using h.session

theorem Course.Held.listMessages (h : Course.Held role engine sid contents s) {now : List Char}
    (hnow : s.worktree engine sid = some now) :
    s.resolver.listMessages role kind = ClaudeManager.listMessages engine now kind := by
  obtain ⟨binding, hbinding, hsid⟩ := Option.bind_eq_some_iff.mp h.session
  have hlookup : s.resolver.lookup role = some (engine, s.worktree, sid) := by
    simp [Resolver.lookup, Course.resolver, h.engines, hbinding, hsid]
  unfold Resolver.listMessages
  rw [hlookup]
  simp only [Transcripts.listMessages, hnow]

theorem Course.Held.baseline (h : Course.Held role engine sid contents s) :
    s.resolver.baseline role kind = countMessages engine contents kind := by
  unfold Resolver.baseline
  rw [show s.resolver.run = s.run from rfl, h.baselines]
  cases kind <;> rfl

/-- The two slices of a kind are right in just these cases. -/
theorem Course.Held.slices_iff (h : Course.Held role engine sid contents s) {now : List Char}
    (hnow : s.worktree engine sid = some now) (hgrown : Continues contents now) :
    s.resolver.priorMessages kind role = ClaudeManager.listMessages engine contents kind
      ∧ ClaudeManager.listMessages engine contents kind ++ s.resolver.messages kind role
        = ClaudeManager.listMessages engine now kind ↔
    (∀ v ∈ records contents, isEntry engine kind v = true → (messageOfEntry engine kind v).isSome = true)
      ∨ ∀ v ∈ (records now).drop (records contents).length, messageOfEntry engine kind v = none := by
  unfold Resolver.priorMessages Resolver.messages
  rw [h.listMessages hnow, h.baseline, cut_iff hgrown.messages length_le_count, count_eq_iff, hgrown.same_iff]

/-- The turn is what was added since the latest entry of the role was counted. -/
theorem Course.Held.turn_eq (h : Course.Held role engine sid contents s) {now counted : List Char}
    (hnow : s.worktree engine sid = some now) (hcounted : s.baselined = some counted)
    (hgrown : Continues counted now) :
    ClaudeManager.listMessages engine counted .assistant ++ s.resolver.assistantSinceActivation role
      = ClaudeManager.listMessages engine now .assistant := by
  have hoffset : ((s.run.latestEntry role).map (·.textMessagesAtStart)).getD 0
      = (ClaudeManager.listMessages engine counted .assistant).length := by
    rw [h.turn, hcounted]
    rfl
  unfold Resolver.assistantSinceActivation
  rw [h.listMessages hnow, show s.resolver.run = s.run from rfl, hoffset]
  exact ((cut_iff hgrown.messages le_rfl).mpr (.inl rfl)).2

theorem Course.Held.run {evs : List RunEvent} (h : Course.Held role engine sid contents s) (hkept : Course.Kept role engine sid s evs) :
    Course.Held role engine sid contents (evs.foldl (Course.step role engine sid) s) := by
  induction evs generalizing s with
  | nil => exact h
  | cons ev evs ih => exact ih (h.step hkept.1) hkept.2

end

/-! ## From the launch on -/

section

variable {t : Transcripts} {roleOrder : List String} {binds : List BindWork} {bw : BindWork} {run : WorkflowRun}
  {engines : String → Engine}

omit [JsonText] in
theorem collect_id {β : Type} (f : String → β) {l : List String} {role : String} (h : role ∈ l) :
    collect id f l role = some (f role) :=
  collect_eq h fun b _ hb => by rw [show b = role from hb]

omit [JsonText] in
theorem collect_bound {β : Type} (f : BindWork → β) (hroles : (binds.map (·.role)).Nodup) (hbw : bw ∈ binds) :
    collect BindWork.role f binds bw.role = some (f bw) :=
  collect_eq hbw fun b hb h => by rw [List.inj_on_of_nodup_map hroles hb hbw h]

/-- What is recorded at launch of a role that is bound. -/
theorem startWorkflow_bound (hrun : startWorkflow t roleOrder binds = some run) (hroles : (binds.map (·.role)).Nodup)
    (hbw : bw ∈ binds) (hrole : bw.role ∈ roleOrder) :
    run.roleSessions bw.role = some ⟨some bw.sid, true⟩
      ∧ run.roleBaselines bw.role =
        some ⟨t.countMessages bw.engine bw.sid .user, t.countMessages bw.engine bw.sid .assistant⟩
      ∧ (run.activeRole = some bw.role → run.history = [⟨1, bw.role, t.countMessages bw.engine bw.sid .assistant,
        (t.listMessages bw.engine bw.sid .assistant).length⟩])
      ∧ (run.activeRole ≠ some bw.role → run.latestEntry bw.role = none) := by
  obtain ⟨initialRole, -, rfl⟩ := Option.map_eq_some_iff.mp hrun
  have hbinding : boundBindings binds bw.role = some ⟨some bw.sid, true⟩ := collect_bound _ hroles hbw
  have hbaseline : boundBaselines t binds bw.role =
      some ⟨t.countMessages bw.engine bw.sid .user, t.countMessages bw.engine bw.sid .assistant⟩ :=
    collect_bound _ hroles hbw
  have htexts : boundTextCounts t binds bw.role = some (t.listMessages bw.engine bw.sid .assistant).length :=
    collect_bound _ hroles hbw
  have hbaselines := collect_id (fun role =>
    match boundBindings binds role with
    | some _ => (boundBaselines t binds role).getD {}
    | none => {}) hrole
  simp only [hbinding, hbaseline, Option.getD_some] at hbaselines
  refine ⟨?_, hbaselines, fun hactive => ?_, fun hactive => ?_⟩
  · refine (collect_id _ hrole).trans ?_
    rw [hbinding]
    rfl
  · obtain rfl : initialRole = bw.role := Option.some.inj hactive
    unfold WorkflowRun.new
    simp only [hbaselines, htexts, Option.map_some, Option.getD_some]
  · have hne : initialRole ≠ bw.role := fun h => hactive (congrArg some h)
    unfold WorkflowRun.latestEntry WorkflowRun.new
    simp [hne]

variable {evs : List RunEvent}

theorem held_start (hrun : startWorkflow t roleOrder binds = some run) (hroles : (binds.map (·.role)).Nodup)
    (hbw : bw ∈ binds) (hrole : bw.role ∈ roleOrder) (hcontents : t bw.engine bw.sid = some contents)
    (hengine : engines bw.role = bw.engine) :
    Course.Held bw.role bw.engine bw.sid contents (Course.start bw.role run t engines contents) := by
  obtain ⟨hsession, hbaseline, hactive, hother⟩ := startWorkflow_bound hrun hroles hbw hrole
  have hmessages : t.listMessages bw.engine bw.sid .assistant = listMessages bw.engine contents .assistant := by
    simp only [Transcripts.listMessages, hcontents]
  refine ⟨hengine, ?_, ?_, ⟨contents, hcontents, .refl, fun counted hc => ?_⟩, ?_⟩
  · show (run.roleSessions bw.role).bind _ = _
    rw [hsession]
    rfl
  · show run.roleBaselines bw.role = _
    rw [hbaseline]
    simp only [Transcripts.countMessages, hcontents]
  · unfold Course.start at hc
    simp only at hc
    split at hc
    · rw [← Option.some.inj hc]
      exact .refl
    · cases hc
  · show (run.latestEntry bw.role).map _ = (if run.activeRole = some bw.role then some contents else none).map _
    by_cases h : run.activeRole = some bw.role
    · rw [if_pos h]
      unfold WorkflowRun.latestEntry
      rw [hactive h, hmessages]
      simp
    · rw [if_neg h, hother h]
      rfl

/-- The slices of a bound role are right if and only if, for users and assistants, every entry at
launch has a text or no entry that was added has. -/
theorem slices_split_iff (hrun : startWorkflow t roleOrder binds = some run) (hroles : (binds.map (·.role)).Nodup)
    (hbw : bw ∈ binds) (hrole : bw.role ∈ roleOrder) (hcontents : t bw.engine bw.sid = some contents)
    (hengine : engines bw.role = bw.engine)
    (hkept : Course.Kept bw.role bw.engine bw.sid (Course.start bw.role run t engines contents) evs) :
    let s := evs.foldl (Course.step bw.role bw.engine bw.sid) (Course.start bw.role run t engines contents)
    let now := s.contents bw.engine bw.sid
    Split bw.role bw.engine run contents now s ↔
      ∀ kind, (∀ v ∈ records contents, isEntry bw.engine kind v = true →
          (messageOfEntry bw.engine kind v).isSome = true)
        ∨ ∀ v ∈ (records now).drop (records contents).length, messageOfEntry bw.engine kind v = none := by
  intro s now
  have hheld : Course.Held bw.role bw.engine bw.sid contents s := (held_start hrun hroles hbw hrole hcontents hengine).run hkept
  obtain ⟨now', hnow, hgrown, hcounted⟩ := hheld.transcript
  obtain rfl : now' = now := by
    show now' = (s.worktree bw.engine bw.sid).getD []
    rw [hnow]
    rfl
  constructor
  · intro hsplit kind
    refine (hheld.slices_iff hnow hgrown).mp ?_
    cases kind with
    | user => exact ⟨hsplit.priorUser, hsplit.user⟩
    | assistant => exact ⟨hsplit.priorAssistant, hsplit.assistant⟩
  · intro hentries
    have huser := (hheld.slices_iff hnow hgrown).mpr (hentries .user)
    have hassistant := (hheld.slices_iff hnow hgrown).mpr (hentries .assistant)
    refine ⟨huser.1, huser.2, hassistant.1, hassistant.2, fun hactive => ?_, fun counted hc => ?_⟩
    · unfold WorkflowRun.activeAssistantStartCount
      rw [(startWorkflow_bound hrun hroles hbw hrole).2.2.1 hactive, hactive, ← countMessages_eq]
      simp [Transcripts.countMessages, hcontents]
    · exact hheld.turn_eq hnow hc (hcounted counted hc)

end

end

/-! ## A transcript with a thought -/

def thought : List Char :=
  "\x7b\"type\":\"assistant\",\"message\":\x7b\"content\":[\x7b\"type\":\"thinking\"\x7d]\x7d\x7d".toList

def reply : List Char :=
  "\x7b\"type\":\"assistant\",\"message\":\x7b\"content\":[\x7b\"text\":\"done\"\x7d]\x7d\x7d".toList

/-- The two lines, as the JSON they are. -/
abbrev turnJson : JsonText where
  parse line :=
    let turn := fun item => Value.obj [("type", .str "assistant"), ("message", .obj [("content", .arr [.obj [item]])])]
    if line = thought then some (turn ("type", .str "thinking"))
    else if line = reply then some (turn ("text", .str "done"))
    else none

def thoughtLine : List Char := thought ++ ['\n']

def replyLine : List Char := reply ++ ['\n']

/-- A worker that is bound while its session has this. -/
def worker : BindWork := ⟨"worker", .claudeCode, "sid"⟩

def transcriptOf (contents : List Char) : Transcripts := fun _ _ => some contents

def workerRun (contents : List Char) : Option WorkflowRun :=
  @startWorkflow turnJson (transcriptOf contents) ["worker"] [worker]

/-- A reply at launch, and one since. -/
theorem slices_split_replies : ∃ run, workerRun replyLine = some run ∧
    let s := [.write (transcriptOf (replyLine ++ replyLine))].foldl (@Course.step turnJson "worker" .claudeCode "sid")
      (Course.start "worker" run (transcriptOf replyLine) (fun _ => .claudeCode) replyLine)
    @Split turnJson "worker" .claudeCode run replyLine (replyLine ++ replyLine) s := by
  have hwhole : WholeLines replyLine := .inr ⟨reply, rfl⟩
  refine ⟨_, rfl, (@slices_split_iff turnJson replyLine (transcriptOf replyLine) ["worker"] [worker]
    worker _ (fun _ => .claudeCode) [.write (transcriptOf (replyLine ++ replyLine))] rfl (by decide)
    (List.mem_singleton_self _) (by decide) rfl rfl ⟨?_, trivial⟩).mpr fun kind => .inl ?_⟩
  · intro old hold
    rw [← Option.some.inj hold]
    exact ⟨_, rfl, @continues_whole turnJson replyLine replyLine hwhole⟩
  · cases kind <;> decide +kernel

/-- A thought is an entry at launch and no message: the reply that follows counts as one that was
there before. -/
theorem thought_shifts : ∃ run, workerRun thoughtLine = some run ∧
    let start := Course.start "worker" run (transcriptOf thoughtLine) (fun _ => .claudeCode) thoughtLine
    let evs := [RunEvent.write (transcriptOf (thoughtLine ++ replyLine))]
    let s := evs.foldl (@Course.step turnJson "worker" .claudeCode "sid") start
    @Course.Kept turnJson "worker" .claudeCode "sid" start evs
      ∧ @Resolver.priorAssistantMessages turnJson s.resolver "worker" = ["done"]
      ∧ @Resolver.assistantMessages turnJson s.resolver "worker" = []
      ∧ ¬ @Split turnJson "worker" .claudeCode run thoughtLine (thoughtLine ++ replyLine) s := by
  have hwhole : WholeLines thoughtLine := .inr ⟨thought, rfl⟩
  refine ⟨_, rfl, ⟨?_, trivial⟩, by decide +kernel, by decide +kernel, fun h => ?_⟩
  · intro old hold
    rw [← Option.some.inj hold]
    exact ⟨_, rfl, @continues_whole turnJson thoughtLine replyLine hwhole⟩
  · have hnone : @listMessages turnJson .claudeCode thoughtLine .assistant = [] := by decide +kernel
    have hprior := @Split.priorAssistant turnJson _ _ _ _ _ _ h
    rw [hnone] at hprior
    revert hprior
    decide +kernel

end ClaudeManager
