import Mathlib
import ClaudeManager.Reaper.Facts

/-!
# Evidence that a checkout is in use

* `Standing` — what is kept of all records about one checkout
* `Tells` — the facts of a checkout tell a standing
* `loadWorkspaceFacts_tells`, `native_tells` — what a load keeps of the records
* `judge_eligible` — a verdict follows from the standing
-/

namespace Reaper

open Json Python Containers

/-! ## What records say -/

/-- A workspace record, with the bindings of its document. -/
abbrev Entry := List (String × String) × Value

/-- The session records of a workspace; the rows come first. -/
def sessionsOf (workspace : Value) : List (Bool × Value) :=
  (((asList (workspace.idx "sessions")).getD []).map fun r => (true, r))
    ++ ((asList (workspace.idx "tombstones")).getD []).map fun r => (false, r)

def recent (now : Rat) : Seen → Bool
  | .live => true
  | .until t => within now t

/-- The tasks a session record names. -/
def taskIn (s : Bool × Value) : List String := if s.2.isObj then (s.2.idx "task_id").asStr.toList else []

def continuousIn (s : Bool × Value) : Bool := s.2.isObj && truthy (s.2.idx "continuous_task_id")

/-- The tasks a workspace record names. -/
def tasksIn (e : Entry) : List String :=
  (e.1.filter fun b => (e.2.idx "id").asStr = some b.2).map Prod.fst ++ (sessionsOf e.2).flatMap taskIn

section

variable [Host]

/-- The session record shows an assistant that was seen within the release window. -/
def seenRecently (now : Rat) (s : Bool × Value) : Bool :=
  s.2.isObj && isOpenAssistant (recordOrg s.2) && (seenIn s.1 s.2).any (recent now)

/-- So does a daemon's exit. -/
def exitRecently (now : Rat) (exit : Value) : Bool :=
  isOpenAssistant (recordOrg exit) && (parseTimestamp (exit.idx "exited_at")).any (within now)

end

/-! ## A standing -/

/-- What is kept of the records about a checkout. -/
structure Standing where
  pinned : Prop
  continuous : Prop
  durable : Prop
  seen : Prop
  claimed : Prop
  idle : Option Rat
  tasks : String → Prop

/-- The facts tell the standing. -/
structure Tells (now : Rat) (s : Standing) (f : WorkspaceFacts) : Prop where
  pinned : f.pinned = true ↔ s.pinned
  continuous : f.continuous = true ↔ s.continuous
  durable : (∃ kind ∈ f.durableKind, kind ≠ "") ↔ s.durable
  seen : f.assistantSeen.any (recent now) = true ↔ s.seen
  claimed : f.assistantStream = true ↔ s.claimed
  idle : f.streamIdleSince = s.idle
  tasks : ∀ task, task ∈ f.taskIds ↔ s.tasks task

/-- A task that is not terminal. -/
def unfinished (tasks : Map TaskFacts) (task : String) : Prop :=
  ∃ t, tasks[task]? = some t ∧ t.status ∉ terminalTaskStatuses

/-- A protection the standing has. -/
def Standing.Keeps (s : Standing) (now : Rat) (tasks : Map TaskFacts) : Prop :=
  s.pinned ∨ s.continuous ∨ s.durable ∨ s.seen ∨ (s.claimed ∧ ∃ t, s.idle = some t ∧ within now t = true) ∨
    ∃ task, s.tasks task ∧ unfinished tasks task

/-- What protects beside: a claimed stream of which no idle time is known, or a continuous task. -/
def Standing.Spares (s : Standing) (tasks : Map TaskFacts) : Prop :=
  (s.claimed ∧ s.idle = none) ∨ ∃ task t, s.tasks task ∧ tasks[task]? = some t ∧ t.kind = "continuous"

/-- Nothing is known. -/
def Standing.nothing : Standing := ⟨False, False, False, False, False, none, fun _ => False⟩

/-- The standing that an ownership record tells of itself. -/
def WorkspaceFacts.standing (now : Rat) (f : WorkspaceFacts) : Standing where
  pinned := f.pinned = true
  continuous := f.continuous = true
  durable := ∃ kind ∈ f.durableKind, kind ≠ ""
  seen := f.assistantSeen.any (recent now) = true
  claimed := f.assistantStream = true
  idle := f.streamIdleSince
  tasks := fun task => task ∈ f.taskIds

/-- The standing with an ownership record: of two idle times the first counts, unless it is zero. -/
def Standing.beside (s extra : Standing) : Standing where
  pinned := s.pinned ∨ extra.pinned
  continuous := s.continuous ∨ extra.continuous
  durable := s.durable ∨ extra.durable
  seen := s.seen ∨ extra.seen
  claimed := s.claimed ∨ extra.claimed
  idle := (s.idle.filter fun t => t ≠ 0).or extra.idle
  tasks := fun task => s.tasks task ∨ extra.tasks task

variable {now : Rat} {s : Standing} {f : WorkspaceFacts} {tasks : Map TaskFacts}

theorem tells_empty : Tells now .nothing {} :=
  ⟨by simp [Standing.nothing], by simp [Standing.nothing], by simp [Standing.nothing],
    by simp [Standing.nothing], by simp [Standing.nothing], rfl, by simp [Standing.nothing]⟩

theorem either_text {a b : Option String} : (∃ kind ∈ either a b, kind ≠ "") ↔
    (∃ kind ∈ a, kind ≠ "") ∨ ∃ kind ∈ b, kind ≠ "" := by
  unfold either
  cases a with
  | none => simp
  | some kind =>
    by_cases h : kind = ""
    · simp [h]
    · simp [Option.filter_some, h]

theorem durableKindOf_text {workspace : Value} :
    (∃ kind ∈ durableKindOf workspace, kind ≠ "") ↔ durableKindOf workspace ≠ none := by
  constructor
  · rintro ⟨kind, hkind, -⟩ hnone
    rw [hnone] at hkind
    cases hkind
  · intro hne
    obtain ⟨kind, hkind⟩ := Option.ne_none_iff_exists'.mp hne
    refine ⟨kind, hkind, ?_⟩
    unfold durableKindOf at hkind
    split at hkind
    · cases hkind
    · have hmem := of_decide_eq_true (Option.filter_eq_some_iff.mp hkind).2
      rintro rfl
      exact absurd hmem (by decide)

/-! ## The later one is kept -/

theorem within_mono {t u : Rat} (h : t ≤ u) (hw : within now t = true) : within now u = true := by
  unfold within at hw ⊢
  have := of_decide_eq_true hw
  exact decide_eq_true (by linarith)

theorem recent_latest {current : Option Seen} {seen : Seen} :
    (latest current seen).any (recent now) = true ↔
      current.any (recent now) = true ∨ recent now seen = true := by
  cases current with
  | none => simp [latest]
  | some c =>
    have hmono : ∀ a b : Seen, a.after b = true → recent now b = true → recent now a = true := by
      intro a b hab hb
      match a, b, hab, hb with
      | .live, _, _, _ => rfl
      | .until t, .until u, hab, hb => exact within_mono (le_of_lt (of_decide_eq_true hab)) hb
    have hrest : ∀ a b : Seen, a.after b = false → recent now a = true → recent now b = true := by
      intro a b hab ha
      match a, b, hab, ha with
      | .live, .live, _, _ => rfl
      | .until _, .live, _, _ => rfl
      | .until t, .until u, hab, ha => exact within_mono (not_lt.mp (of_decide_eq_false hab)) ha
    unfold latest
    simp only
    by_cases h : seen.after c = true
    · rw [if_pos h]
      exact ⟨.inr, fun hor => hor.elim (hmono seen c h) id⟩
    · rw [if_neg h]
      exact ⟨.inl, fun hor => hor.elim id (hrest seen c (by simpa using h))⟩

/-! ## One workspace -/

section

variable [Host]

/-- The standing with more session records. -/
def Standing.sessions (now : Rat) (s : Standing) (l : List (Bool × Value)) : Standing :=
  { s with
    continuous := s.continuous ∨ ∃ r ∈ l, continuousIn r = true
    seen := s.seen ∨ ∃ r ∈ l, seenRecently now r = true
    tasks := fun task => s.tasks task ∨ ∃ r ∈ l, task ∈ taskIn r }

/-- The standing with more workspace records: of their idle times the last counts. -/
def Standing.entries (now : Rat) (s : Standing) (l : List Entry) : Standing where
  pinned := s.pinned ∨ ∃ e ∈ l, truthy (e.2.idx "pinned") = true
  continuous := s.continuous ∨ ∃ e ∈ l, ∃ r ∈ sessionsOf e.2, continuousIn r = true
  durable := s.durable ∨ ∃ e ∈ l, durableKindOf e.2 ≠ none
  seen := s.seen ∨ ∃ e ∈ l, ∃ r ∈ sessionsOf e.2, seenRecently now r = true
  claimed := s.claimed ∨ ∃ e ∈ l, isAssistantStream e.2 = true
  idle := (l.reverse.findSome? fun e => idleOf e.2).or s.idle
  tasks := fun task => s.tasks task ∨ ∃ e ∈ l, task ∈ tasksIn e

theorem entries_append {l l' : List Entry} :
    (s.entries now l).entries now l' = s.entries now (l ++ l') := by
  unfold Standing.entries
  simp only [List.mem_append, or_and_right, exists_or, or_assoc, List.reverse_append,
    List.findSome?_append, Option.or_assoc]

theorem sessions_append {l l' : List (Bool × Value)} :
    (s.sessions now l).sessions now l' = s.sessions now (l ++ l') := by
  unfold Standing.sessions
  simp only [List.mem_append, or_and_right, exists_or, or_assoc]

theorem Tells.session {isRow : Bool} {r : Value} (h : Tells now s f) :
    Tells now (s.sessions now [(isRow, r)]) (f.addSession isRow r) := by
  unfold WorkspaceFacts.addSession Standing.sessions continuousIn taskIn seenRecently
  by_cases hr : r.isObj = true
  · simp only [List.exists_mem_cons_iff, List.not_mem_nil, false_and, exists_false, or_false, hr,
      if_true, Bool.true_and]
    refine ⟨h.pinned, ?_, h.durable, ?_, h.claimed, h.idle, fun task => ?_⟩
    · rw [Bool.or_eq_true, h.continuous]
    · by_cases hopen : isOpenAssistant (recordOrg r) = true
      · rw [if_pos hopen, hopen, Bool.true_and, ← h.seen]
        cases seenIn isRow r with
        | none => simp
        | some seen => exact recent_latest
      · rw [if_neg hopen, Bool.eq_false_iff.mpr hopen, h.seen]
        simp
    · rw [List.mem_append, h.tasks]
  · rw [if_neg hr]
    have hno : r.isObj = false := by simpa using hr
    simpa [hno] using h

theorem Tells.foldl {isRow : Bool} : ∀ {l : List Value} {s : Standing} {f : WorkspaceFacts},
    Tells now s f → Tells now (s.sessions now (l.map fun r => (isRow, r)))
      (l.foldl (WorkspaceFacts.addSession isRow) f)
  | [], s, f, h => by
    unfold Standing.sessions
    simpa using h
  | r :: l, s, f, h => by
    have hone : Tells now (s.sessions now [(isRow, r)]) (f.addSession isRow r) := h.session
    have hrest : Tells now _ (l.foldl (WorkspaceFacts.addSession isRow) (f.addSession isRow r)) :=
      hone.foldl
    rw [sessions_append] at hrest
    exact hrest

/-- A workspace record is added. -/
theorem Tells.entry {e : Entry} {f' : WorkspaceFacts} (h : Tells now s f)
    (hadd : f.addWorkspace e.1 e.2 = some f') : Tells now (s.entries now [e]) f' := by
  obtain ⟨live, hlive, hadd⟩ := Option.bind_eq_some_iff.mp hadd
  obtain ⟨tombstones, htomb, hadd⟩ := Option.bind_eq_some_iff.mp hadd
  obtain rfl := Option.some.inj hadd
  have hsessions : sessionsOf e.2 = (live.map fun r => (true, r)) ++ tombstones.map fun r => (false, r) := by
    unfold sessionsOf
    rw [hlive, htomb]
    rfl
  obtain ⟨s₁, hs₁⟩ : ∃ s₁ : Standing, { s with
    pinned := s.pinned ∨ truthy (e.2.idx "pinned") = true
    durable := s.durable ∨ durableKindOf e.2 ≠ none
    claimed := s.claimed ∨ isAssistantStream e.2 = true
    idle := (idleOf e.2).or s.idle
    tasks := fun task => s.tasks task ∨ task ∈ (e.1.filter fun b =>
      (e.2.idx "id").asStr = some b.2).map Prod.fst } = s₁ := ⟨_, rfl⟩
  have hfields : Tells now s₁ (f.addFields e.1 e.2) := by
    subst hs₁
    unfold WorkspaceFacts.addFields
    refine ⟨?_, h.continuous, ?_, h.seen, ?_, ?_, fun task => ?_⟩
    · simp only [Bool.or_eq_true, h.pinned]
    · rw [either_text, h.durable, durableKindOf_text]
    · simp only [Bool.or_eq_true, h.claimed]
    · simp only [h.idle]
    · simp only [List.mem_append, h.tasks]
  have hlive : Tells now (s₁.sessions now (live.map fun r => (true, r)))
      (live.foldl (WorkspaceFacts.addSession true) (f.addFields e.1 e.2)) := hfields.foldl
  have hall : Tells now ((s₁.sessions now (live.map fun r => (true, r))).sessions now
      (tombstones.map fun r => (false, r))) _ := hlive.foldl
  rw [sessions_append, ← hsessions] at hall
  have heq : s₁.sessions now (sessionsOf e.2) = s.entries now [e] := by
    subst hs₁
    unfold Standing.entries Standing.sessions tasksIn
    simp [or_assoc]
  exact heq ▸ hall

/-! ## A load -/

/-- The records of a document that are read. -/
def Document.entries (d : Document) : List Entry :=
  match d.read with
  | none => []
  | some data => (iterManifestWorkspaces data).map fun w => (bindingsOf data, w)

def Document.exits (d : Document) : List Value :=
  match d.read with
  | none => []
  | some data => exitsOf data

/-- The records about a checkout. -/
def entriesOf (path : Path) (l : List Entry) : List Entry := l.filter fun e => pathIn e.2 = some path

/-- The checkout of a workspace, as the last record with its id has it. -/
def lastPath (l : List Entry) (id : String) : Option Path :=
  l.reverse.findSome? fun e => if (e.2.idx "id").asStr = some id then pathIn e.2 else none

/-- The exit counts for the checkout: it names its path, or else a workspace whose last record
does. -/
def exitNames (l : List Entry) (path : Path) (exit : Value) : Prop :=
  pathIn exit = some path ∨
    pathIn exit = none ∧ ∃ id, exit.idx "workspace_id" = .str id ∧ lastPath l id = some path

/-- The standing with more exits. -/
def Standing.exited (now : Rat) (es : List Entry) (path : Path) (s : Standing) (xs : List Value) :
    Standing :=
  { s with seen := s.seen ∨ ∃ x ∈ xs, exitRecently now x = true ∧ exitNames es path x }

/-- What a load keeps of all records about a checkout. -/
def documented (now : Rat) (docs : List Document) (path : Path) : Standing :=
  let es := docs.flatMap Document.entries
  (Standing.nothing.entries now (entriesOf path es)).exited now es path (docs.flatMap Document.exits)

/-- What was read: the records so far, and the exits. -/
structure Loaded (now : Rat) (es : List Entry) (xs : List Value) (l : Load) : Prop where
  facts : ∀ path, Tells now (Standing.nothing.entries now (entriesOf path es)) (entryD l.facts path {})
  exits : l.exits = xs
  pathOf : ∀ id : String, l.pathOf[id]? = lastPath es id

variable {es : List Entry} {xs : List Value} {l l' : Load}

theorem Loaded.addWorkspace {e : Entry} (h : Loaded now es xs l)
    (hadd : l.addWorkspace e.1 e.2 = some l') : Loaded now (es ++ [e]) xs l' := by
  have hentries : ∀ path, entriesOf path (es ++ [e]) =
      entriesOf path es ++ if pathIn e.2 = some path then [e] else [] := by
    intro path
    unfold entriesOf
    rw [List.filter_append, List.filter_singleton]
    congr 1
    split <;> simp_all
  have hlast : ∀ id, lastPath (es ++ [e]) id =
      (if (e.2.idx "id").asStr = some id then pathIn e.2 else none).or (lastPath es id) := by
    intro id
    unfold lastPath
    rw [List.reverse_append, List.findSome?_append, List.reverse_singleton, List.findSome?_singleton]
  unfold Load.addWorkspace at hadd
  cases hpath : pathIn e.2 with
  | none =>
    rw [hpath] at hadd
    obtain rfl := Option.some.inj hadd
    refine ⟨fun path => ?_, h.exits, fun id => ?_⟩
    · rw [hentries, hpath, if_neg (by simp), List.append_nil]
      exact h.facts path
    · rw [hlast, hpath, ite_self, Option.none_or]
      exact h.pathOf id
  | some p =>
    rw [hpath] at hadd
    obtain ⟨f, hf, hadd⟩ := Option.bind_eq_some_iff.mp hadd
    obtain rfl := Option.some.inj hadd
    refine ⟨fun path => ?_, h.exits, fun id => ?_⟩
    · rw [hentries, hpath]
      unfold entryD
      rw [getElem?_insert_map]
      by_cases hp : path = p
      · subst hp
        rw [if_pos rfl, if_pos rfl, ← entries_append]
        exact (h.facts path).entry hf
      · rw [if_neg hp, if_neg fun heq => hp (Option.some.inj heq).symm, List.append_nil]
        exact h.facts path
    · rw [hlast, hpath]
      cases hid : (e.2.idx "id").asStr with
      | none =>
        rw [if_neg (by simp), Option.none_or]
        exact h.pathOf id
      | some i =>
        show (l.pathOf.insert i p)[id]? = _
        rw [getElem?_insert_map]
        by_cases hi : id = i
        · rw [if_pos hi, if_pos (by rw [hi]), Option.some_or]
        · rw [if_neg hi, if_neg fun heq => hi (Option.some.inj heq).symm, Option.none_or]
          exact h.pathOf id

theorem Loaded.addWorkspaces {bindings : List (String × String)} : ∀ {ws : List Value} {es : List Entry}
    {l l' : Load}, Loaded now es xs l → ws.foldlM (Load.addWorkspace bindings) l = some l' →
      Loaded now (es ++ ws.map fun w => (bindings, w)) xs l'
  | [], es, l, l', h, hrun => by
    obtain rfl := Option.some.inj hrun
    rw [List.map_nil, List.append_nil]
    exact h
  | w :: ws, es, l, l', h, hrun => by
    rw [List.foldlM_cons] at hrun
    obtain ⟨l1, hstep, hrun⟩ := Option.bind_eq_some_iff.mp hrun
    have h1 : Loaded now (es ++ [(bindings, w)]) xs l1 := h.addWorkspace hstep
    have h2 := h1.addWorkspaces hrun
    rw [List.append_assoc] at h2
    exact h2

theorem Loaded.addDocument {d : Document} (h : Loaded now es xs l) (hadd : l.addDocument d = some l') :
    Loaded now (es ++ d.entries) (xs ++ d.exits) l' := by
  unfold Load.addDocument at hadd
  unfold Document.entries Document.exits
  cases hread : d.read with
  | none =>
    rw [hread] at hadd
    obtain rfl := Option.some.inj hadd
    simpa using h
  | some data =>
    rw [hread] at hadd
    simp only at hadd ⊢
    split at hadd
    · have h1 : Loaded now es (xs ++ exitsOf data) { l with exits := l.exits ++ exitsOf data } :=
        ⟨h.facts, by rw [h.exits], h.pathOf⟩
      exact h1.addWorkspaces hadd
    · cases hadd

theorem Loaded.addDocuments : ∀ {docs : List Document} {es : List Entry} {xs : List Value}
    {l l' : Load}, Loaded now es xs l → docs.foldlM Load.addDocument l = some l' →
      Loaded now (es ++ docs.flatMap Document.entries) (xs ++ docs.flatMap Document.exits) l'
  | [], es, xs, l, l', h, hrun => by
    obtain rfl := Option.some.inj hrun
    simpa using h
  | d :: docs, es, xs, l, l', h, hrun => by
    rw [List.foldlM_cons] at hrun
    obtain ⟨l1, hstep, hrun⟩ := Option.bind_eq_some_iff.mp hrun
    have h2 := (h.addDocument hstep).addDocuments hrun
    rw [List.append_assoc, List.append_assoc] at h2
    exact h2

/-! ## Exits -/

theorem exitPath_ok {exit : Value} {found : Option Path} {path : Path}
    (hpath : ∀ id : String, l.pathOf[id]? = lastPath es id) (h : l.exitPath exit = some found) :
    found = some path ↔ exitNames es path exit := by
  unfold Load.exitPath at h
  unfold exitNames
  cases hp : pathIn exit with
  | some p =>
    rw [hp] at h
    obtain rfl := Option.some.inj h
    simp
  | none =>
    rw [hp] at h
    simp only [reduceCtorEq, false_or, true_and]
    cases hid : exit.idx "workspace_id" with
    | str id =>
      rw [hid] at h
      obtain rfl := Option.some.inj h
      rw [hpath]
      simp
    | _ => simp_all <;> simp [← h]

theorem addExit_ok {x : Value} (hpath : ∀ id : String, l.pathOf[id]? = lastPath es id)
    (h : l.addExit x = some l') : (∀ id : String, l'.pathOf[id]? = lastPath es id) ∧
      ∀ (path : Path) (s : Standing), Tells now s (entryD l.facts path {}) →
        Tells now (s.exited now es path [x]) (entryD l'.facts path {}) := by
  have hidle : ∀ (path : Path) (s : Standing), ¬ (exitRecently now x = true ∧ exitNames es path x) →
      s.exited now es path [x] = s := by
    intro path s hno
    unfold Standing.exited
    simp only [List.exists_mem_cons_iff, List.not_mem_nil, false_and, exists_false, or_false, hno]
  unfold Load.addExit at h
  unfold exitRecently at hidle
  split at h
  · rename_i hopen
    obtain ⟨found, hfound, h⟩ := Option.bind_eq_some_iff.mp h
    have hnames : ∀ path, found = some path ↔ exitNames es path x := fun path => exitPath_ok hpath hfound
    split at h
    · rename_i p t ht
      obtain rfl := Option.some.inj h
      refine ⟨hpath, fun path s hs => ?_⟩
      rw [entryD_upsert]
      by_cases hp : path = p
      · subst hp
        rw [if_pos rfl]
        have hname : exitNames es path x := (hnames path).mp rfl
        refine ⟨hs.pinned, hs.continuous, hs.durable, ?_, hs.claimed, hs.idle, hs.tasks⟩
        unfold Standing.exited exitRecently
        simp only [recent_latest, hs.seen, recent, hopen, ht, List.exists_mem_cons_iff, List.not_mem_nil,
          false_and, exists_false, or_false, Option.any_some, Bool.true_and, hname, and_true]
      · rw [if_neg hp, hidle path s fun hc => hp (Option.some.inj ((hnames path).mpr hc.2)).symm]
        exact hs
    · rename_i hnone
      obtain rfl := Option.some.inj h
      refine ⟨hpath, fun path s hs => ?_⟩
      rw [hidle path s fun hc => ?_]
      · exact hs
      · obtain ⟨hrecent, hname⟩ := hc
        rw [Bool.and_eq_true] at hrecent
        obtain ⟨t, ht, -⟩ := (Option.any_eq_true _ _).mp hrecent.2
        exact hnone path t ((hnames path).mpr hname) ht
  · rename_i hopen
    obtain rfl := Option.some.inj h
    refine ⟨hpath, fun path s hs => ?_⟩
    rw [hidle path s fun hc => hopen (Bool.and_eq_true_iff.mp hc.1).1]
    exact hs

theorem addExits_ok : ∀ {xs : List Value} {l l' : Load}, (∀ id : String, l.pathOf[id]? = lastPath es id) →
    xs.foldlM Load.addExit l = some l' → ∀ (path : Path) (s : Standing),
      Tells now s (entryD l.facts path {}) → Tells now (s.exited now es path xs) (entryD l'.facts path {})
  | [], l, l', _, hrun, path, s, hs => by
    obtain rfl := Option.some.inj hrun
    unfold Standing.exited
    simpa using hs
  | x :: xs, l, l', hpath, hrun, path, s, hs => by
    rw [List.foldlM_cons] at hrun
    obtain ⟨l1, hstep, hrun⟩ := Option.bind_eq_some_iff.mp hrun
    obtain ⟨hpath1, htells⟩ := addExit_ok hpath hstep
    have hrest := addExits_ok hpath1 hrun path _ (htells path s hs)
    have hcons : (s.exited now es path [x]).exited now es path xs = s.exited now es path (x :: xs) := by
      unfold Standing.exited
      simp only [List.exists_mem_cons_iff, List.not_mem_nil, false_and, exists_false, or_false, or_assoc]
    exact hcons ▸ hrest

/-- The facts of a load tell what is documented. -/
theorem loadWorkspaceFacts_tells {docs : List Document} {m : Map WorkspaceFacts}
    (h : loadWorkspaceFacts docs = some m) (path : Path) :
    Tells now (documented now docs path) (entryD m path {}) := by
  obtain ⟨l, hl, h⟩ := Option.bind_eq_some_iff.mp h
  obtain ⟨l', hl', h⟩ := Option.bind_eq_some_iff.mp h
  obtain rfl := Option.some.inj h
  have hempty : Loaded now [] [] {} := by
    refine ⟨fun path => ?_, rfl, fun id => ?_⟩
    · have hnothing : Standing.nothing.entries now (entriesOf path []) = .nothing := by
        unfold Standing.entries Standing.nothing entriesOf
        simp
      rw [hnothing]
      exact tells_empty
    · exact Std.ExtTreeMap.getElem?_empty
  have hloaded := hempty.addDocuments hl
  rw [List.nil_append, List.nil_append] at hloaded
  rw [hloaded.exits] at hl'
  exact addExits_ok hloaded.pathOf hl' path _ (hloaded.facts path)

end

/-! ## Native children -/

/-- What a native child is given of its parent's standing. -/
def Standing.inherited (s : Standing) : Standing where
  pinned := s.pinned
  continuous := s.continuous
  durable := False
  seen := False
  claimed := False
  idle := none
  tasks := s.tasks

/-- The standing of a checkout in a context: that of its documents, or of its parent's. -/
def ScanContext.standing [Host] (ctx : ScanContext) (docs : List Document) (path : Path) : Standing :=
  match ctx.worktreeKind, ctx.nativeParents[path]? with
  | .native, some link => (documented ctx.now docs link.parentWorktree).inherited
  | _, _ => documented ctx.now docs path

theorem native_entry {manager : Map WorkspaceFacts} {links : Map NativeParentLink} {path : Path} :
    entryD (workspaceFactsForNative manager links) path {} =
      match links[path]? with
      | some link => nativeFacts manager link
      | none => entryD manager path {} := by
  unfold workspaceFactsForNative entryD
  cases hlink : links[path]? with
  | some link =>
    have hmem : (path, nativeFacts manager link) ∈
        links.toList.map fun e => (e.1, nativeFacts manager e.2) :=
      List.mem_map.mpr ⟨(path, link), mem_toList_map.mpr hlink, rfl⟩
    have hkeys : (links.toList.map fun e => (e.1, nativeFacts manager e.2)).Pairwise
        fun a b => ¬ compare a.1 b.1 = .eq :=
      List.pairwise_map.mpr Std.ExtTreeMap.distinct_keys_toList
    rw [Std.ExtTreeMap.getElem?_insertMany_list_of_mem Std.ReflCmp.compare_self hkeys hmem]
    rfl
  | none =>
    rw [Std.ExtTreeMap.getElem?_insertMany_list_of_contains_eq_false]
    rw [← Bool.not_eq_true, List.contains_iff_mem]
    intro hmem
    obtain ⟨e, he, rfl⟩ := List.mem_map.mp hmem
    obtain ⟨d, hd, rfl⟩ := List.mem_map.mp he
    rw [mem_toList_map.mp hd] at hlink
    cases hlink

theorem native_tells {s : Standing} {manager : Map WorkspaceFacts} {link : NativeParentLink}
    (h : Tells now s (entryD manager link.parentWorktree {})) :
    Tells now s.inherited (nativeFacts manager link) :=
  ⟨h.pinned, h.continuous, by simp [Standing.inherited, nativeFacts],
    by simp [Standing.inherited, nativeFacts], by simp [Standing.inherited, nativeFacts], rfl, h.tasks⟩

/-- The facts of a context tell the standing of each checkout. -/
theorem facts_tell [Host] {ctx : ScanContext} {docs : List Document} {m : Map WorkspaceFacts}
    (h : ctx.facts docs = some m) (path : Path) :
    Tells ctx.now (ctx.standing docs path) (entryD m path {}) := by
  obtain ⟨manager, hmanager, h⟩ := Option.bind_eq_some_iff.mp h
  have hload : ∀ path, Tells ctx.now (documented ctx.now docs path) (entryD manager path {}) :=
    loadWorkspaceFacts_tells hmanager
  obtain rfl := Option.some.inj h
  unfold ScanContext.standing
  cases ctx.worktreeKind with
  | manager => exact hload path
  | native =>
    simp only
    rw [native_entry]
    cases ctx.nativeParents[path]? with
    | none => exact hload path
    | some link => exact native_tells (hload link.parentWorktree)

/-! ## Verdicts -/

theorem Tells.beside {s : Standing} {f extra : WorkspaceFacts} (h : Tells now s f) :
    Tells now (s.beside (extra.standing now)) (f.replace extra) := by
  unfold Standing.beside WorkspaceFacts.standing WorkspaceFacts.replace
  refine ⟨?_, ?_, ?_, ?_, ?_, ?_, fun task => ?_⟩
  · simp only [Bool.or_eq_true, h.pinned]
  · simp only [Bool.or_eq_true, h.continuous]
  · simp only [either_text, h.durable]
  · cases hextra : extra.assistantSeen with
    | none => simp [h.seen]
    | some seen => simp only [recent_latest, h.seen, Option.any_some]
  · simp only [Bool.or_eq_true, h.claimed]
  · simp only [h.idle]
  · simp only [List.mem_append, h.tasks]

/-- The context among these sessions and processes. -/
def ScanContext.amid (ctx : ScanContext) (live processes : StrSet) (tasksOk sessionsOk : Bool) :
    ScanContext :=
  { ctx with
    livePaths := live
    processPaths := processes
    taskStateAvailable := tasksOk
    sessionStateAvailable := sessionsOk }

theorem protects_iff {s : Standing} {f : WorkspaceFacts} (h : Tells now s f) :
    assistantProtects f now = true ↔
      s.seen ∨ (s.claimed ∧ ∃ t, s.idle = some t ∧ within now t = true) ∨ (s.claimed ∧ s.idle = none) := by
  rw [← h.seen, ← h.claimed, ← h.idle]
  unfold assistantProtects
  cases f.assistantSeen with
  | none => cases f.assistantStream <;> cases f.streamIdleSince <;> simp
  | some seen =>
    cases seen <;> cases f.assistantStream <;> cases f.streamIdleSince <;> simp [recent]

theorem any_task {ctx : ScanContext} {f : WorkspaceFacts} {p : TaskFacts → Bool} {s : Standing}
    (h : Tells now s f) : (manifestTasks ctx f).any p = true ↔
      ∃ task t, s.tasks task ∧ ctx.tasks[task]? = some t ∧ p t = true := by
  unfold manifestTasks
  rw [List.any_eq_true]
  constructor
  · rintro ⟨t, ht, hp⟩
    obtain ⟨task, htask, hget⟩ := List.mem_filterMap.mp ht
    exact ⟨task, t, (h.tasks task).mp htask, hget, hp⟩
  · rintro ⟨task, t, htask, hget, hp⟩
    exact ⟨t, List.mem_filterMap.mpr ⟨task, (h.tasks task).mpr htask, hget⟩, hp⟩

/-- A verdict that leaves the checkout to its repository found nothing. -/
theorem judge_clear (ctx : ScanContext) (f : WorkspaceFacts) (probe : Probe) (path : Path) :
    (ctx.judge f probe path).eligible = false ∨
      f.pinned = false ∧ f.continuous = false ∧
        f.durableKind.filter (fun kind => kind ≠ "") = none ∧ assistantProtects f ctx.now = false ∧
        (manifestTasks ctx f).any (fun task => task.kind = "continuous") = false ∧
        (manifestTasks ctx f).any (fun task => task.status ∉ terminalTaskStatuses) = false := by
  unfold ScanContext.judge
  split
  · exact .inl rfl
  rename_i hpinned
  split
  · exact .inl rfl
  rename_i hcontinuous
  split
  · exact .inl rfl
  rename_i hkind
  split_ifs with hp hlive hprocess htasks hsessions hcontinuous' hopen
  all_goals try exact .inl rfl
  exact .inr ⟨Bool.eq_false_iff.mpr hpinned, Bool.eq_false_iff.mpr hcontinuous, hkind,
    Bool.eq_false_iff.mpr hp, Bool.eq_false_iff.mpr hcontinuous', Bool.eq_false_iff.mpr hopen⟩

/-- The checkout is kept, whatever its repository, sessions and processes are, exactly where its
standing has a protection. -/
theorem judge_eligible {ctx : ScanContext} {s : Standing} {f : WorkspaceFacts} (path : Path)
    (h : Tells ctx.now s f) :
    (∀ (probe : Probe) (live processes : StrSet) (tasksOk sessionsOk : Bool),
      ((ctx.amid live processes tasksOk sessionsOk).judge f probe path).eligible = false) ↔
      s.Keeps ctx.now ctx.tasks ∨ s.Spares ctx.tasks := by
  have hassist := protects_iff h
  constructor
  · intro hall
    by_contra hno
    unfold Standing.Keeps Standing.Spares at hno
    push Not at hno
    obtain ⟨⟨hpinned, hcontinuous, hdurable, hseen, hclaimed, htask⟩, hidle, hkind⟩ := hno
    -- a repository that is ready to go, without sessions and processes
    have hgone := hall ⟨false, false, false, none, fun _ => ⟨"reap", "unowned_inactive", true⟩⟩ ∅ ∅ true true
    have hkindless : f.durableKind.filter (fun kind => kind ≠ "") = none := by
      rw [Option.filter_eq_none_iff]
      intro kind hkind hne
      exact hdurable (h.durable.mp ⟨kind, hkind, of_decide_eq_true hne⟩)
    have hp : assistantProtects f ctx.now = false := by
      rw [← Bool.not_eq_true, hassist]
      rintro (hc | ⟨hc, t, ht, hw⟩ | ⟨hc, ht⟩)
      · exact hseen hc
      · exact hclaimed hc t ht hw
      · exact hidle hc ht
    unfold ScanContext.judge at hgone
    rw [if_neg (fun hc => hpinned (h.pinned.mp hc)),
      if_neg (fun hc => hcontinuous (h.continuous.mp hc)), hkindless] at hgone
    have hcalm : ∀ p : TaskFacts → Bool, (∀ task t, s.tasks task → ctx.tasks[task]? = some t →
        p t = false) → (manifestTasks (ctx.amid ∅ ∅ true true) f).any p = false := by
      intro p hp
      rw [← Bool.not_eq_true, any_task h]
      rintro ⟨task, t, hs, ht, hc⟩
      rw [hp task t hs ht] at hc
      cases hc
    have hnow : (ctx.amid ∅ ∅ true true).now = ctx.now := rfl
    simp only [hnow, hp, Bool.false_eq_true, if_false] at hgone
    rw [hcalm _ fun task t hs ht => ?_, hcalm _ fun task t hs ht => ?_] at hgone
    · simp [ScanContext.amid] at hgone
    · exact decide_eq_false fun hc => htask task hs ⟨t, ht, hc⟩
    · exact decide_eq_false (hkind task t hs ht)
  · rintro hor probe live processes tasksOk sessionsOk
    rcases judge_clear (ctx.amid live processes tasksOk sessionsOk) f probe path with hstop | ⟨hpinned, hcontinuous, hkindless, hp, hkind, hstatus⟩
    · exact hstop
    have hdurable : ¬ s.durable := by
      intro hc
      obtain ⟨kind, hkind, hne⟩ := h.durable.mpr hc
      exact Option.filter_eq_none_iff.mp hkindless kind hkind (decide_eq_true hne)
    have hassist' : ¬ assistantProtects f ctx.now = true := fun hc => Bool.false_ne_true (hp ▸ hc)
    rw [hassist] at hassist'
    rw [← Bool.not_eq_true, any_task h] at hkind hstatus
    rcases hor with (hc | hc | hc | hc | hc | ⟨task, hs, t, ht, hopen⟩) | hc | ⟨task, t, hs, ht, hsame⟩
    · exact absurd ((h.pinned.mpr hc).symm.trans hpinned) (by simp)
    · exact absurd ((h.continuous.mpr hc).symm.trans hcontinuous) (by simp)
    · exact absurd hc hdurable
    · exact absurd (.inl hc) hassist'
    · exact absurd (.inr (.inl hc)) hassist'
    · exact absurd ⟨task, t, hs, ht, decide_eq_true hopen⟩ hstatus
    · exact absurd (.inr (.inr hc)) hassist'
    · exact absurd ⟨task, t, hs, ht, decide_eq_true hsame⟩ hkind

end Reaper
