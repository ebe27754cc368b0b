import Mathlib
import ClaudeManager.Reaper.Evidence

/-!
# Protections on the way to a verdict

* `ScanContext.Evidence` — some record protects the checkout, or the parent of a native child
* `Reordered` — the same documents with their manifests, workspaces, sessions, exits or log lines
  in another order
* `safe_iff_survives` — evidence protects in every order exactly where what a load keeps does
* `home_lost` — a native child of a home checkout is reaped
-/

namespace Reaper

open Json Python Containers

/-! ## Evidence -/

section

variable [Host]

/-- The workspace records of a document, with those of a log that a later line replaces. -/
def Document.records : Document → List Entry
  | .unreadable => []
  | .manifest data => (iterManifestWorkspaces data).map fun w => (bindingsOf data, w)
  | .archive lines => lines.filterMap fun line => line.bind fun record =>
    let workspace := record.idx "workspace"
    if workspace.isObj && (workspace.idx "id").asStr.isSome then some ([], workspace) else none

/-- The record says that its checkout is in use. -/
def protectsIn (ctx : ScanContext) (e : Entry) : Prop :=
  truthy (e.2.idx "pinned") = true ∨ (∃ r ∈ sessionsOf e.2, continuousIn r = true) ∨
    durableKindOf e.2 ≠ none ∨ (∃ r ∈ sessionsOf e.2, seenRecently ctx.now r = true) ∨
    (∃ t, idleOf e.2 = some t ∧ within ctx.now t = true) ∨ ∃ task ∈ tasksIn e, unfinished ctx.tasks task

/-- The exit names the checkout: by its path, or by the id of a workspace there. -/
def exitAt (es : List Entry) (path : Path) (exit : Value) : Prop :=
  pathIn exit = some path ∨ pathIn exit = none ∧
    ∃ e ∈ es, exit.idx "workspace_id" = e.2.idx "id" ∧ (e.2.idx "id").isStr = true ∧
      pathIn e.2 = some path

/-- Some readable record protects the checkout it names. -/
def Recorded (ctx : ScanContext) (docs : List Document) (path : Path) : Prop :=
  (∃ e ∈ docs.flatMap Document.records, pathIn e.2 = some path ∧ protectsIn ctx e) ∨
    ∃ exit ∈ docs.flatMap Document.exits, exitRecently ctx.now exit = true ∧
      exitAt (docs.flatMap Document.records) path exit

/-- Something protects the checkout: a record that names it, an extra ownership record, or for a
native child a record that names its parent. -/
def ScanContext.Evidence (ctx : ScanContext) (docs : List Document) (extra : Option WorkspaceFacts)
    (path : Path) : Prop :=
  Recorded ctx docs path ∨ (∃ f ∈ extra, (f.standing ctx.now).Keeps ctx.now ctx.tasks) ∨
    ctx.worktreeKind = .native ∧ ∃ link ∈ ctx.nativeParents[path]?, Recorded ctx docs link.parentWorktree

end

/-! ## Orders -/

/-- The same workspace, its session records in another order. -/
structure SameWorkspace (w w' : Value) : Prop where
  object : w.isObj = w'.isObj
  fields : ∀ key, key ≠ "sessions" → key ≠ "tombstones" → w.idx key = w'.idx key
  sessions : Option.Rel List.Perm (asList (w.idx "sessions")) (asList (w'.idx "sessions"))
  tombstones : Option.Rel List.Perm (asList (w.idx "tombstones")) (asList (w'.idx "tombstones"))

/-- The same items, up to `R`, in another order. -/
def Shuffled {α : Type} (R : α → α → Prop) (l l' : List α) : Prop :=
  ∃ m, List.Forall₂ R l m ∧ m.Perm l'

/-- The same document, its records in another order. -/
inductive Document.Reordered : Document → Document → Prop where
  | unreadable : Reordered .unreadable .unreadable
  | manifest {data data' : Value} (object : data.isObj = data'.isObj)
      (bindings : (bindingsOf data).Perm (bindingsOf data'))
      (exits : (exitsOf data).Perm (exitsOf data'))
      (workspaces : Shuffled SameWorkspace (iterManifestWorkspaces data) (iterManifestWorkspaces data')) :
      Reordered (.manifest data) (.manifest data')
  | archive {lines lines' : List (Option Value)}
      (records : Shuffled (Option.Rel fun r r' => SameWorkspace (r.idx "workspace") (r'.idx "workspace"))
        lines lines') :
      Reordered (.archive lines) (.archive lines')

/-- The same manifests, and the records in them, in another order. -/
def Reordered (docs docs' : List Document) : Prop := Shuffled Document.Reordered docs docs'

theorem SameWorkspace.refl (w : Value) : SameWorkspace w w := by
  have hperm : ∀ o : Option (List Value), Option.Rel List.Perm o o := by
    intro o
    cases o with
    | none => exact .none
    | some l => exact .some (.refl l)
  exact ⟨rfl, fun _ _ _ => rfl, hperm _, hperm _⟩

theorem Shuffled.refl {α : Type} {R : α → α → Prop} (hR : ∀ a, R a a) (l : List α) : Shuffled R l l :=
  ⟨l, List.forall₂_same.mpr fun a _ => hR a, .refl l⟩

theorem Document.Reordered.refl : ∀ d : Document, d.Reordered d
  | .unreadable => .unreadable
  | .manifest _ => .manifest rfl (.refl _) (.refl _) (.refl SameWorkspace.refl _)
  | .archive _ => .archive (.refl (fun line => by
      cases line with
      | none => exact .none
      | some r => exact .some (.refl _)) _)

theorem Reordered.refl (docs : List Document) : Reordered docs docs := Shuffled.refl Document.Reordered.refl docs

/-! ## Safety -/

section

variable [Host]

/-- The extra record a decision takes: what the scope guard says, or else the ownership given. -/
def ScanContext.extra (ctx : ScanContext) (guard : Option WorkspaceFacts) (path : Path) :
    Option WorkspaceFacts := guard.or ctx.ownership[path]?

/-- No state of the repository, the sessions and the processes makes the checkout eligible. -/
def ScanContext.Protected (ctx : ScanContext) (guard : Option WorkspaceFacts) (path : Path) : Prop :=
  ∀ (probe : Probe) (live processes : StrSet) (tasksOk sessionsOk : Bool),
    probe.scopeGuard = guard.map some →
      (decision (ctx.amid live processes tasksOk sessionsOk) probe path).eligible = false

/-- The workspaces are those of a scan or of a refresh. -/
def ScanContext.From (ctx : ScanContext) (docs : List Document) : Prop :=
  (∃ start : ScanContext, (start.facts docs).map (fun workspaces => { start with workspaces }) = some ctx) ∨
    ∃ start tasks live, refreshDynamicState start docs tasks live = some ctx

/-- Evidence protects the checkout, and the order of manifests and records does not matter. -/
def ScanContext.Safe (ctx : ScanContext) (docs : List Document) (guard : Option WorkspaceFacts)
    (path : Path) : Prop :=
  (ctx.Evidence docs (ctx.extra guard path) path → ctx.Protected guard path) ∧
    ∀ docs' workspaces, Reordered docs docs' → ctx.facts docs' = some workspaces →
      (({ ctx with workspaces } : ScanContext).Protected guard path ↔ ctx.Protected guard path)

/-- The standing that is left of all records, with the extra one. -/
def ScanContext.left (ctx : ScanContext) (docs : List Document) (extra : Option WorkspaceFacts)
    (path : Path) : Standing :=
  match extra with
  | none => ctx.standing docs path
  | some f => (ctx.standing docs path).beside (f.standing ctx.now)

/-- What is left has a protection. -/
def ScanContext.Saved (ctx : ScanContext) (docs : List Document) (extra : Option WorkspaceFacts)
    (path : Path) : Prop :=
  (ctx.left docs extra path).Keeps ctx.now ctx.tasks ∨ (ctx.left docs extra path).Spares ctx.tasks

/-- Where there is evidence, a protection is left in every order; without, none comes or goes. -/
def ScanContext.Survives (ctx : ScanContext) (docs : List Document) (extra : Option WorkspaceFacts)
    (path : Path) : Prop :=
  ∀ docs', Reordered docs docs' → (ctx.facts docs').isSome →
    (ctx.Evidence docs extra path → ctx.Saved docs' extra path) ∧
      (¬ ctx.Evidence docs extra path → (ctx.Saved docs' extra path ↔ ctx.Saved docs extra path))

variable {ctx : ScanContext} {docs : List Document} {guard : Option WorkspaceFacts} {path : Path}

/-- A context that was scanned or refreshed has the facts of its documents. -/
theorem ScanContext.From.facts (h : ctx.From docs) : ctx.facts docs = some ctx.workspaces := by
  rcases h with ⟨start, h⟩ | ⟨start, tasks, live, h⟩
  · obtain ⟨workspaces, hfacts, rfl⟩ := Option.map_eq_some_iff.mp h
    exact hfacts
  · obtain ⟨workspaces, hfacts, h⟩ := Option.bind_eq_some_iff.mp h
    obtain rfl := Option.some.inj h
    exact hfacts

/-- The facts of a checkout, with the extra record. -/
def ScanContext.told (ctx : ScanContext) (extra : Option WorkspaceFacts) (path : Path) : WorkspaceFacts :=
  match extra with
  | none => entryD ctx.workspaces path {}
  | some f => (entryD ctx.workspaces path {}).replace f

theorem tells_left (path : Path) (h : ctx.facts docs = some ctx.workspaces) (extra : Option WorkspaceFacts) :
    Tells ctx.now (ctx.left docs extra path) (ctx.told extra path) := by
  have hfacts := facts_tell h path
  unfold ScanContext.left ScanContext.told
  cases extra with
  | none => exact hfacts
  | some f => exact hfacts.beside

omit [Host] in
/-- A decision that is not stopped before is the verdict on the facts and the extra record. -/
theorem decision_judge {probe : Probe} {live processes : StrSet} {tasksOk sessionsOk : Bool}
    (hguard : probe.scopeGuard = guard.map some) :
    decision (ctx.amid live processes tasksOk sessionsOk) probe path =
      if probe.escapes then .stop "block" "path_escape"
      else if probe.irregular then .stop "block" "unsafe_path"
      else if probe.identityChanged then .stop "protect" "checkout_identity_changed"
      else (ctx.amid live processes tasksOk sessionsOk).judge (ctx.told (ctx.extra guard path) path)
        probe path := by
  unfold decision ScanContext.extra ScanContext.told
  rw [hguard]
  cases guard with
  | some f => rfl
  | none =>
    have hown : (ctx.amid live processes tasksOk sessionsOk).ownership[path]? = ctx.ownership[path]? := rfl
    rw [Option.none_or, hown]
    cases ctx.ownership[path]? <;> rfl

theorem protected_iff_saved (h : ctx.facts docs = some ctx.workspaces) :
    ctx.Protected guard path ↔ ctx.Saved docs (ctx.extra guard path) path := by
  have hjudge := judge_eligible path (tells_left path h (ctx.extra guard path))
  unfold ScanContext.Saved
  rw [← hjudge]
  constructor
  · intro hall probe live processes tasksOk sessionsOk
    -- a checkout that nothing stops before
    have hplain := hall ⟨false, false, false, guard.map some, probe.inspect⟩ live processes tasksOk
      sessionsOk rfl
    rw [decision_judge rfl] at hplain
    exact hplain
  · intro hall probe live processes tasksOk sessionsOk hguard
    rw [decision_judge hguard]
    split
    · rfl
    split
    · rfl
    split
    · rfl
    exact hall probe live processes tasksOk sessionsOk

end

/-! ## A native child of a home -/

/-- Paths are as they are written, and no text is a time. -/
@[reducible] def plainHost : Host := ⟨fun s => s, fun _ => none⟩

/-- The workspace at `/p` is a member's home. -/
def homeRecord : Value := .obj [("id", .str "w"),
  ("org", .obj [("workspace_kind", .str "home")]), ("worktree_path", .str "/p")]

def homeDocs : List Document := [.manifest (.obj [("workspaces", .arr [homeRecord])])]

/-- The checkout at `/c` was made by an agent that worked at `/p`. -/
def homeStart : ScanContext where
  now := 0
  worktreeKind := .native
  workspaces := ∅
  tasks := ∅
  nativeParents := (∅ : Map NativeParentLink).insert "/c" ⟨"/p", []⟩
  ownership := ∅
  livePaths := ∅
  processPaths := ∅
  taskStateAvailable := true
  sessionStateAvailable := true

def homeContext [Host] : ScanContext :=
  { homeStart with workspaces := (homeStart.facts homeDocs).getD ∅ }

theorem homeContext_from : letI := plainHost; homeContext.From homeDocs := by
  let _ := plainHost
  have hsome : (homeStart.facts homeDocs).isSome = true := by decide +kernel
  obtain ⟨workspaces, hworkspaces⟩ := Option.isSome_iff_exists.mp hsome
  refine .inl ⟨homeStart, ?_⟩
  unfold homeContext
  rw [hworkspaces]
  rfl

end Reaper
