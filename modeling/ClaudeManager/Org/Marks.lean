import Mathlib
import ClaudeManager.Org.Commits

/-!
# Marks on workspaces

The organization marks a workspace as a member's home. The daemon that has the workspace is told in
the reply to a heartbeat, and names the mark in its next one.

* `Marks.home` — a member takes a workspace as its home
* `Marks.confirm`, `Marks.push` — what a heartbeat does to the marks
* `Host.receive` — what a daemon does with the reply
* `Grows` — what a transaction of the organization leaves of the marks
-/

namespace Org

open Relation Program

/-! ## The table -/

inductive MarkKind where
  | home
  | stream
  deriving DecidableEq

inductive PushState where
  | central
  | pushed
  | confirmed
  deriving DecidableEq

/-- A row of `org_workspace_marks`. -/
structure MarkRow where
  id : Nat
  daemon : String
  workspace : String
  path : Option String
  kind : MarkKind
  member : MemberId
  state : PushState
  attempts : Nat
  deriving DecidableEq

namespace MarkRow

/-- What the organization reads of it. -/
def mark (r : MarkRow) : Mark := ⟨r.daemon, r.workspace, r.path, r.kind = .home, some r.member⟩

/-- `ON CONFLICT DO UPDATE`: for another member the mark is to be pushed again. -/
def assign (member : MemberId) (path : Option String) (r : MarkRow) : MarkRow :=
  { r with
    member := member
    path := path <|> r.path
    kind := .home
    state := if r.member = member then r.state else .central
    attempts := if r.member = member then r.attempts else 0 }

end MarkRow

/-- What a reply says of a mark. -/
structure Push where
  id : Nat
  workspace : String
  path : Option String
  kind : MarkKind
  member : MemberId
  deriving DecidableEq

structure Marks where
  rows : List MarkRow
  /-- The next id. -/
  next : Nat
  deriving DecidableEq

def maxMarkAttempts : Nat := 10

namespace Marks

variable (t : Marks)

/-- `_home_mark`. -/
def home (member : MemberId) (home : Option Home) : Marks :=
  match home with
  | none => t
  | some h =>
    if h.daemon = "" ∨ h.workspace = "" then t
    else if (t.rows.any fun r => r.daemon = h.daemon && r.workspace = h.workspace) then
      { t with rows := t.rows.map fun r =>
        if r.daemon = h.daemon && r.workspace = h.workspace then r.assign member h.path else r }
    else
      { rows := t.rows ++ [⟨t.next, h.daemon, h.workspace, h.path, .home, member, .central, 0⟩]
        next := t.next + 1 }

/-- The marks that a daemon names in its heartbeat. -/
def confirm (daemon : String) (ids : List Nat) : Marks :=
  { t with rows := t.rows.map fun r =>
    if r.daemon = daemon && ids.contains r.id && r.state ≠ .confirmed then
      { r with state := .confirmed }
    else r }

/-- A mark that is to be pushed. -/
def due (daemon : String) (r : MarkRow) : Bool :=
  r.daemon = daemon && r.state ≠ .confirmed && r.attempts < maxMarkAttempts

def push (daemon : String) : Marks :=
  { t with rows := t.rows.map fun r =>
    if (due daemon r) = true then { r with state := .pushed, attempts := r.attempts + 1 } else r }

def pushes (daemon : String) : List Push :=
  (t.rows.filter (due daemon)).map fun r => ⟨r.id, r.workspace, r.path, r.kind, r.member⟩

end Marks

/-! ## A daemon -/

inductive CheckoutKind where
  | ephemeral
  | home
  | stream
  deriving DecidableEq

def MarkKind.checkout : MarkKind → CheckoutKind
  | .home => .home
  | .stream => .stream

/-- A workspace of a daemon, and what it has recorded of it. -/
structure Checkout where
  id : String
  path : Option String
  /-- Missing where it is unclassified. -/
  kind : Option CheckoutKind
  /-- `office_of`. -/
  office : Option MemberId
  /-- It became a stream for an assistant. -/
  claimed : Bool
  deriving DecidableEq

structure Reply where
  daemon : String
  /-- The marks that the heartbeat named. -/
  acked : List Nat
  marks : List Push
  deriving DecidableEq

structure Host where
  checkouts : List Checkout
  /-- The marks to name in the next heartbeat; lost in a restart. -/
  acks : List Nat
  deriving DecidableEq

namespace Host

variable (h : Host)

/-- The workspace of a mark: by its id, or else by its path where that is unique. -/
def find (workspace : String) (path : Option String) : Option String :=
  if h.checkouts.any fun c => c.id = workspace then some workspace
  else
    match path with
    | none => none
    | some p =>
      match h.checkouts.filter fun c => c.path = some p with
      | [c] => some c.id
      | _ => none

def updateCheckout (id : String) (f : Checkout → Checkout) : Host :=
  { h with checkouts := h.checkouts.map fun c => if c.id = id then f c else c }

def record (id : String) (kind : CheckoutKind) (member : MemberId) : Host :=
  h.updateCheckout id fun c => { c with kind := some kind, office := some member }

/-- `apply_marks`, with the ids of the marks that name a workspace of the daemon. -/
def applyMarks : Host → List Push → Host × List Nat
  | h, [] => (h, [])
  | h, p :: ps =>
    match h.find p.workspace p.path with
    | none => applyMarks h ps
    | some id =>
      let rest := applyMarks (h.record id p.kind.checkout p.member) ps
      (rest.1, p.id :: rest.2)

/-- A reply comes in: what it answers is not named again, and its marks are named next time. -/
def receive (r : Reply) : Host :=
  let applied := h.applyMarks r.marks
  { applied.1 with acks := (h.acks.filter fun id => id ∉ r.acked) ++ applied.2 }

/-- `claim_workspace`: an ephemeral checkout becomes a stream of the member's office. -/
def claim (id : String) (member : MemberId) : Host :=
  h.updateCheckout id fun c =>
    if c.kind = some .ephemeral then
      { c with kind := some .stream, office := some member, claimed := true }
    else c

/-- `release_workspace`. -/
def release (id : String) : Host :=
  h.updateCheckout id fun c =>
    if c.claimed = true ∧ c.kind = some .stream then
      { c with kind := some .ephemeral, office := none, claimed := false }
    else c

/-- The brain restarts: the workspaces were saved. -/
def restart : Host := { h with acks := [] }

/-- The daemon has recorded kind and member of the mark for its workspace. -/
def Records (r : MarkRow) : Prop :=
  ∃ id, h.find r.workspace r.path = some id ∧
    ∃ c ∈ h.checkouts, c.id = id ∧ c.kind = some r.kind.checkout ∧ c.office = some r.member

end Host

/-! ## The organization's own marks -/

/-- The rows are the marks that the organization reads. -/
theorem Marks.home_marks {s : Store} {t : Marks} (h : t.rows.map MarkRow.mark = s.marks)
    (member : MemberId) (home : Option Home) :
    (t.home member home).rows.map MarkRow.mark = (s.homeMark member home).marks := by
  unfold Marks.home Store.homeMark
  cases home with
  | none => exact h
  | some w =>
    simp only
    by_cases hempty : w.daemon = "" ∨ w.workspace = ""
    · rw [if_pos hempty, if_pos hempty]
      exact h
    · have hany : (s.marks.any fun m => m.daemon = w.daemon && m.workspace = w.workspace) =
          t.rows.any fun r => r.daemon = w.daemon && r.workspace = w.workspace := by
        rw [← h, List.any_map]
        rfl
      rw [if_neg hempty, if_neg hempty, hany]
      by_cases hold : (t.rows.any fun r => r.daemon = w.daemon && r.workspace = w.workspace) = true
      · rw [if_pos hold, if_pos hold]
        simp only [← h, List.map_map]
        refine List.map_congr_left fun r _ => ?_
        by_cases hkey : (r.daemon = w.daemon && r.workspace = w.workspace) = true
        · have hkey' : (r.mark.daemon = w.daemon && r.mark.workspace = w.workspace) = true := hkey
          rw [Function.comp_apply, Function.comp_apply, if_pos hkey, if_pos hkey']
          simp [MarkRow.mark, MarkRow.assign]
        · have hkey' : ¬ (r.mark.daemon = w.daemon && r.mark.workspace = w.workspace) = true := hkey
          rw [Function.comp_apply, Function.comp_apply, if_neg hkey, if_neg hkey']
      · rw [if_neg hold, if_neg hold]
        simp only [← h, List.map_append]
        rfl

/-! ## What is left of the marks -/

/-- Ids are unique, and smaller than the next one; only homes are marked. -/
structure Marks.Numbered (t : Marks) : Prop where
  ids : (t.rows.map MarkRow.id).Nodup
  fresh : ∀ r ∈ t.rows, r.id < t.next
  homes : ∀ r ∈ t.rows, r.kind = .home

/-- A mark keeps its id and its workspace; it stays confirmed only for the same member, and new
marks are not confirmed. -/
structure Grows (t t' : Marks) : Prop where
  next : t.next ≤ t'.next
  rows : ∀ r' ∈ t'.rows,
    (∃ r ∈ t.rows, r'.id = r.id ∧ r'.daemon = r.daemon ∧ r'.workspace = r.workspace ∧
      (r'.state = .confirmed → r.state = .confirmed ∧ r'.member = r.member)) ∨
    t.next ≤ r'.id ∧ r'.state ≠ .confirmed

variable {t t' t'' : Marks}

theorem Grows.refl : Grows t t :=
  ⟨Nat.le_refl _, fun r hr => .inl ⟨r, hr, rfl, rfl, rfl, fun hs => ⟨hs, rfl⟩⟩⟩

theorem Grows.trans (h : Grows t t') (h' : Grows t' t'') : Grows t t'' := by
  refine ⟨h.next.trans h'.next, fun r'' hr'' => ?_⟩
  rcases h'.rows r'' hr'' with ⟨r', hr', hid', hdaemon', hws', hst'⟩ | ⟨hnew, hst⟩
  · rcases h.rows r' hr' with ⟨r, hr, hid, hdaemon, hws, hst⟩ | ⟨hnew, hst⟩
    · refine .inl ⟨r, hr, hid'.trans hid, hdaemon'.trans hdaemon, hws'.trans hws, fun hs => ?_⟩
      obtain ⟨hs', hmember'⟩ := hst' hs
      obtain ⟨hs, hmember⟩ := hst hs'
      exact ⟨hs, hmember'.trans hmember⟩
    · refine .inr ⟨hid' ▸ hnew, fun hs => hst (hst' hs).1⟩
  · exact .inr ⟨h.next.trans hnew, hst⟩

/-- A change of rows that keeps their ids. -/
theorem Marks.Numbered.map (h : t.Numbered) {f : MarkRow → MarkRow} (hid : ∀ r, (f r).id = r.id)
    (hkind : ∀ r, r.kind = .home → (f r).kind = .home) :
    ({ t with rows := t.rows.map f } : Marks).Numbered := by
  refine ⟨?_, fun r hr => ?_, fun r hr => ?_⟩
  · rw [List.map_map]
    have hids : MarkRow.id ∘ f = MarkRow.id := funext hid
    rw [hids]
    exact h.ids
  · obtain ⟨r₀, hr₀, rfl⟩ := List.mem_map.mp hr
    rw [hid]
    exact h.fresh r₀ hr₀
  · obtain ⟨r₀, hr₀, rfl⟩ := List.mem_map.mp hr
    exact hkind r₀ (h.homes r₀ hr₀)

theorem Marks.Numbered.home (h : t.Numbered) (member : MemberId) (home : Option Home) :
    (t.home member home).Numbered ∧ Grows t (t.home member home) := by
  unfold Marks.home
  cases home with
  | none => exact ⟨h, .refl⟩
  | some w =>
    simp only
    split
    · exact ⟨h, .refl⟩
    · split
      · refine ⟨h.map (fun r => ?_) fun r hr => ?_, Nat.le_refl _, fun r' hr' => ?_⟩
        · split <;> rfl
        · split
          · rfl
          · exact hr
        · obtain ⟨r, hr, rfl⟩ := List.mem_map.mp hr'
          refine .inl ⟨r, hr, ?_⟩
          split
          · refine ⟨rfl, rfl, rfl, fun hs => ?_⟩
            by_cases hsame : r.member = member
            · have hstate : (r.assign member w.path).state = r.state := if_pos hsame
              exact ⟨hstate ▸ hs, hsame.symm⟩
            · have hstate : (r.assign member w.path).state = .central := if_neg hsame
              rw [hstate] at hs
              cases hs
          · exact ⟨rfl, rfl, rfl, fun hs => ⟨hs, rfl⟩⟩
      · refine ⟨⟨?_, fun r hr => ?_, fun r hr => ?_⟩, Nat.le_succ _, fun r' hr' => ?_⟩
        · rw [List.map_append, List.nodup_append]
          refine ⟨h.ids, List.nodup_singleton _, ?_⟩
          intro a ha b hb hab
          rw [List.map_singleton, List.mem_singleton] at hb
          obtain ⟨r, hr, rfl⟩ := List.mem_map.mp ha
          have hlt := h.fresh r hr
          rw [hab, hb] at hlt
          exact Nat.lt_irrefl _ hlt
        · rcases List.mem_append.mp hr with hr | hr
          · exact Nat.lt_succ_of_lt (h.fresh r hr)
          · rw [List.mem_singleton.mp hr]
            exact Nat.lt_succ_self _
        · rcases List.mem_append.mp hr with hr | hr
          · exact h.homes r hr
          · rw [List.mem_singleton.mp hr]
        · rcases List.mem_append.mp hr' with hr' | hr'
          · exact .inl ⟨r', hr', rfl, rfl, rfl, fun hs => ⟨hs, rfl⟩⟩
          · rw [List.mem_singleton.mp hr']
            exact .inr ⟨Nat.le_refl _, fun hs => by cases hs⟩

/-- What a transaction marks, one home after another. -/
theorem Marks.Numbered.homes_list : ∀ (homes : List (MemberId × Option Home)) {t : Marks}, t.Numbered →
    (homes.foldl (fun t h => t.home h.1 h.2) t).Numbered ∧
      Grows t (homes.foldl (fun t h => t.home h.1 h.2) t)
  | [], _, h => ⟨h, .refl⟩
  | (member, home) :: homes, t, h => by
    obtain ⟨hfirst, hgrows⟩ := h.home member home
    obtain ⟨hrest, hgrows'⟩ := Marks.Numbered.homes_list homes hfirst
    exact ⟨hrest, hgrows.trans hgrows'⟩

/-! ## What a daemon has recorded -/

namespace Host

variable {h : Host} {r : MarkRow} {id workspace : String} {path : Option String}

/-- What is recorded of a workspace does not change how it is found. -/
theorem find_update {f : Checkout → Checkout} (hid : ∀ c, (f c).id = c.id)
    (hpath : ∀ c, (f c).path = c.path) :
    (h.updateCheckout id f).find workspace path = h.find workspace path := by
  have hid' : ∀ c : Checkout, (if c.id = id then f c else c).id = c.id := by
    intro c
    split
    · exact hid c
    · rfl
  have hpath' : ∀ c : Checkout, (if c.id = id then f c else c).path = c.path := by
    intro c
    split
    · exact hpath c
    · rfl
  have hany : ((h.updateCheckout id f).checkouts.any fun c => c.id = workspace) =
      h.checkouts.any fun c => c.id = workspace := by
    simp only [updateCheckout, List.any_map, Function.comp_def, hid']
  have hfilter : ∀ p, ((h.updateCheckout id f).checkouts.filter fun c => c.path = some p) =
      (h.checkouts.filter fun c => c.path = some p).map fun c => if c.id = id then f c else c := by
    intro p
    simp only [updateCheckout, List.filter_map, Function.comp_def, hpath']
  unfold find
  rw [hany]
  split
  · rfl
  · cases path with
    | none => rfl
    | some p =>
      simp only [hfilter]
      generalize (h.checkouts.filter fun c => c.path = some p) = hits
      rcases hits with _ | ⟨c, _ | ⟨c', rest⟩⟩
      · rfl
      · exact congrArg some (hid' c)
      · rfl

theorem find_record {kind : CheckoutKind} {member : MemberId} :
    (h.record id kind member).find workspace path = h.find workspace path := by
  unfold record
  exact find_update (fun _ => rfl) fun _ => rfl

theorem find_mem {ws : String} (hf : h.find workspace path = some ws) :
    ∃ c ∈ h.checkouts, c.id = ws := by
  unfold find at hf
  split at hf
  · rename_i hany
    obtain rfl := Option.some.inj hf
    obtain ⟨c, hc, hid⟩ := List.any_eq_true.mp hany
    exact ⟨c, hc, by simpa using hid⟩
  · split at hf
    · cases hf
    · split at hf
      · rename_i c heq
        have hc : c ∈ h.checkouts.filter _ := heq ▸ List.mem_singleton.mpr rfl
        exact ⟨c, List.mem_of_mem_filter hc, Option.some.inj hf⟩
      · cases hf

/-- A change that keeps kind and office of the workspace, where they are those of the mark. -/
theorem Records.update {f : Checkout → Checkout} (hid : ∀ c, (f c).id = c.id)
    (hpath : ∀ c, (f c).path = c.path)
    (hkeep : h.find r.workspace r.path = some id → ∀ c, c.kind = some r.kind.checkout →
      c.office = some r.member → (f c).kind = some r.kind.checkout ∧ (f c).office = some r.member)
    (hr : h.Records r) : (h.updateCheckout id f).Records r := by
  obtain ⟨ws, hfind, c, hc, hws, hkind, hoffice⟩ := hr
  refine ⟨ws, (find_update hid hpath).trans hfind, ?_⟩
  refine ⟨_, List.mem_map.mpr ⟨c, hc, rfl⟩, ?_⟩
  by_cases hcid : c.id = id
  · obtain ⟨hkind', hoffice'⟩ := hkeep (hfind.trans (congrArg some (hws.symm.trans hcid))) c hkind hoffice
    rw [if_pos hcid]
    exact ⟨(hid c).trans hws, hkind', hoffice'⟩
  · rw [if_neg hcid]
    exact ⟨hws, hkind, hoffice⟩

theorem Records.record {kind : CheckoutKind} {member : MemberId}
    (hsame : h.find r.workspace r.path = some id → kind = r.kind.checkout ∧ member = r.member)
    (hr : h.Records r) : (h.record id kind member).Records r := by
  refine hr.update (fun _ => rfl) (fun _ => rfl) fun hfind c _ _ => ?_
  obtain ⟨rfl, rfl⟩ := hsame hfind
  exact ⟨rfl, rfl⟩

theorem Records.claim {member : MemberId} (hr : h.Records r) : (h.claim id member).Records r := by
  refine hr.update (fun c => ?_) (fun c => ?_) fun _ c hkind hoffice => ?_
  · split <;> rfl
  · split <;> rfl
  · have hne : c.kind ≠ some .ephemeral := by
      rw [hkind]
      cases r.kind <;> simp [MarkKind.checkout]
    rw [if_neg hne]
    exact ⟨hkind, hoffice⟩

theorem Records.release (hhome : r.kind = .home) (hr : h.Records r) : (h.release id).Records r := by
  refine hr.update (fun c => ?_) (fun c => ?_) fun _ c hkind hoffice => ?_
  · split <;> rfl
  · split <;> rfl
  · have hne : ¬ (c.claimed = true ∧ c.kind = some .stream) := by
      rintro ⟨-, hstream⟩
      rw [hkind, hhome] at hstream
      cases hstream
    rw [if_neg hne]
    exact ⟨hkind, hoffice⟩

theorem record_records {kind : CheckoutKind} {member : MemberId}
    (hfind : h.find r.workspace r.path = some id) (hkind : kind = r.kind.checkout)
    (hmember : member = r.member) : (h.record id kind member).Records r := by
  obtain ⟨c, hc, rfl⟩ := find_mem hfind
  refine ⟨c.id, find_record.trans hfind, ?_⟩
  refine ⟨_, List.mem_map.mpr ⟨c, hc, rfl⟩, ?_⟩
  rw [if_pos rfl]
  exact ⟨rfl, congrArg some hkind, congrArg some hmember⟩

/-- The marks of a reply leave what is recorded of a mark, if they say the same of its workspace. -/
theorem Records.applyMarks : ∀ {ps : List Push} {h : Host}, h.Records r →
    (∀ p ∈ ps, h.find p.workspace p.path = h.find r.workspace r.path →
      p.kind = r.kind ∧ p.member = r.member) →
    (h.applyMarks ps).1.Records r
  | [], _, hr, _ => hr
  | p :: ps, h, hr, hsame => by
    rw [Host.applyMarks]
    have hfirst := hsame p List.mem_cons_self
    have hrest : ∀ q ∈ ps, h.find q.workspace q.path = h.find r.workspace r.path →
        q.kind = r.kind ∧ q.member = r.member := fun q hq => hsame q (List.mem_cons_of_mem _ hq)
    split
    · exact Records.applyMarks hr hrest
    · rename_i ws hfind
      refine Records.applyMarks (hr.record fun hws => ?_) fun q hq hws => ?_
      · obtain ⟨hkind, hmember⟩ := hfirst (hfind.trans hws.symm)
        exact ⟨congrArg MarkKind.checkout hkind, hmember⟩
      · rw [find_record, find_record] at hws
        exact hrest q hq hws

/-- A mark that is applied is recorded at the end, if the later ones say the same of its workspace. -/
theorem applyMarks_records : ∀ {ps : List Push} {h : Host}, r.id ∈ (h.applyMarks ps).2 →
    (∀ p ∈ ps, p.id = r.id → p.workspace = r.workspace ∧ p.path = r.path) →
    (∀ p ∈ ps, h.find p.workspace p.path = h.find r.workspace r.path →
      p.kind = r.kind ∧ p.member = r.member) →
    (h.applyMarks ps).1.Records r
  | [], _, hmem, _, _ => absurd hmem List.not_mem_nil
  | p :: ps, h, hmem, hid, hsame => by
    have hid' : ∀ q ∈ ps, q.id = r.id → q.workspace = r.workspace ∧ q.path = r.path :=
      fun q hq => hid q (List.mem_cons_of_mem _ hq)
    have hrest : ∀ q ∈ ps, h.find q.workspace q.path = h.find r.workspace r.path →
        q.kind = r.kind ∧ q.member = r.member := fun q hq => hsame q (List.mem_cons_of_mem _ hq)
    cases hfind : h.find p.workspace p.path with
    | none =>
      simp only [Host.applyMarks, hfind] at hmem ⊢
      exact applyMarks_records hmem hid' hrest
    | some ws =>
      simp only [Host.applyMarks, hfind] at hmem ⊢
      have hsame' : ∀ q ∈ ps, (h.record ws p.kind.checkout p.member).find q.workspace q.path =
          (h.record ws p.kind.checkout p.member).find r.workspace r.path →
          q.kind = r.kind ∧ q.member = r.member := by
        intro q hq hws
        rw [find_record, find_record] at hws
        exact hrest q hq hws
      rcases List.mem_cons.mp hmem with hp | hmem
      · obtain ⟨hws, hpath⟩ := hid p List.mem_cons_self hp.symm
        rw [hws, hpath] at hfind
        obtain ⟨hkind, hmember⟩ := hsame p List.mem_cons_self (by rw [hws, hpath])
        exact (record_records hfind (congrArg MarkKind.checkout hkind) hmember).applyMarks hsame'
      · exact applyMarks_records hmem hid' hsame'

theorem mem_applyMarks : ∀ {ps : List Push} {h : Host} {i : Nat}, i ∈ (h.applyMarks ps).2 →
    ∃ p ∈ ps, p.id = i ∧ h.find p.workspace p.path ≠ none
  | [], _, _, hmem => absurd hmem List.not_mem_nil
  | p :: ps, h, i, hmem => by
    cases hfind : h.find p.workspace p.path with
    | none =>
      simp only [Host.applyMarks, hfind] at hmem
      obtain ⟨q, hq, hid, hfound⟩ := mem_applyMarks hmem
      exact ⟨q, List.mem_cons_of_mem _ hq, hid, hfound⟩
    | some ws =>
      simp only [Host.applyMarks, hfind] at hmem
      rcases List.mem_cons.mp hmem with rfl | hmem
      · refine ⟨p, List.mem_cons_self, rfl, ?_⟩
        rw [hfind]
        exact Option.some_ne_none ws
      · obtain ⟨q, hq, hid, hfound⟩ := mem_applyMarks hmem
        rw [find_record] at hfound
        exact ⟨q, List.mem_cons_of_mem _ hq, hid, hfound⟩

end Host

end Org
