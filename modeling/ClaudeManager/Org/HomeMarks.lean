import Mathlib
import ClaudeManager.Org.Marks
import ClaudeManager.Org.AutoPlacement
import ClaudeManager.Program.Runs

/-!
# Homes and the daemons that have them

* `Fleet`, `Event` — the organization, its marks, the daemons, and the replies on their way
* `Trusted` — what the marks and the daemons agree on
* `GivesFree` — a member is given a checkout that is not another one's home
* `marks_converge` — the runs in which a mark is confirmed only where it is recorded
-/

namespace Org

open Relation Program

/-! ## Events -/

structure Fleet where
  store : Store
  marks : Marks
  host : String → Host
  /-- The replies that were sent. Any of them may come late, again, or never. -/
  replies : List Reply

inductive Event where
  /-- A transaction of the organization, with the homes it marks in turn. -/
  | org (o : Op) (homes : List (MemberId × Option Home))
  /-- A heartbeat; what it does to members and facts is a transaction of its own here. -/
  | beat (daemon : String) (capable : Bool)
  | receive (r : Reply)
  /-- The daemon's half of a promotion, after the reply that gives the home. -/
  | promoted (daemon workspace : String) (member : MemberId)
  /-- Sessions come and go; whether they let a checkout change is a choice. -/
  | claim (daemon workspace : String) (member : MemberId)
  | release (daemon workspace : String)
  | restart (daemon : String)

def markHomes (s : Store) (homes : List (MemberId × Option Home)) : Store :=
  homes.foldl (fun s h => s.homeMark h.1 h.2) s

namespace Fleet

variable (f : Fleet)

def updateHost (daemon : String) (g : Host → Host) : Fleet :=
  { f with host := fun d => if d = daemon then g (f.host d) else f.host d }

/-- What a heartbeat confirms is done before it is told what to mark. -/
def beat (daemon : String) (capable : Bool) : Fleet :=
  let acked := (f.host daemon).acks
  let marks := f.marks.confirm daemon acked
  if capable then
    { f with
      marks := marks.push daemon
      replies := f.replies ++ [⟨daemon, acked, marks.pushes daemon⟩] }
  else { f with marks := marks, replies := f.replies ++ [⟨daemon, acked, []⟩] }

def step : Event → Fleet
  | .org o homes =>
    match f.store.perform o with
    | .ok s' =>
      if s'.marks = (markHomes f.store homes).marks then
        { f with store := s', marks := homes.foldl (fun t h => t.home h.1 h.2) f.marks }
      else f
    | .error _ => f
  | .beat daemon capable => f.beat daemon capable
  | .receive r => if r ∈ f.replies then f.updateHost r.daemon fun h => h.receive r else f
  | .promoted daemon workspace member =>
    f.updateHost daemon fun h => h.record workspace .home member
  | .claim daemon workspace member => f.updateHost daemon fun h => h.claim workspace member
  | .release daemon workspace => f.updateHost daemon fun h => h.release workspace
  | .restart daemon => f.updateHost daemon Host.restart

/-- No marks yet: the daemons have their workspaces. -/
def start (checkouts : String → List Checkout) : Fleet :=
  ⟨seed, ⟨[], 0⟩, fun d => ⟨checkouts d, []⟩, []⟩

end Fleet

/-! ## Transactions are marks -/

theorem marks_homeMark {s s' : Store} (h : s.marks = s'.marks) (member : MemberId)
    (home : Option Home) : (s.homeMark member home).marks = (s'.homeMark member home).marks := by
  unfold Store.homeMark
  cases home with
  | none => exact h
  | some w =>
    simp only [h]
    split
    · exact h
    · split <;> rfl

theorem marks_markHomes : ∀ (homes : List (MemberId × Option Home)) {s s' : Store},
    s.marks = s'.marks → (markHomes s homes).marks = (markHomes s' homes).marks
  | [], _, _, h => h
  | (member, home) :: homes, _, _, h => marks_markHomes homes (marks_homeMark h member home)

/-- What a committed operation marks is a list of homes. -/
theorem edits_marks {s s' : Store} {live quiet : Bool} (he : Store.Edits live quiet s s') :
    ∃ homes, s'.marks = (markHomes s homes).marks := by
  induction he with
  | refl => exact ⟨[], rfl⟩
  | @tail s₁ s₂ _ hlast ih =>
    obtain ⟨homes, hmarks⟩ := ih
    cases hlast with
    | rest halike hrest hfacts =>
      rcases hrest with hrest | ⟨id, home, hrest⟩
      · exact ⟨homes, hrest.trans hmarks⟩
      · refine ⟨homes ++ [(id, home)], ?_⟩
        rw [hrest, markHomes, List.foldl_append]
        exact marks_homeMark hmarks id home
    | enroll hn => exact ⟨homes, hmarks⟩
    | manage hid hcheck => exact ⟨homes, hmarks⟩
    | teams hts => exact ⟨homes, hmarks⟩
    | retire hid hreports hled => exact ⟨homes, hmarks⟩
    | restore hst hup => exact ⟨homes, hmarks⟩
    | reseat hm hid hpid hquiet => exact ⟨homes, hmarks⟩
    | primary hm => exact ⟨homes, hmarks⟩
    | profile => exact ⟨homes, hmarks⟩

/-- Every committed operation is an event, with the homes it marks. -/
theorem perform_event {f : Fleet} (h : f.store.Sound) {o : Op} {s' : Store}
    (hp : f.store.perform o = .ok s') : ∃ homes, (f.step (.org o homes)).store = s' := by
  obtain ⟨homes, hmarks⟩ :=
    edits_marks (Store.perform_edits h (fun hlive => absurd hlive Bool.false_ne_true) hp)
  refine ⟨homes, ?_⟩
  simp only [Fleet.step, hp, if_pos hmarks]

/-! ## Confirmed marks -/

/-- What the marks and the daemons agree on. -/
structure Fleet.Trusted (f : Fleet) : Prop where
  sound : f.store.Sound
  numbered : f.marks.Numbered
  acks : ∀ d, ∀ i ∈ (f.host d).acks, i < f.marks.next
  replies : ∀ r ∈ f.replies, ∀ p ∈ r.marks, p.id < f.marks.next
  /-- A mark that is confirmed, or will be by the next heartbeat, is recorded. -/
  recorded : ∀ r ∈ f.marks.rows, r.state = .confirmed ∨ r.id ∈ (f.host r.daemon).acks →
    (f.host r.daemon).Records r

/-- A push that says what the mark says now. -/
def Fleet.Current (f : Fleet) (daemon : String) (p : Push) : Prop :=
  ∃ r ∈ f.marks.rows, r.id = p.id ∧ r.daemon = daemon ∧ r.workspace = p.workspace ∧ r.path = p.path ∧
    r.kind = p.kind ∧ r.member = p.member

/-- No other member has a home with the path of the checkout on the daemon. -/
def Store.PathFree (s : Store) (id : MemberId) (h : Home) : Prop :=
  ∀ m ∈ s.marks, m.home = true → m.daemon = h.daemon → m.path = h.path → h.path ≠ none →
    ∀ b, m.member = some b → b ≠ id → m.workspace = h.workspace

/-- What an event must not do. -/
def Event.Timely (f : Fleet) : Event → Prop
  | .org o homes =>
    -- a mark that is confirmed, or about to be, is not given to another member or workspace
    (∀ r ∈ f.marks.rows, ∀ r' ∈ (homes.foldl (fun t h => t.home h.1 h.2) f.marks).rows, r'.id = r.id →
      r.id ∈ (f.host r.daemon).acks ∨ r.state = .confirmed ∧ r'.member = r.member →
      r'.member = r.member ∧
        (f.host r.daemon).find r'.workspace r'.path = (f.host r.daemon).find r.workspace r.path) ∧
    -- a promotion into a checkout whose path is free
    match o with
    | .promote _ id pid _ _ _ _ _ => ∀ x g h, f.store.session pid = some x →
        f.store.fact pid = some g → homeOf x.daemon g = some h → f.store.PathFree id h
    | _ => True
  | .receive r => r ∈ f.replies → ∀ p ∈ r.marks, f.Current r.daemon p ∧
      ∀ row ∈ f.marks.rows, row.daemon = r.daemon → row.id ≠ p.id →
        (f.host r.daemon).find p.workspace p.path = (f.host r.daemon).find row.workspace row.path →
        (f.host r.daemon).find p.workspace p.path ≠ none → p.member = row.member
  | .promoted daemon workspace member => ∀ row ∈ f.marks.rows, row.daemon = daemon →
      row.state = .confirmed ∨ row.id ∈ (f.host daemon).acks →
      (f.host daemon).find row.workspace row.path = some workspace → row.member = member
  | _ => True

namespace Fleet

variable {f : Fleet}

theorem host_updateHost {daemon d : String} {g : Host → Host} :
    (f.updateHost daemon g).host d = if d = daemon then g (f.host d) else f.host d := rfl

/-- A change of one host that keeps its acks and what it has recorded. -/
theorem Trusted.updateHost (h : f.Trusted) {daemon : String} {g : Host → Host}
    (hacks : ∀ i ∈ (g (f.host daemon)).acks, i ∈ (f.host daemon).acks)
    (hrecords : ∀ r ∈ f.marks.rows, r.daemon = daemon → (r.state = .confirmed ∨ r.id ∈ (f.host daemon).acks) →
      (f.host daemon).Records r → (g (f.host daemon)).Records r) :
    (f.updateHost daemon g).Trusted := by
  refine ⟨h.sound, h.numbered, fun d i hi => ?_, h.replies, fun r hr hc => ?_⟩
  · rw [host_updateHost] at hi
    by_cases hd : d = daemon
    · subst hd
      rw [if_pos rfl] at hi
      exact h.acks d i (hacks i hi)
    · rw [if_neg hd] at hi
      exact h.acks d i hi
  · rw [host_updateHost] at hc ⊢
    by_cases hd : r.daemon = daemon
    · rw [if_pos hd] at hc ⊢
      rw [hd] at hc ⊢
      have hold : r.state = .confirmed ∨ r.id ∈ (f.host daemon).acks := hc.imp_right (hacks r.id)
      refine hrecords r hr hd hold ?_
      rw [← hd] at hold ⊢
      exact h.recorded r hr hold
    · rw [if_neg hd] at hc ⊢
      exact h.recorded r hr hc

theorem Trusted.org (h : f.Trusted) {o : Op} {homes : List (MemberId × Option Home)}
    (ht : (Event.org o homes).Timely f) : (f.step (.org o homes)).Trusted := by
  obtain ⟨hnumbered, hgrows⟩ := h.numbered.homes_list homes
  unfold step
  simp only
  cases hp : f.store.perform o with
  | error e => exact h
  | ok s' =>
    simp only
    split
    · have hsound : s'.Sound := h.sound.edits
        (Store.perform_edits h.sound (fun hlive => absurd hlive Bool.false_ne_true) hp)
      refine ⟨hsound, hnumbered, fun d i hi => (h.acks d i hi).trans_le hgrows.next,
        fun r hr p hp => (h.replies r hr p hp).trans_le hgrows.next, fun r' hr' hc => ?_⟩
      rcases hgrows.rows r' hr' with ⟨r, hr, hid, hdaemon, hws, hst⟩ | ⟨hnew, hst⟩
      · have hold : r.state = .confirmed ∧ r'.member = r.member ∨ r.id ∈ (f.host r.daemon).acks := by
          rcases hc with hc | hc
          · exact .inl (hst hc)
          · rw [hid, hdaemon] at hc
            exact .inr hc
        obtain ⟨hmember, hfind⟩ := ht.1 r hr r' hr' hid hold.symm
        obtain ⟨ws, hws', c, hcheck, hcid, hkind, hoffice⟩ :=
          h.recorded r hr (hold.imp_left And.left)
        have hhome : r'.kind = r.kind := (hnumbered.homes r' hr').trans (h.numbered.homes r hr).symm
        refine ⟨ws, ?_, c, ?_, hcid, ?_, ?_⟩
        · rw [hdaemon, hfind]
          exact hws'
        · rw [hdaemon]
          exact hcheck
        · rw [hhome]
          exact hkind
        · rw [hmember]
          exact hoffice
      · rcases hc with hc | hc
        · exact absurd hc hst
        · exact absurd (h.acks _ _ hc) (Nat.not_lt.mpr hnew)
    · exact h

/-- A heartbeat changes how far a mark has come, and confirms what its daemon names. -/
structure Beats (daemon : String) (acked : List Nat) (t t' : Marks) : Prop where
  next : t'.next = t.next
  rows : ∀ r' ∈ t'.rows, ∃ r ∈ t.rows, r'.id = r.id ∧ r'.daemon = r.daemon ∧
    r'.workspace = r.workspace ∧ r'.path = r.path ∧ r'.kind = r.kind ∧ r'.member = r.member ∧
    (r'.state = .confirmed → r.state = .confirmed ∨ r.daemon = daemon ∧ r.id ∈ acked)

theorem beats_confirm {t : Marks} {daemon : String} {acked : List Nat} :
    Beats daemon acked t (t.confirm daemon acked) := by
  refine ⟨rfl, fun r' hr' => ?_⟩
  obtain ⟨r, hr, rfl⟩ := List.mem_map.mp hr'
  refine ⟨r, hr, ?_⟩
  split
  · rename_i hc
    simp only [Bool.and_eq_true, decide_eq_true_eq, List.contains_iff_mem] at hc
    exact ⟨rfl, rfl, rfl, rfl, rfl, rfl, fun _ => .inr hc.1⟩
  · exact ⟨rfl, rfl, rfl, rfl, rfl, rfl, .inl⟩

theorem beats_push {t : Marks} {daemon : String} {acked : List Nat} :
    Beats daemon acked t (t.push daemon) := by
  refine ⟨rfl, fun r' hr' => ?_⟩
  obtain ⟨r, hr, rfl⟩ := List.mem_map.mp hr'
  refine ⟨r, hr, ?_⟩
  split
  · exact ⟨rfl, rfl, rfl, rfl, rfl, rfl, fun hs => by cases hs⟩
  · exact ⟨rfl, rfl, rfl, rfl, rfl, rfl, .inl⟩

theorem Beats.trans {daemon : String} {acked : List Nat} {t t' t'' : Marks}
    (h : Beats daemon acked t t') (h' : Beats daemon acked t' t'') : Beats daemon acked t t'' := by
  refine ⟨h'.next.trans h.next, fun r'' hr'' => ?_⟩
  obtain ⟨r', hr', hid', hdaemon', hws', hpath', hkind', hmember', hst'⟩ := h'.rows r'' hr''
  obtain ⟨r, hr, hid, hdaemon, hws, hpath, hkind, hmember, hst⟩ := h.rows r' hr'
  refine ⟨r, hr, hid'.trans hid, hdaemon'.trans hdaemon, hws'.trans hws, hpath'.trans hpath,
    hkind'.trans hkind, hmember'.trans hmember, fun hs => ?_⟩
  rcases hst' hs with hs | ⟨hd, ha⟩
  · exact hst hs
  · rw [hdaemon] at hd
    rw [hid] at ha
    exact .inr ⟨hd, ha⟩

theorem numbered_confirm {t : Marks} (h : t.Numbered) {daemon : String} {acked : List Nat} :
    (t.confirm daemon acked).Numbered := by
  refine h.map (fun r => ?_) fun r hr => ?_
  · split <;> rfl
  · split
    · exact hr
    · exact hr

theorem numbered_push {t : Marks} (h : t.Numbered) {daemon : String} : (t.push daemon).Numbered := by
  refine h.map (fun r => ?_) fun r hr => ?_
  · split <;> rfl
  · split
    · exact hr
    · exact hr

theorem records_congr {h : Host} {r r' : MarkRow} (hws : r'.workspace = r.workspace)
    (hpath : r'.path = r.path) (hkind : r'.kind = r.kind) (hmember : r'.member = r.member)
    (hr : h.Records r) : h.Records r' := by
  unfold Host.Records
  rw [hws, hpath, hkind, hmember]
  exact hr

/-- What is confirmed was recorded already. -/
theorem Trusted.beats (h : f.Trusted) {daemon : String} {t : Marks} {replies : List Reply}
    (hb : Beats daemon (f.host daemon).acks f.marks t) (ht : t.Numbered)
    (hreplies : ∀ r ∈ replies, ∀ p ∈ r.marks, p.id < t.next) :
    ({ f with marks := t, replies := replies } : Fleet).Trusted := by
  refine ⟨h.sound, ht, fun d i hi => ?_, hreplies, fun r' hr' hc => ?_⟩
  · rw [hb.next]
    exact h.acks d i hi
  · obtain ⟨r, hr, hid, hdaemon, hws, hpath, hkind, hmember, hst⟩ := hb.rows r' hr'
    rw [hdaemon]
    refine records_congr hws hpath hkind hmember (h.recorded r hr ?_)
    rcases hc with hc | hc
    · rcases hst hc with hs | ⟨rfl, ha⟩
      · exact .inl hs
      · exact .inr ha
    · rw [hdaemon, hid] at hc
      exact .inr hc

theorem Trusted.beat (h : f.Trusted) (daemon : String) (capable : Bool) :
    (f.beat daemon capable).Trusted := by
  have hconfirm : Beats daemon (f.host daemon).acks f.marks
      (f.marks.confirm daemon (f.host daemon).acks) := beats_confirm
  have hnumbered : (f.marks.confirm daemon (f.host daemon).acks).Numbered := numbered_confirm h.numbered
  unfold Fleet.beat
  simp only
  split
  · refine h.beats (hconfirm.trans beats_push) (numbered_push hnumbered) fun r hr p hp => ?_
    rcases List.mem_append.mp hr with hr | hr
    · exact h.replies r hr p hp
    · obtain rfl := List.mem_singleton.mp hr
      obtain ⟨row, hrow, rfl⟩ := List.mem_map.mp hp
      exact hnumbered.fresh row (List.mem_of_mem_filter hrow)
  · refine h.beats hconfirm hnumbered fun r hr p hp => ?_
    rcases List.mem_append.mp hr with hr | hr
    · exact h.replies r hr p hp
    · obtain rfl := List.mem_singleton.mp hr
      cases hp

theorem Trusted.receive (h : f.Trusted) {r : Reply} (hr : r ∈ f.replies)
    (ht : ∀ p ∈ r.marks, f.Current r.daemon p ∧
      ∀ row ∈ f.marks.rows, row.daemon = r.daemon → row.id ≠ p.id →
        (f.host r.daemon).find p.workspace p.path = (f.host r.daemon).find row.workspace row.path →
        (f.host r.daemon).find p.workspace p.path ≠ none → p.member = row.member) :
    (f.updateHost r.daemon fun h => h.receive r).Trusted := by
  -- the marks of the reply say what the mark of a row says, where they name its workspace
  have hsame : ∀ row ∈ f.marks.rows, row.daemon = r.daemon →
      (f.host r.daemon).find row.workspace row.path ≠ none → ∀ p ∈ r.marks,
      (f.host r.daemon).find p.workspace p.path = (f.host r.daemon).find row.workspace row.path →
      p.kind = row.kind ∧ p.member = row.member := by
    intro row hrow hdaemon hfound p hp hfind
    obtain ⟨⟨cur, hcur, hid, -, -, -, hkind, hmember⟩, hother⟩ := ht p hp
    by_cases hpid : row.id = p.id
    · have heq : cur = row := List.inj_on_of_nodup_map h.numbered.ids hcur hrow (hid.trans hpid.symm)
      rw [← heq]
      exact ⟨hkind.symm, hmember.symm⟩
    · refine ⟨?_, hother row hrow hdaemon hpid hfind (hfind ▸ hfound)⟩
      rw [← hkind, h.numbered.homes cur hcur, h.numbered.homes row hrow]
  refine ⟨h.sound, h.numbered, fun d i hi => ?_, h.replies, fun row hrow hc => ?_⟩
  · rw [host_updateHost] at hi
    by_cases hd : d = r.daemon
    · rw [if_pos hd] at hi
      rcases List.mem_append.mp hi with hi | hi
      · exact h.acks d i (List.mem_of_mem_filter hi)
      · obtain ⟨p, hp, rfl, -⟩ := Host.mem_applyMarks hi
        exact h.replies r hr p hp
    · rw [if_neg hd] at hi
      exact h.acks d i hi
  · rw [host_updateHost] at hc ⊢
    by_cases hd : row.daemon = r.daemon
    · rw [if_pos hd] at hc ⊢
      rw [hd] at hc ⊢
      have hold : (row.state = .confirmed ∨ row.id ∈ (f.host r.daemon).acks) ∨
          row.id ∈ ((f.host r.daemon).applyMarks r.marks).2 := by
        rcases hc with hc | hc
        · exact .inl (.inl hc)
        · rcases List.mem_append.mp hc with hc | hc
          · exact .inl (.inr (List.mem_of_mem_filter hc))
          · exact .inr hc
      rcases hold with hold | happlied
      · have hrecords : (f.host r.daemon).Records row := by
          rw [← hd] at hold ⊢
          exact h.recorded row hrow hold
        have hfound : (f.host r.daemon).find row.workspace row.path ≠ none := by
          obtain ⟨ws, hws, -⟩ := hrecords
          rw [hws]
          exact Option.some_ne_none ws
        exact Host.Records.applyMarks (r := row) hrecords (hsame row hrow hd hfound)
      · have hid : ∀ p ∈ r.marks, p.id = row.id → p.workspace = row.workspace ∧ p.path = row.path := by
          intro p hp hpid
          obtain ⟨⟨cur, hcur, hid, -, hws, hpath, -, -⟩, -⟩ := ht p hp
          have heq : cur = row := List.inj_on_of_nodup_map h.numbered.ids hcur hrow (hid.trans hpid)
          rw [← heq]
          exact ⟨hws.symm, hpath.symm⟩
        have hfound : (f.host r.daemon).find row.workspace row.path ≠ none := by
          obtain ⟨p, hp, hpid, hfound⟩ := Host.mem_applyMarks happlied
          obtain ⟨hws, hpath⟩ := hid p hp hpid
          rw [← hws, ← hpath]
          exact hfound
        exact Host.applyMarks_records happlied hid (hsame row hrow hd hfound)
    · rw [if_neg hd] at hc ⊢
      exact h.recorded row hrow hc

theorem Trusted.step (h : f.Trusted) {e : Event} (ht : e.Timely f) : (f.step e).Trusted := by
  cases e with
  | org o homes => exact h.org ht
  | beat daemon capable => exact h.beat daemon capable
  | receive r =>
    unfold Fleet.step
    simp only
    split
    · rename_i hr
      exact h.receive hr (ht hr)
    · exact h
  | promoted daemon workspace member =>
    refine Trusted.updateHost (g := fun h => h.record workspace .home member) h (fun _ hi => hi)
      fun r hr hd hc hrecords => hrecords.record fun hfind => ?_
    have hmember : r.member = member := ht r hr hd hc hfind
    rw [h.numbered.homes r hr]
    exact ⟨rfl, hmember.symm⟩
  | claim daemon workspace member =>
    exact Trusted.updateHost (g := fun h => h.claim workspace member) h (fun _ hi => hi)
      fun r _ _ _ hrecords => hrecords.claim
  | release daemon workspace =>
    exact Trusted.updateHost (g := fun h => h.release workspace) h (fun _ hi => hi)
      fun r hr _ _ hrecords => hrecords.release (h.numbered.homes r hr)
  | restart daemon =>
    exact Trusted.updateHost (g := Host.restart) h (fun _ hi => by cases hi)
      fun r _ _ _ hrecords => hrecords

theorem trusted_start (checkouts : String → List Checkout) : (start checkouts).Trusted := by
  refine ⟨Store.sound_seed, ⟨List.nodup_nil, fun r hr => ?_, fun r hr => ?_⟩, fun d i hi => ?_,
    fun r hr => ?_, fun r hr => ?_⟩
  · cases hr
  · cases hr
  · cases hi
  · cases hr
  · cases hr

theorem rows_homes : ∀ (homes : List (MemberId × Option Home)) {s : Store} {t : Marks},
    t.rows.map MarkRow.mark = s.marks →
    (homes.foldl (fun t h => t.home h.1 h.2) t).rows.map MarkRow.mark = (markHomes s homes).marks
  | [], _, _, h => h
  | (member, home) :: homes, _, _, h => rows_homes homes (Marks.home_marks h member home)

/-- The marks of the daemons are those that the organization reads. -/
theorem rows_step (h : f.marks.rows.map MarkRow.mark = f.store.marks) (e : Event) :
    (f.step e).marks.rows.map MarkRow.mark = (f.step e).store.marks := by
  have hstate : ∀ {g : MarkRow → MarkRow} {t : Marks}, (∀ r, (g r).mark = r.mark) →
      t.rows.map MarkRow.mark = f.store.marks → (t.rows.map g).map MarkRow.mark = f.store.marks := by
    intro g t hg ht
    rw [List.map_map, ← ht]
    exact List.map_congr_left fun r _ => hg r
  cases e with
  | org o homes =>
    unfold Fleet.step
    simp only
    split
    · split
      · rename_i hmarks
        exact (rows_homes homes h).trans hmarks.symm
      · exact h
    · exact h
  | beat daemon capable =>
    have hconfirm : (f.marks.confirm daemon (f.host daemon).acks).rows.map MarkRow.mark =
        f.store.marks := by
      refine hstate (fun r => ?_) h
      split <;> rfl
    unfold Fleet.step Fleet.beat
    simp only
    split
    · refine hstate (fun r => ?_) hconfirm
      split <;> rfl
    · exact hconfirm
  | receive r =>
    unfold Fleet.step
    simp only
    split <;> exact h
  | promoted daemon workspace member => exact h
  | claim daemon workspace member => exact h
  | release daemon workspace => exact h
  | restart daemon => exact h

end Fleet

/-! ## Checkouts that are given -/

namespace Store

variable {s s' s'' : Store} {id : MemberId}

/-- The checkout is the home of another member: the same workspace, or one with its path. -/
def Taken (s : Store) (id : MemberId) (h : Home) : Prop :=
  ∃ m ∈ s.marks, m.home = true ∧ (∃ b, m.member = some b ∧ b ≠ id) ∧ m.daemon = h.daemon ∧
    (m.workspace = h.workspace ∨ m.path = h.path ∧ h.path ≠ none)

/-- No mark changes, or a member is given a checkout that is not another member's home. -/
def GivesFree (s s' : Store) : Prop :=
  s'.marks = s.marks ∨ ∃ id h, ¬ s.Taken id h ∧ s'.marks = (s.homeMark id (some h)).marks

/-- A promotion looks at the mark of the workspace only; of its path nothing is known. -/
theorem promoteHome_free (hs : s.Marked) {f : Fact} {daemon : String} {boss : MemberId}
    {refused : Bool} {h : Home} (hgive : s.promoteHome f daemon boss refused = some h)
    (hpath : ∀ h, homeOf daemon f = some h → s.PathFree id h) : ¬ s.Taken id h := by
  unfold promoteHome at hgive
  cases hhome : homeOf daemon f with
  | none =>
    simp only [hhome] at hgive
    cases hgive
  | some h₀ =>
    simp only [hhome] at hgive
    split at hgive
    · cases hgive
    · split at hgive
      · cases hgive
      · rename_i hmark
        split at hgive
        · cases hgive
        · obtain rfl := Option.some.inj hgive
          rintro ⟨m, hm, hishome, ⟨b, hb, hne⟩, hdaemon, hplace⟩
          have hws : m.workspace = h₀.workspace := by
            rcases hplace with hws | ⟨hp, hsome⟩
            · exact hws
            · exact hpath h₀ hhome m hm hishome hdaemon hp hsome b hb hne
          refine hmark ?_
          cases hfind : s.marks.find? fun m => m.daemon = h₀.daemon && m.workspace = h₀.workspace with
          | none =>
            have hnot := List.find?_eq_none.mp hfind m hm
            simp [hdaemon, hws] at hnot
          | some m' =>
            have hkey := List.find?_some hfind
            simp only [Bool.and_eq_true, decide_eq_true_eq] at hkey
            have heq : m' = m := List.inj_on_of_nodup_map hs (List.mem_of_find?_eq_some hfind) hm
              (Prod.ext (hkey.1.trans hdaemon.symm) (hkey.2.trans hws.symm))
            simp [heq, hishome]

theorem autoPlaceHome_free {f : Fact} {daemon : String} {h : Home}
    (hgive : s.autoPlaceHome f daemon = some h) : ¬ s.Taken id h := by
  unfold autoPlaceHome at hgive
  cases hhome : homeOf daemon f with
  | none =>
    simp only [hhome] at hgive
    cases hgive
  | some h₀ =>
    simp only [hhome] at hgive
    split at hgive
    · cases hgive
    · rename_i hmark
      split at hgive
      · cases hgive
      · rename_i hpath
        split at hgive
        · cases hgive
        · obtain rfl := Option.some.inj hgive
          rintro ⟨m, hm, hishome, ⟨b, hb, -⟩, hdaemon, hws | ⟨hp, hsome⟩⟩
          · exact hmark (List.any_eq_true.mpr ⟨m, hm, by simp [hdaemon, hws, hishome]⟩)
          · refine hpath ?_
            rw [Bool.and_eq_true]
            refine ⟨Option.ne_none_iff_isSome.mp hsome, List.any_eq_true.mpr ⟨m, hm, ?_⟩⟩
            simp [hdaemon, hp, hb]

theorem givesFree_createUnder {manager : Option MemberId} {n : NewMember}
    (hfree : ∀ h, n.home = some h → ¬ s.Taken n.id h) (hp : s.createUnder manager n = .ok s') :
    s.GivesFree s' := by
  obtain ⟨up, -, -, rfl⟩ := createUnder_ok hp
  have hsame : (s.enroll n up).marks = s.marks := rfl
  cases hhome : n.home with
  | none => exact .inl rfl
  | some h => exact .inr ⟨n.id, h, hfree h hhome, marks_homeMark hsame n.id (some h)⟩

theorem givesFree_promote (hs : s.Sound) {actor : Pid} {pid : Pid} {handle title : String}
    {team : Option TeamId} {manager : Option String} {refused : Bool}
    (hpath : ∀ x g h, s.session pid = some x → s.fact pid = some g → homeOf x.daemon g = some h →
      s.PathFree id h)
    (hp : s.promote actor id pid handle title team manager refused = .ok s') : s.GivesFree s' := by
  obtain ⟨x, g, boss, acting, up, given, s₁, hx, -, hg, -, -, -, -, -, hcreate, rfl⟩ := promote_ok hp
  have hgives : s.GivesFree s₁ := givesFree_createUnder (fun h hgive =>
    promoteHome_free hs.marked hgive fun h hhome => hpath x g h hx hg hhome) hcreate
  exact hgives

theorem gives_place {newId : Pid → MemberId} : ∀ {xs : List Session} {taken : List String}
    {s s' : Store}, place newId s taken xs = .ok s' → ReflTransGen GivesFree s s'
  | [], _, s, s', hp => by
    obtain rfl := Except.ok.inj hp
    exact .refl
  | x :: xs, taken, s, s', hp => by
    rw [place] at hp
    split at hp
    · cases hp
    · simp only at hp
      split at hp
      · cases hp
      · rename_i s₁ hcreate
        have hfirst := givesFree_createUnder (fun h hgive => by
          obtain ⟨g, -, hg⟩ := Option.bind_eq_some_iff.mp hgive
          exact autoPlaceHome_free hg) hcreate
        have hstamp : ∀ f : Fact → Fact, s₁.GivesFree (s₁.updateFact x.pid f) := fun _ => .inl rfl
        exact ((ReflTransGen.single hfirst).tail (hstamp _)).trans (gives_place hp)

theorem marks_reports {daemon : String} (facts : List Fact) :
    (facts.foldl (fun s f => s.reportFact daemon f) s).marks = s.marks := by
  induction facts generalizing s with
  | nil => rfl
  | cons f facts ih =>
    refine ih.trans ?_
    unfold reportFact
    simp only
    split <;> rfl

theorem gives_heartbeat {newId : Pid → MemberId} {daemon : String} {facts : List Fact}
    {marked : Bool} {old : List Pid} (hp : s.heartbeat newId daemon facts marked old = .ok s') :
    ReflTransGen GivesFree s s' := by
  unfold heartbeat at hp
  simp only at hp
  have hreports : s.GivesFree ((facts.filter fun f => f.pid.startsWith ("agent:" ++ daemon ++ ":")).foldl
      (fun s f => s.reportFact daemon f) s) := .inl (marks_reports _)
  split at hp
  · obtain ⟨s₁, hplace, hp⟩ := except_bind_ok.mp hp
    obtain rfl := except_pure_ok.mp hp
    exact ((ReflTransGen.single hreports).trans (gives_place hplace)).tail (.inl rfl)
  · obtain ⟨s₁, hsame, hp⟩ := except_bind_ok.mp hp
    obtain rfl := Except.ok.inj hsame
    obtain rfl := except_pure_ok.mp hp
    exact (ReflTransGen.single hreports).tail (.inl rfl)

end Store

/-! ## Runs -/

/-- A promotion, or the beat that seats sessions. -/
def Op.Places : Op → Prop
  | .promote .. => True
  | .heartbeat .. => True
  | _ => False

/-- A mark is confirmed only where its daemon has recorded it, and members that are promoted or
placed are given checkouts that are nobody else's home. -/
structure Converges (checkouts : String → List Checkout) (events : List Event) : Prop where
  confirmed : ∀ before after, events = before ++ after →
    ∀ r ∈ (before.foldl Fleet.step (Fleet.start checkouts)).marks.rows, r.state = .confirmed →
      ((before.foldl Fleet.step (Fleet.start checkouts)).host r.daemon).Records r
  given : ∀ before o homes after s', events = before ++ .org o homes :: after → o.Places →
    (before.foldl Fleet.step (Fleet.start checkouts)).store.perform o = .ok s' →
    ReflTransGen Store.GivesFree (before.foldl Fleet.step (Fleet.start checkouts)).store s'

/-- In a run of timely events, home marks converge. -/
theorem marks_converge {checkouts : String → List Checkout} {events : List Event}
    (h : Meets Fleet.step (fun f e => e.Timely f) (Fleet.start checkouts) events) :
    Converges checkouts events := by
  have htrusted : ∀ before after, events = before ++ after →
      (before.foldl Fleet.step (Fleet.start checkouts)).Trusted := by
    rintro before after rfl
    exact Meets.invariant (I := Fleet.Trusted) (fun _ _ hf he => hf.step he)
      (Fleet.trusted_start checkouts) (Meets.of_append h).1
  refine ⟨fun before after heq r hr hs => (htrusted before after heq).recorded r hr (.inl hs), ?_⟩
  intro before o homes after s' heq hplaces hp
  have hf := htrusted before (.org o homes :: after) heq
  subst heq
  have htimely := (Meets.of_append h).2.1
  cases o with
  | promote actor id pid handle title team manager refused =>
    exact .single (Store.givesFree_promote hf.sound htimely.2 hp)
  | heartbeat newId daemon facts marked old => exact Store.gives_heartbeat hp
  | _ => exact absurd hplaces id

/-- One daemon with one workspace. -/
def hostW (d : String) : List Checkout := if d = "d" then [⟨"w", some "/w", none, none, false⟩] else []

/-- A member is adopted with the workspace as its home; the daemon is told, and has recorded it. -/
def homed : List Event := [
  .org (.sessions [⟨"agent:d:1", "d", "1", none, some "claude", true⟩,
    ⟨"agent:d:2", "d", "2", none, some "claude", true⟩]) [],
  .org (.adopt ownerPid "mem_1" "agent:d:1" "ada" "" .agent none none (some ⟨"d", "w", some "/w"⟩))
    [("mem_1", some ⟨"d", "w", some "/w"⟩)],
  .beat "d" true,
  .receive ⟨"d", [], [⟨0, "w", some "/w", .home, "mem_1"⟩]⟩]

theorem marks_converge_homed : Converges hostW (homed ++ [.beat "d" true]) := by
  refine marks_converge ⟨⟨?_, trivial⟩, ⟨?_, trivial⟩, trivial, ?_, trivial, trivial⟩
  · intro r hr
    cases hr
  · intro r hr
    cases hr
  · intro _ p hp
    obtain rfl := List.mem_singleton.mp hp
    have hrows : ((homed.take 3).foldl Fleet.step (Fleet.start hostW)).marks.rows =
        [⟨0, "d", "w", some "/w", .home, "mem_1", .pushed, 1⟩] := by decide +kernel
    refine ⟨⟨_, hrows ▸ List.mem_singleton.mpr rfl, rfl, rfl, rfl, rfl, rfl, rfl⟩, ?_⟩
    intro row hrow _ hne
    obtain rfl := List.mem_singleton.mp (hrows ▸ hrow : row ∈ [_])
    exact absurd rfl hne

/-- Another member takes the workspace before the daemon's next heartbeat, which names the mark. -/
def retaken : List Event := homed ++ [
  .org (.adopt ownerPid "mem_2" "agent:d:2" "bob" "" .agent none none (some ⟨"d", "w", some "/w"⟩))
    [("mem_2", some ⟨"d", "w", some "/w"⟩)],
  .beat "d" true]

/-- The mark of the second member is confirmed, where the first one is recorded. -/
theorem retaken_home_confirmed : ¬ Converges hostW retaken := by
  intro h
  have hrow : ⟨0, "d", "w", some "/w", .home, "mem_2", .confirmed, 0⟩ ∈
      (retaken.foldl Fleet.step (Fleet.start hostW)).marks.rows := by decide +kernel
  have hhost : ((retaken.foldl Fleet.step (Fleet.start hostW)).host "d").checkouts =
      [⟨"w", some "/w", some .home, some "mem_1", false⟩] := by decide +kernel
  obtain ⟨id, -, c, hc, -, -, hoffice⟩ := h.confirmed retaken [] (List.append_nil _).symm _ hrow rfl
  obtain rfl := List.mem_singleton.mp (hhost ▸ hc : c ∈ [_])
  simp at hoffice

end Org
