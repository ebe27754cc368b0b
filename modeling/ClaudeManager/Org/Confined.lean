import Mathlib
import ClaudeManager.Org.Authority

/-!
# What an operation changes of the organization

* `Confined` — everything that changed belongs to a subtree, or to teams led from it
* `confined_move`, `confined_retire`, … — one operation each
-/

namespace Org

open Relation Program

namespace Store

variable {s s' : Store} {id x a : MemberId} {pid : Pid}

/-! ## What belongs to a subtree -/

/-- The member whose main session it is, or for which its daemon runs it. -/
def memberOf (s : Store) (pid : Pid) : Option MemberId :=
  ((s.incarnations.find? fun i => i.pid = pid && i.role = .main && i.open_).map Incarnation.member)
    <|> (s.fact pid).bind Fact.member

/-- The member is in the subtree, or comes into it as a new one. -/
def Mine (s s' : Store) (a x : MemberId) : Prop := s.Under a x ∨ s.member x = none ∧ s'.Under a x

/-- The team is led from the subtree. -/
def OwnTeam (s s' : Store) (a : MemberId) (team : TeamId) : Prop :=
  ∃ t lead, s.team team = some t ∧ t.lead = some lead ∧ s.Mine s' a lead

/-- Everything that changed belongs to the subtree of `a` or to teams led from it, and nobody left
the subtree. -/
structure Confined (s s' : Store) (a : MemberId) : Prop where
  members : ∀ x, s'.member x ≠ s.member x → s.Mine s' a x
  names : ∀ n, (n ∈ s.aliases → n ∈ s'.aliases) ∧ (n ∈ s'.aliases → n ∈ s.aliases ∨ s.Mine s' a n.2)
  seats : ∀ i : Incarnation, ¬ (i ∈ s'.incarnations ↔ i ∈ s.incarnations) → s.Mine s' a i.member
  teams : ∀ team, s'.team team ≠ s.team team → s.OwnTeam s' a team
  memberships : ∀ r : Membership, ¬ (r ∈ s'.memberships ↔ r ∈ s.memberships) → s.Mine s' a r.member
  joined : ∀ r ∈ s'.memberships, r.open_ = true → r ∉ s.memberships → s.OwnTeam s' a r.team
  facts : ∀ pid, s'.fact pid ≠ s.fact pid → ∀ x, s.memberOf pid = some x → s.Mine s' a x
  marks : ∀ m : Mark, ¬ (m ∈ s'.marks ↔ m ∈ s.marks) → ∀ x, m.member = some x → s.Mine s' a x
  lost : ∀ h ∈ s.holds, h ∉ s'.holds → ∀ x, s.memberOf h.pid = some x → s.Mine s' a x
  gained : ∀ h ∈ s'.holds, h ∉ s.holds → ∀ x, s'.memberOf h.pid = some x → s.Mine s' a x
  retirements : ∀ r ∈ s'.retirements, r ∈ s.retirements ∨ s.Mine s' a r.member
  rest : s'.continuous = s.continuous ∧ s'.tasks = s.tasks ∧ s'.sessions = s.sessions
  subtree : ∀ x, s.Under a x → s'.Under a x

/-! ## Sessions of a member -/

theorem memberOf_seat (h : s.Seated) {i : Incarnation} (hi : i ∈ s.incarnations)
    (hrole : i.role = .main) (hopen : i.open_ = true) : s.memberOf i.pid = some i.member := by
  unfold memberOf
  cases hfind : s.incarnations.find? fun j => j.pid = i.pid && j.role = .main && j.open_ with
  | none =>
    have hno := List.find?_eq_none.mp hfind i hi
    exact absurd (by simp [hrole, hopen]) hno
  | some j =>
    have hj := List.find?_some hfind
    simp only [Bool.and_eq_true, decide_eq_true_eq] at hj
    rw [seat_unique h (List.mem_of_find?_eq_some hfind) hi hj.1.1 hj.2 hopen, Option.map_some]
    rfl

theorem memberOf_main (h : s.Seated) {i : Incarnation} (hi : s.main id = some i) :
    s.memberOf i.pid = some id := by
  have hc := List.find?_some hi
  simp only [Bool.and_eq_true, decide_eq_true_eq] at hc
  rw [memberOf_seat h (List.mem_of_find?_eq_some hi) hc.1.2 hc.2, hc.1.1]

/-- A session without a main seat is whose it was started for. -/
theorem memberOf_fact
    (h : (s.incarnations.any fun i => i.pid = pid && i.role = .main && i.open_) = false) :
    s.memberOf pid = (s.fact pid).bind Fact.member := by
  have hnone : (s.incarnations.find? fun i => i.pid = pid && i.role = .main && i.open_) = none := by
    rw [List.find?_eq_none]
    intro i hi hc
    have hany : (s.incarnations.any fun i => i.pid = pid && i.role = .main && i.open_) = true :=
      List.any_eq_true.mpr ⟨i, hi, hc⟩
    rw [h] at hany
    cases hany
  unfold memberOf
  rw [hnone]
  rfl

theorem no_main_of_seated (h : s.seated pid = false) :
    (s.incarnations.any fun i => i.pid = pid && i.role = .main && i.open_) = false := by
  rw [List.any_eq_false]
  intro i hi hc
  simp only [Bool.and_eq_true, decide_eq_true_eq] at hc
  have hany : s.seated pid = true :=
    List.any_eq_true.mpr ⟨i, hi, by simp [hc.1.1, hc.2]⟩
  rw [h] at hany
  cases hany

/-! ## Holds and facts -/

theorem lost_handBack {source : Pid} {target : Option Pid} {refused : Hold → Bool} {g : Hold}
    (hg : g ∈ s.holds) (hnot : g ∉ (s.handBack source target refused).holds) :
    g.pid = source ∨ some g.pid = target := by
  cases target with
  | none => exact absurd hg hnot
  | some target =>
    by_contra hc
    rw [not_or] at hc
    refine hnot (List.mem_append_left _ (List.mem_map.mpr ⟨g, List.mem_filter.mpr ⟨hg, ?_⟩, ?_⟩))
    · simp [hc.1]
    · rw [if_neg]
      intro hrole
      simp only [Bool.and_eq_true, decide_eq_true_eq] at hrole
      exact hc.2 (congrArg some hrole.1)

theorem gained_handBack {source : Pid} {target : Option Pid} {refused : Hold → Bool} {g : Hold}
    (hg : g ∈ (s.handBack source target refused).holds) (hnot : g ∉ s.holds) :
    some g.pid = target := by
  cases target with
  | none => exact absurd hg hnot
  | some target =>
    rcases List.mem_append.mp hg with hg | hg
    · obtain ⟨h₀, hh₀, rfl⟩ := List.mem_map.mp hg
      have hold := (List.mem_filter.mp hh₀).1
      split at hnot
      · rename_i hc
        simp only [Bool.and_eq_true, decide_eq_true_eq] at hc
        rw [if_pos (by simpa using hc)]
        exact congrArg some hc.1
      · exact absurd hold hnot
    · obtain ⟨h₀, -, rfl⟩ := List.mem_map.mp hg
      rfl

/-- Only holds of the two sessions change. -/
theorem handBack_spec (source : Pid) (target : Option Pid) (refused : Hold → Bool) :
    ∃ hs, s.handBack source target refused = { s with holds := hs } ∧
      (∀ g ∈ s.holds, g ∉ hs → g.pid = source ∨ some g.pid = target) ∧
      ∀ g ∈ hs, g ∉ s.holds → some g.pid = target := by
  refine ⟨(s.handBack source target refused).holds, ?_, fun _ => lost_handBack,
    fun _ => gained_handBack⟩
  cases target <;> rfl

theorem changed_update {f : Member → Member} (h : (s.update id f).member x ≠ s.member x)
    (hf : ∀ m, (f m).id = m.id) : x = id := by
  by_contra hne
  rw [member_update hf, if_neg hne] at h
  exact h rfl

theorem changed_updateFact {f : Fact → Fact} {p : Pid}
    (h : (s.updateFact pid f).fact p ≠ s.fact p) (hf : ∀ g, (f g).pid = g.pid) : p = pid := by
  by_contra hne
  rw [fact_updateFact hf, if_neg hne] at h
  exact h rfl

theorem under_of_manager (h : s'.manager = s.manager) : s'.Under = s.Under := by
  funext a x
  unfold Under
  rw [h]

/-! ## Operations -/

theorem confined_profile {title mandate : Option String} (hid : s.Under a id) :
    s.Confined (s.update id fun m =>
      { m with title := title.getD m.title, mandate := mandate.getD m.mandate }) a := by
  have hmanager : (s.update id fun m =>
      { m with title := title.getD m.title, mandate := mandate.getD m.mandate }).manager =
        s.manager := manager_update (fun _ => rfl) fun _ => rfl
  refine ⟨fun x hx => ?_, fun n => ⟨fun h => h, .inl⟩, fun i hi => absurd Iff.rfl hi,
    fun t ht => absurd rfl ht, fun r hr => absurd Iff.rfl hr, fun r hr _ hn => absurd hr hn,
    fun p hp => absurd rfl hp, fun m hm => absurd Iff.rfl hm, fun g hg hn => absurd hg hn,
    fun g hg hn => absurd hg hn, fun r hr => .inl hr, ⟨rfl, rfl, rfl⟩, fun x hx => ?_⟩
  · obtain rfl := changed_update hx fun _ => rfl
    exact .inl hid
  · rw [under_of_manager hmanager]
    exact hx

theorem confined_close (h : s.Sound) {refused : Hold → Bool}
    (hmain : (s.incarnations.any fun i => i.pid = pid && i.role = .main && i.open_) = false)
    {f : Fact} (hf : s.fact pid = some f) (hmember : f.member = some id) (hid : s.Under a id) :
    s.Confined ((s.handBack pid ((s.main id).map Incarnation.pid) refused).updateFact pid
      fun f => { f with actingAs := some .closed }) a := by
  obtain ⟨hs, heq, hlost, hgained⟩ :=
    handBack_spec (s := s) pid ((s.main id).map Incarnation.pid) refused
  rw [heq]
  have hself : s.memberOf pid = some id := by
    rw [memberOf_fact hmain, hf]
    exact hmember
  have htarget : ∀ p, some p = (s.main id).map Incarnation.pid → s.memberOf p = some id := by
    intro p hp
    obtain ⟨i, hi, rfl⟩ := Option.map_eq_some_iff.mp hp.symm
    exact memberOf_main h.seated hi
  refine ⟨fun x hx => absurd rfl hx, fun n => ⟨fun h => h, .inl⟩, fun i hi => absurd Iff.rfl hi,
    fun t ht => absurd rfl ht, fun r hr => absurd Iff.rfl hr, fun r hr _ hn => absurd hr hn,
    fun p hp x hx => ?_, fun m hm => absurd Iff.rfl hm, fun g hg hn x hx => ?_,
    fun g hg hn x hx => ?_, fun r hr => .inl hr, ⟨rfl, rfl, rfl⟩, fun x hx => hx⟩
  · have hchanged : (s.updateFact pid fun f => { f with actingAs := some .closed }).fact p ≠
        s.fact p := hp
    obtain rfl := changed_updateFact hchanged fun _ => rfl
    rw [hself] at hx
    obtain rfl := Option.some.inj hx
    exact .inl hid
  · have hpid : s.memberOf g.pid = some id := by
      rcases hlost g hg hn with hp | hp
      · rw [hp]
        exact hself
      · exact htarget g.pid hp
    rw [hpid] at hx
    obtain rfl := Option.some.inj hx
    exact .inl hid
  · -- the receiver still has its main seat
    obtain ⟨i, hi, hp⟩ := Option.map_eq_some_iff.mp (hgained g hg hn).symm
    have hpid : ({ s with holds := hs }.updateFact pid
        fun f => { f with actingAs := some .closed }).memberOf i.pid = some id :=
      memberOf_main (s := { s with holds := hs }.updateFact pid
        fun f => { f with actingAs := some .closed }) (h.seated.of_eq rfl fun _ => rfl) hi
    rw [← hp, hpid] at hx
    obtain rfl := Option.some.inj hx
    exact .inl hid

theorem mem_replaced {i : Incarnation} {g : Nat} (hne : i.member ≠ id) :
    i ∈ (s.replaceMain id pid g).incarnations ↔ i ∈ s.incarnations := by
  have hinc : (s.replaceMain id pid g).incarnations =
      s.incarnations.map (closed id) ++ [⟨id, .main, g, pid, true⟩] := rfl
  rw [hinc, List.mem_append, List.mem_singleton, List.mem_map]
  have hsame : ∀ j : Incarnation, j.member ≠ id → closed id j = j := by
    intro j hj
    simp [closed, hj]
  constructor
  · rintro (⟨j, hj, rfl⟩ | rfl)
    · rw [closed_member] at hne
      rw [hsame j hne]
      exact hj
    · exact absurd rfl hne
  · intro hi
    exact .inl ⟨i, hi, hsame i hne⟩

theorem confined_rebind (h : s.Sound) {refused : Hold → Bool} {m : Member} {old : Incarnation}
    (hm : s.member id = some m) (howner : id ≠ ownerId) (hseated : s.seated pid = false)
    (hold : s.main id = some old) (hid : s.Under a id)
    (hfact : ∀ x, (s.fact pid).bind Fact.member = some x → s.Under a x) :
    s.Confined ((((s.handBack old.pid (some pid) refused).replaceMain id pid
      (m.generation + 1)).updateFact old.pid fun f => { f with actingAs := some .closed }).updateFact
      pid fun f => { f with member := some id, actingAs := some .main }) a := by
  have hsound : ((((s.handBack old.pid (some pid) refused).replaceMain id pid
      (m.generation + 1)).updateFact old.pid fun f => { f with actingAs := some .closed }).updateFact
      pid fun f => { f with member := some id, actingAs := some .main }).Sound := by
    have hedits : Edits false false s _ := edits_seat old.pid refused hm howner hseated
    exact h.edits hedits
  obtain ⟨hs, heq, hlost, hgained⟩ := handBack_spec (s := s) old.pid (some pid) refused
  rw [heq] at hsound ⊢
  have hself : s.memberOf old.pid = some id := memberOf_main h.seated hold
  have hnew : s.memberOf pid = (s.fact pid).bind Fact.member :=
    memberOf_fact (no_main_of_seated hseated)
  refine ⟨fun x hx => ?_, fun n => ⟨fun h => h, .inl⟩, fun i hi => ?_,
    fun t ht => absurd rfl ht, fun r hr => absurd Iff.rfl hr, fun r hr _ hn => absurd hr hn,
    fun p hp x hx => ?_, fun m hm => absurd Iff.rfl hm, fun g hg hn x hx => ?_,
    fun g hg hn x hx => ?_, fun r hr => .inl hr, ⟨rfl, rfl, rfl⟩, fun x hx => ?_⟩
  · have hchanged : (s.update id fun m' => { m' with generation := m.generation + 1 }).member x ≠
        s.member x := hx
    obtain rfl := changed_update hchanged fun _ => rfl
    exact .inl hid
  · by_contra hnot
    have hne : i.member ≠ id := by
      rintro he
      rw [he] at hnot
      exact hnot (.inl hid)
    exact hi (mem_replaced (s := { s with holds := hs }) hne)
  · have hchanged : ((s.updateFact old.pid fun f => { f with actingAs := some .closed }).updateFact
        pid fun f => { f with member := some id, actingAs := some .main }).fact p ≠ s.fact p := hp
    by_cases hpid : p = pid
    · rw [hpid, hnew] at hx
      exact .inl (hfact x hx)
    · have hother : ((s.updateFact old.pid fun f => { f with actingAs := some .closed }).updateFact
          pid fun f => { f with member := some id, actingAs := some .main }).fact p =
          (s.updateFact old.pid fun f => { f with actingAs := some .closed }).fact p := by
        rw [fact_updateFact, if_neg hpid]
        exact fun _ => rfl
      rw [hother] at hchanged
      obtain rfl := changed_updateFact hchanged fun _ => rfl
      rw [hself] at hx
      obtain rfl := Option.some.inj hx
      exact .inl hid
  · rcases hlost g hg hn with hp | hp
    · rw [hp, hself] at hx
      obtain rfl := Option.some.inj hx
      exact .inl hid
    · rw [Option.some.inj hp, hnew] at hx
      exact .inl (hfact x hx)
  · have hseat := memberOf_seat hsound.seated (i := ⟨id, .main, m.generation + 1, pid, true⟩)
      (List.mem_append_right _ (List.mem_singleton.mpr rfl)) rfl rfl
    rw [Option.some.inj (hgained g hg hn), hseat] at hx
    obtain rfl := Option.some.inj hx
    exact .inl hid
  · have hmanager : (s.update id fun m' => { m' with generation := m.generation + 1 }).manager =
        s.manager := manager_update (fun _ => rfl) fun _ => rfl
    have hreach : (s.update id fun m' => { m' with generation := m.generation + 1 }).Under a x := by
      rw [under_of_manager hmanager]
      exact hx
    exact hreach

/-- New managers keep the subtree that both are in. -/
theorem under_setManager {up : MemberId} (h : s.setManager id (some up) = .ok s')
    (hup : s.Under a up) (hx : s.Under a x) : s'.Under a x := by
  obtain ⟨hcheck, rfl⟩ := setManager_ok h
  obtain ⟨-, hfree⟩ := checkManager_ok.mp hcheck
  by_cases hthere : (s.member id).isSome = true
  · refine reaches_redirect (n := id) (y := up) (fun y hy => ?_) ?_ hup
      (not_reaches_of_climbsFree hfree) hx
    · rw [manager_managed, if_neg fun hc => hy hc.1]
    · rw [manager_managed, if_pos ⟨rfl, hthere⟩]
  · have hsame : (s.update id fun m => { m with manager := some up }).manager = s.manager := by
      funext y
      rw [manager_managed, if_neg]
      rintro ⟨rfl, hy⟩
      exact hthere hy
    rw [under_of_manager hsame]
    exact hx

theorem under_moveReports {up : MemberId} : ∀ {l : List MemberId} {s s' : Store},
    moveReports (some up) s l = .ok s' → s.Under a up → ∀ x, s.Under a x → s'.Under a x
  | [], s, s', h, _, x, hx => by
    obtain rfl := Except.ok.inj h
    exact hx
  | report :: l, s, s', h, hup, x, hx => by
    rw [moveReports] at h
    obtain ⟨s₁, hs₁, h⟩ := except_bind_ok.mp h
    exact under_moveReports h (under_setManager hs₁ hup hup) x (under_setManager hs₁ hup hx)

/-- Only the mark of the new home changes. -/
theorem homeMark_spec (id : MemberId) (home : Option Home) :
    ∃ ms, s.homeMark id home = { s with marks := ms } ∧
      ∀ m : Mark, ¬ (m ∈ ms ↔ m ∈ s.marks) → m.member = some id ∨
        ∃ w, home = some w ∧ m ∈ s.marks ∧ m.daemon = w.daemon ∧ m.workspace = w.workspace := by
  unfold homeMark
  cases home with
  | none => exact ⟨s.marks, rfl, fun m hm => absurd Iff.rfl hm⟩
  | some w =>
    simp only
    by_cases hempty : w.daemon = "" ∨ w.workspace = ""
    · rw [if_pos hempty]
      exact ⟨s.marks, rfl, fun m hm => absurd Iff.rfl hm⟩
    · rw [if_neg hempty]
      by_cases hany : (s.marks.any fun m => m.daemon = w.daemon && m.workspace = w.workspace) = true
      · rw [if_pos hany]
        refine ⟨_, rfl, fun m hm => ?_⟩
        by_contra hnot
        rw [not_or] at hnot
        refine hm ⟨fun hmem => ?_, fun hmem => ?_⟩
        · obtain ⟨m₀, hm₀, rfl⟩ := List.mem_map.mp hmem
          by_cases hc : (m₀.daemon = w.daemon && m₀.workspace = w.workspace) = true
          · rw [if_pos hc] at hnot
            exact absurd rfl hnot.1
          · rw [if_neg hc]
            exact hm₀
        · refine List.mem_map.mpr ⟨m, hmem, if_neg fun hc => hnot.2 ?_⟩
          simp only [Bool.and_eq_true, decide_eq_true_eq] at hc
          exact ⟨w, rfl, hmem, hc.1, hc.2⟩
      · rw [if_neg hany]
        refine ⟨_, rfl, fun m hm => .inl ?_⟩
        by_contra hnot
        refine hm ⟨fun hmem => ?_, fun hmem => List.mem_append_left _ hmem⟩
        rcases List.mem_append.mp hmem with hmem | hmem
        · exact hmem
        · rw [List.mem_singleton.mp hmem] at hnot
          exact absurd rfl hnot

/-- A promoted member gets no workspace that is another member's. -/
theorem promoteHome_spec (h : s.Marked) {f : Fact} {daemon : String} {boss : MemberId}
    {refusedHome : Bool} {w : Home} (hw : s.promoteHome f daemon boss refusedHome = some w)
    {m : Mark} (hm : m ∈ s.marks) (hd : m.daemon = w.daemon) (hws : m.workspace = w.workspace)
    (hx : m.member = some x) : x = boss := by
  unfold promoteHome at hw
  cases hhome : homeOf daemon f with
  | none =>
    simp only [hhome] at hw
    cases hw
  | some w' =>
    simp only [hhome] at hw
    split at hw
    · cases hw
    · split at hw
      · cases hw
      · rename_i hmark
        split at hw
        · cases hw
        · obtain rfl := Option.some.inj hw
          have hfind : (s.marks.find? fun m => m.daemon = w'.daemon && m.workspace = w'.workspace) =
              some m := by
            cases hfind : s.marks.find? fun m => m.daemon = w'.daemon && m.workspace = w'.workspace with
            | none =>
              have hno := List.find?_eq_none.mp hfind m hm
              exact absurd (by simp [hd, hws]) hno
            | some m' =>
              have hc := List.find?_some hfind
              simp only [Bool.and_eq_true, decide_eq_true_eq] at hc
              have hkey : (m'.daemon, m'.workspace) = (m.daemon, m.workspace) := by
                rw [hc.1, hc.2, hd, hws]
              rw [List.inj_on_of_nodup_map h (List.mem_of_find?_eq_some hfind) hm hkey]
          rw [hfind] at hmark
          by_contra hne
          exact hmark (by simp [hx, hne])

theorem confined_promote {n : NewMember} {up boss : MemberId} (hn : s.Enrollable n up)
    (hpid : n.pid = some pid) (haliases : n.aliases = []) (hcontinuous : n.continuous = none)
    (hup : s.Under a up) (hboss : s.memberOf pid = some boss) (hunder : s.Under a boss)
    (hteam : ∀ team, n.team = some team →
      ∃ t lead, s.team team = some t ∧ t.lead = some lead ∧ s.Under a lead)
    (hhome : ∀ w, n.home = some w → ∀ m ∈ s.marks, m.daemon = w.daemon →
      m.workspace = w.workspace → ∀ x, m.member = some x → x = boss) :
    s.Confined (((s.enroll n up).homeMark n.id n.home).updateFact pid
      fun f => { f with actingAs := some .promoted }) a := by
  obtain ⟨ms, heq, hmarks⟩ := homeMark_spec (s := s.enroll n up) n.id n.home
  rw [heq]
  have hkeep : ∀ x, s.Under a x → (s.enroll n up).Under a x :=
    fun x hx => ReflTransGen.mono (fun _ _ => edge_enroll hn.fresh) _ _ hx
  have hedge : Edge (s.enroll n up).manager n.id up := by
    show (s.enroll n up).manager n.id = some up
    rw [manager_enroll hn.fresh, if_pos rfl]
  have hnew : s.Mine ({ s.enroll n up with marks := ms }.updateFact pid
      fun f => { f with actingAs := some .promoted }) a n.id :=
    .inr ⟨hn.fresh, .head hedge (hkeep up hup)⟩
  have hinc : (s.enroll n up).incarnations = s.incarnations ++ [⟨n.id, .main, 1, pid, true⟩] := by
    simp [enroll, hpid]
  have haliases' : (s.enroll n up).aliases = s.aliases ++ [(n.handle, n.id)] := by
    simp [enroll, haliases, addAliases]
  have hrows : (s.enroll n up).memberships = s.memberships ++
      (n.team.map fun team => Membership.mk team n.id .primary true).toList := rfl
  refine ⟨fun x hx => ?_, fun name => ⟨fun hname => ?_, fun hname => ?_⟩, fun i hi => ?_,
    fun t ht => absurd rfl ht, fun r hr => ?_, fun r hr _ hr' => ?_, fun p hp x hx => ?_,
    fun m hm x hx => ?_, fun g hg hn => absurd hg hn, fun g hg hn => absurd hg hn,
    fun r hr => .inl hr, ⟨?_, rfl, rfl⟩, fun x hx => hkeep x hx⟩
  · have hchanged : (s.enroll n up).member x ≠ s.member x := hx
    rw [member_enroll hn.fresh] at hchanged
    by_cases he : x = n.id
    · rw [he]
      exact hnew
    · rw [if_neg he] at hchanged
      exact absurd rfl hchanged
  · have hmem : name ∈ (s.enroll n up).aliases := by
      rw [haliases']
      exact List.mem_append_left _ hname
    exact hmem
  · have hmem : name ∈ (s.enroll n up).aliases := hname
    rw [haliases', List.mem_append, List.mem_singleton] at hmem
    rcases hmem with hmem | rfl
    · exact .inl hmem
    · exact .inr hnew
  · by_contra hnot
    have hsame : i ∈ (s.enroll n up).incarnations ↔ i ∈ s.incarnations := by
      rw [hinc, List.mem_append, List.mem_singleton]
      refine ⟨fun hmem => hmem.elim (fun h => h) fun he => ?_, .inl⟩
      rw [he] at hnot
      exact absurd hnew hnot
    exact hi hsame
  · by_contra hnot
    have hsame : r ∈ (s.enroll n up).memberships ↔ r ∈ s.memberships := by
      rw [hrows, List.mem_append]
      refine ⟨fun hmem => hmem.elim (fun h => h) fun he => ?_, .inl⟩
      obtain ⟨team, -, rfl⟩ := Option.map_eq_some_iff.mp (Option.mem_toList.mp he)
      exact absurd hnew hnot
    exact hr hsame
  · have hmem : r ∈ (s.enroll n up).memberships := hr
    rw [hrows, List.mem_append] at hmem
    rcases hmem with hmem | hmem
    · exact absurd hmem hr'
    · obtain ⟨team, hgiven, rfl⟩ := Option.map_eq_some_iff.mp (Option.mem_toList.mp hmem)
      obtain ⟨t, lead, ht, hlead, hmine⟩ := hteam team hgiven
      exact ⟨t, lead, ht, hlead, .inl hmine⟩
  · have hchanged : (s.updateFact pid fun f => { f with actingAs := some .promoted }).fact p ≠
        s.fact p := hp
    obtain rfl := changed_updateFact hchanged fun _ => rfl
    rw [hboss] at hx
    obtain rfl := Option.some.inj hx
    exact .inl hunder
  · rcases hmarks m hm with hself | ⟨w, hw, hmem, hd, hws⟩
    · rw [hself] at hx
      obtain rfl := Option.some.inj hx
      exact hnew
    · rw [hhome w hw m hmem hd hws x hx]
      exact .inl hunder
  · simp [enroll, updateFact, hcontinuous]

theorem mem_joinPrimary {team : Option TeamId} {r : Membership} (hr : r ∈ s.joinPrimary id team) :
    r ∈ s.memberships ∨ r.member = id ∧ r.role = .primary := by
  have hparted : ∀ t, r ∈ s.memberships.map (Placed.parted id t) →
      r ∈ s.memberships ∨ r.member = id ∧ r.role = .primary := by
    intro t hmem
    obtain ⟨r₀, hr₀, rfl⟩ := List.mem_map.mp hmem
    unfold Placed.parted
    split
    · rename_i hc
      simp only [Bool.and_eq_true, decide_eq_true_eq] at hc
      exact .inr ⟨hc.1.1.1, hc.1.1.2⟩
    · exact .inl hr₀
  rw [Placed.joinPrimary_eq] at hr
  cases team with
  | none => exact hparted none hr
  | some t =>
    simp only at hr
    split at hr
    · obtain ⟨r₀, hr₀, rfl⟩ := List.mem_map.mp hr
      by_cases hc : (r₀.team = t && r₀.member = id && r₀.role = .primary) = true
      · simp only [Bool.and_eq_true, decide_eq_true_eq] at hc
        have hsame := Placed.rejoined_open id t r₀
        exact .inr ⟨hsame.1.trans hc.1.2, hsame.2.2.1.trans hc.2⟩
      · have hsame : Placed.rejoined id t r₀ = r₀ := if_neg hc
        rw [hsame] at hparted ⊢
        exact hparted (some t) hr₀
    · rcases List.mem_append.mp hr with hr | hr
      · exact hparted (some t) hr
      · rw [List.mem_singleton.mp hr]
        exact .inr ⟨rfl, rfl⟩

theorem joinPrimary_other {team : Option TeamId} {r : Membership} (hne : r.member ≠ id) :
    r ∈ s.joinPrimary id team ↔ r ∈ s.memberships := by
  constructor
  · intro hr
    rcases mem_joinPrimary hr with hr | ⟨hid, -⟩
    · exact hr
    · exact absurd hid hne
  · intro hr
    have hparted : ∀ t, r ∈ s.memberships.map (Placed.parted id t) := by
      intro t
      refine List.mem_map.mpr ⟨r, hr, ?_⟩
      simp [Placed.parted, hne]
    rw [Placed.joinPrimary_eq]
    cases team with
    | none => exact hparted none
    | some t =>
      simp only
      split
      · refine List.mem_map.mpr ⟨r, hparted (some t), ?_⟩
        simp [Placed.rejoined, hne]
      · exact List.mem_append_left _ (hparted (some t))

/-- A primary membership that opens is in the team the member goes to. -/
theorem joined_primary {team : Option TeamId} {r : Membership} (hr : r ∈ s.joinPrimary id team)
    (hopen : r.open_ = true) (hnew : r ∉ s.memberships) :
    team = some r.team ∧ ¬ s.Belongs id r.team := by
  rcases mem_joinPrimary hr with hr' | ⟨hid, hrole⟩
  · exact absurd hr' hnew
  · have hbelongs : (s.setPrimary id team).Belongs id r.team := ⟨r, hr, hid, rfl, hrole, hopen⟩
    rw [Placed.belongs_primary, if_pos rfl] at hbelongs
    refine ⟨hbelongs, ?_⟩
    rintro ⟨r₀, hr₀, hid₀, hteam₀, hrole₀, hopen₀⟩
    have hsame : r₀ = r := by
      cases r
      cases r₀
      simp_all
    rw [hsame] at hr₀
    exact hnew hr₀

theorem confined_move {up : Option MemberId} {team : Option (Option TeamId)}
    (hmove : s.moveTo id up team = .ok s') (hid : s.Under a id)
    (hup : ∀ y, up = some y → s.Under a y)
    (hteam : ∀ t, team = some (some t) → ¬ s.Belongs id t →
      ∃ row lead, s.team t = some row ∧ row.lead = some lead ∧ s.Under a lead) :
    s.Confined s' a := by
  obtain ⟨s₁, hmanaged, hplaced⟩ := moveTo_ok hmove
  have hmembers : ∀ x, x ≠ id → s₁.member x = s.member x := by
    intro x hx
    rcases hmanaged with ⟨-, rfl⟩ | ⟨y, -, hset⟩
    · rfl
    · obtain ⟨-, rfl⟩ := setManager_ok hset
      rw [member_managed, if_neg hx]
  have hframe : ∃ ms, s₁ = { s with members := ms } := by
    rcases hmanaged with ⟨-, rfl⟩ | ⟨y, -, hset⟩
    · exact ⟨_, rfl⟩
    · obtain ⟨-, rfl⟩ := setManager_ok hset
      exact ⟨_, rfl⟩
  have hunder : ∀ x, s.Under a x → s₁.Under a x := by
    intro x hx
    rcases hmanaged with ⟨-, rfl⟩ | ⟨y, hy, hset⟩
    · exact hx
    · exact under_setManager hset (hup y hy) hx
  obtain ⟨ms, rfl⟩ := hframe
  rcases hplaced with ⟨-, rfl⟩ | ⟨t, ht, rfl⟩
  · refine ⟨fun x hx => ?_, fun n => ⟨fun h => h, .inl⟩, fun i hi => absurd Iff.rfl hi,
      fun t ht => absurd rfl ht, fun r hr => absurd Iff.rfl hr, fun r hr _ hn => absurd hr hn,
      fun p hp => absurd rfl hp, fun m hm => absurd Iff.rfl hm, fun g hg hn => absurd hg hn,
      fun g hg hn => absurd hg hn, fun r hr => .inl hr, ⟨rfl, rfl, rfl⟩, hunder⟩
    by_cases he : x = id
    · rw [he]
      exact .inl hid
    · exact absurd (hmembers x he) hx
  · have hmanager : ({ s with members := ms }.setPrimary id t).manager =
        ({ s with members := ms } : Store).manager :=
      manager_update (s := { s with members := ms }) (fun _ => rfl) fun _ => rfl
    refine ⟨fun x hx => ?_, fun n => ⟨fun h => h, .inl⟩, fun i hi => absurd Iff.rfl hi,
      fun t ht => absurd rfl ht, fun r hr => ?_, fun r hr hopen hn => ?_,
      fun p hp => absurd rfl hp, fun m hm => absurd Iff.rfl hm, fun g hg hn => absurd hg hn,
      fun g hg hn => absurd hg hn, fun r hr => .inl hr, ⟨rfl, rfl, rfl⟩, fun x hx => ?_⟩
    · by_cases he : x = id
      · rw [he]
        exact .inl hid
      · have hsame : ({ s with members := ms }.setPrimary id t).member x =
            ({ s with members := ms } : Store).member x := by
          by_contra hc
          have hchanged : ({ s with members := ms }.update id
              fun m => { m with primaryTeam := t }).member x ≠
                ({ s with members := ms } : Store).member x := hc
          exact he (changed_update hchanged fun _ => rfl)
        exact absurd (hsame.trans (hmembers x he)) hx
    · by_contra hnot
      have hne : r.member ≠ id := by
        intro he
        rw [he] at hnot
        exact hnot (.inl hid)
      exact hr (joinPrimary_other (s := { s with members := ms }) hne)
    · obtain ⟨hgiven, hnot⟩ := joined_primary (s := { s with members := ms }) hr hopen hn
      obtain ⟨row, lead, hrow, hlead, hmine⟩ := hteam r.team (by rw [ht, hgiven]) hnot
      exact ⟨row, lead, hrow, hlead, .inl hmine⟩
    · rw [under_of_manager hmanager]
      exact hunder x hx

/-- Holds go from the main session of the retired member to the one of its manager. -/
theorem handUp_spec (id : MemberId) (up : Option MemberId) (refused : Hold → Bool) :
    ∃ hs, s.handUp id up refused = { s with holds := hs } ∧
      (∀ g ∈ s.holds, g ∉ hs →
        some g.pid = (s.main id).map Incarnation.pid ∨ some g.pid = s.heir up) ∧
      ∀ g ∈ hs, g ∉ s.holds → some g.pid = s.heir up := by
  unfold handUp
  cases hmain : s.main id with
  | none => exact ⟨s.holds, rfl, fun g hg hn => absurd hg hn, fun g hg hn => absurd hg hn⟩
  | some i =>
    obtain ⟨hs, heq, hlost, hgained⟩ := handBack_spec (s := s) i.pid (s.heir up) refused
    refine ⟨hs, heq, fun g hg hn => ?_, hgained⟩
    rcases hlost g hg hn with hp | hp
    · exact .inl (congrArg some hp)
    · exact .inr hp

theorem unlead_team {t : TeamId} (h : (s.unlead id).team t ≠ s.team t) :
    ∃ row, s.team t = some row ∧ row.lead = some id := by
  have hlookup : (s.unlead id).team t =
      (s.team t).map fun row => if row.lead = some id then { row with lead := none } else row := by
    have hkeep : ∀ row : Team,
        (if row.lead = some id then { row with lead := none } else row).id = row.id := by
      intro row
      split <;> rfl
    simp only [team, unlead, List.find?_map, Function.comp_def, hkeep]
  rw [hlookup] at h
  cases ht : s.team t with
  | none =>
    rw [ht] at h
    exact absurd rfl h
  | some row =>
    refine ⟨row, rfl, ?_⟩
    by_contra hne
    rw [ht, Option.map_some, if_neg hne] at h
    exact h rfl

theorem confined_retire (h : s.Sound) {actor : Pid} {ref : String} {refused : Hold → Bool}
    (hp : s.retire actor ref refused = .ok s') (hid : s.resolve ref = some id) (ha : a ≠ ownerId)
    (hbelow : s.Below a id) : s.Confined s' a := by
  obtain ⟨id', m, acting, s₁, hid', hm, -, -, -, hmove, rfl⟩ := retire_ok hp
  obtain rfl := Option.some.inj (hid.symm.trans hid')
  obtain ⟨up, hup, hunder⟩ := hbelow.manager
  have hmanager : m.manager = some up := by
    unfold manager at hup
    rw [hm] at hup
    exact hup
  rw [hmanager] at hmove ⊢
  have howner : up ≠ ownerId := by
    rintro rfl
    rcases ReflTransGen.cases_head hunder with heq | ⟨c, hc, -⟩
    · exact ha heq.symm
    · have hedge : s.manager ownerId = some c := hc
      rw [h.rooted.top] at hedge
      cases hedge
  have hreports : ∀ x ∈ s.reports id, x ≠ ownerId := by
    rintro x hx rfl
    have hself := reports_spec h.named hx
    rw [h.rooted.top] at hself
    cases hself
  obtain ⟨⟨ms, rfl⟩, hothers⟩ := frame_moveReports hreports hmove
  have hkeep := under_moveReports hmove hunder
  have hsame : ({ s with members := ms }.unlead id).main = s.main := rfl
  have hheir : ∀ p, some p = ({ s with members := ms }.unlead id).heir (some up) →
      ∃ i, s.main up = some i ∧ i.pid = p := by
    intro p hp
    unfold heir at hp
    rw [if_neg fun he => howner (Option.some.inj he), Option.bind_some, hsame] at hp
    obtain ⟨i, hi, hpid⟩ := Option.map_eq_some_iff.mp hp.symm
    exact ⟨i, hi, hpid⟩
  obtain ⟨hs, heq, hlost, hgained⟩ := handUp_spec (s := { s with members := ms }.unlead id) id (some up) refused
  rw [heq]
  have hmine : s.Under a id := hbelow.under
  have hmanager' : ({ s with members := ms }.update id
      fun m => { m with status := .retired }).manager = ({ s with members := ms } : Store).manager :=
    manager_update (s := { s with members := ms }) (fun _ => rfl) fun _ => rfl
  refine ⟨fun x hx => ?_, fun n => ⟨fun h => h, .inl⟩, fun i hi => absurd Iff.rfl hi,
    fun t ht => ?_, fun r hr => absurd Iff.rfl hr, fun r hr _ hn => absurd hr hn,
    fun p hp => absurd rfl hp, fun m hm => absurd Iff.rfl hm, fun g hg hn x hx => ?_,
    fun g hg hn x hx => ?_, fun r hr => ?_, ⟨rfl, rfl, rfl⟩, fun x hx => ?_⟩
  · by_cases he : x = id
    · rw [he]
      exact .inl hmine
    · by_cases hreport : x ∈ s.reports id
      · exact .inl (hmine.manager_of (reports_spec h.named hreport))
      · have hupdated : ({ s with members := ms }.update id
            fun m => { m with status := .retired }).member x =
              ({ s with members := ms } : Store).member x := by
          rw [member_status, if_neg he]
        exact absurd (hupdated.trans (hothers x hreport)) hx
  · have hchanged : ({ s with members := ms }.unlead id).team t ≠
        ({ s with members := ms } : Store).team t := ht
    obtain ⟨row, hrow, hlead⟩ := unlead_team hchanged
    exact ⟨row, id, hrow, hlead, .inl hmine⟩
  · rcases hlost g hg hn with hp | hp
    · obtain ⟨i, hi, hpid⟩ := Option.map_eq_some_iff.mp hp.symm
      rw [← hpid, memberOf_main h.seated hi] at hx
      obtain rfl := Option.some.inj hx
      exact .inl hmine
    · obtain ⟨i, hi, hpid⟩ := hheir g.pid hp
      rw [← hpid, memberOf_main h.seated hi] at hx
      obtain rfl := Option.some.inj hx
      exact .inl hunder
  · obtain ⟨i, hi, hpid⟩ := hheir g.pid (hgained g hg hn)
    have hx' : s.memberOf g.pid = some x := hx
    rw [← hpid, memberOf_main h.seated hi] at hx'
    obtain rfl := Option.some.inj hx'
    exact .inl hunder
  · rcases List.mem_cons.mp hr with rfl | hr
    · exact .inr (.inl hmine)
    · exact .inl hr
  · have hreach : ({ s with members := ms }.update id
        fun m => { m with status := .retired }).Under a x := by
      rw [under_of_manager hmanager']
      exact hkeep x hx
    exact hreach

end Store

end Org
