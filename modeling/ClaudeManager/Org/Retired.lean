import Mathlib
import ClaudeManager.Org.Orderly

/-!
# Retired members

* `Rests` — what other operations leave of a retired member
* `retire_retires`, `reinstate_spec` — what a retirement and its reversal commit
* `rests_perform`, `rests_run` — one operation, and a run of them
-/

namespace Org

open Program

/-- Everything of a member's row but its place in the organization. -/
def Member.self (m : Member) : String × MemberKind × MemberStatus × Nat × String × String :=
  (m.handle, m.kind, m.status, m.generation, m.title, m.mandate)

namespace Store

variable {s s' s'' : Store} {id x : MemberId} {t team : TeamId}

/-! ## What belongs to a member -/

def leadOf (s : Store) (t : TeamId) : Option MemberId := (s.team t).bind Team.lead

def namesOf (s : Store) (id : MemberId) : List String :=
  (s.aliases.filter fun a => a.2 = id).map Prod.fst

def seatsOf (s : Store) (id : MemberId) : List Incarnation :=
  s.incarnations.filter fun i => i.member = id

def placesOf (s : Store) (id : MemberId) : List Membership :=
  s.memberships.filter fun t => t.member = id

def lastRetirement (s : Store) (id : MemberId) : Option Retirement :=
  s.retirements.find? fun r => r.member = id

theorem main_eq_seats : s.main id = (s.seatsOf id).find? fun i => i.role = .main && i.open_ := by
  unfold main seatsOf
  rw [List.find?_filter]
  refine congrArg (fun p => s.incarnations.find? p) (funext fun i => ?_)
  simp [Bool.and_assoc]

theorem leadOf_of_teams (h : s'.teams = s.teams) : s'.leadOf t = s.leadOf t := by
  unfold leadOf Store.team
  rw [h]

theorem leadOf_updateTeam {f : Team → Team} (hf : ∀ t, (f t).id = t.id) :
    (s.updateTeam team f).leadOf t =
      if t = team then ((s.team team).map f).bind Team.lead else s.leadOf t := by
  unfold leadOf
  rw [team_updateTeam hf]
  by_cases ht : t = team
  · rw [if_pos ht, if_pos ht]
  · rw [if_neg ht, if_neg ht]

/-- A team gets a lead only where it is there and has none. -/
theorem leadOf_setLead : (s.setLead team x).leadOf t =
    if t = team ∧ (s.team team).isSome ∧ s.leadOf team = none then some x else s.leadOf t := by
  unfold setLead
  rw [leadOf_updateTeam]
  · by_cases ht : t = team
    · subst ht
      unfold leadOf
      cases hrow : s.team t with
      | none => simp
      | some row =>
        by_cases hfree : row.lead = none
        · simp [hfree]
        · simp [hfree]
    · simp [ht]
  · intro row
    split <;> rfl

theorem leadOf_unlead : (s.unlead id).leadOf t = if s.leadOf t = some id then none else s.leadOf t := by
  have hrow : (s.unlead id).team t =
      (s.team t).map fun t => if t.lead = some id then { t with lead := none } else t := by
    unfold Store.team unlead
    simp only [List.find?_map, Function.comp_def]
    congr 1
    refine congrArg (fun p => s.teams.find? p) (funext fun row => ?_)
    split <;> rfl
  unfold leadOf
  rw [hrow]
  cases s.team t with
  | none => simp
  | some row =>
    by_cases hled : row.lead = some id
    · simp [hled]
    · simp [hled]

theorem leadOf_createTeam {n : NewTeam} (h : s.createTeam team n = .ok s') :
    s'.leadOf t = if t = team then n.lead else s.leadOf t := by
  obtain ⟨-, hfresh, slug, hattach⟩ := createTeam_ok h
  rw [leadOf_of_teams (alike_attach hattach).1.teams]
  unfold leadOf Store.team
  rw [List.find?_append]
  by_cases ht : t = team
  · subst ht
    have hnone : s.teams.find? (fun row => row.id = t) = none := hfresh
    simp [hnone]
  · cases hrow : s.teams.find? fun row => row.id = t with
    | none => simp [ht, Ne.symm ht]
    | some row => simp [ht]

/-- Names that a member is given are nobody else's. -/
theorem filter_addAliases {member : MemberId} (handle : String) (hne : id ≠ member) :
    ∀ (texts : List String) (old : List (String × MemberId)),
      (addAliases handle member old texts).filter (fun a => a.2 = id) = old.filter fun a => a.2 = id
  | [], _ => rfl
  | text :: texts, old => by
    have hfirst : (addAlias handle member old text).filter (fun a => a.2 = id) =
        old.filter fun a => a.2 = id := by
      unfold addAlias
      split
      · rfl
      · split
        · rfl
        · simp [List.filter_append, Ne.symm hne]
    exact (filter_addAliases handle hne texts (addAlias handle member old text)).trans hfirst

/-! ## What rests -/

/-- What is left of a member: all but its place, and that too where it is `still` in it. The
teams of `led` that have a lead have one, and none comes to be led by the member. -/
structure Rests (id : MemberId) (led : TeamId → Prop) (still : Prop) (s s' : Store) : Prop where
  self : (s'.member id).map Member.self = (s.member id).map Member.self
  names : s'.namesOf id = s.namesOf id
  seats : s'.seatsOf id = s.seatsOf id
  record : s'.lastRetirement id = s.lastRetirement id
  placed : still → s'.member id = s.member id ∧ s'.placesOf id = s.placesOf id
  held : ∀ t, led t → s.leadOf t ≠ none → s'.leadOf t ≠ none
  given : ∀ t, s'.leadOf t = some id → s.leadOf t = some id

namespace Rests

variable {led : TeamId → Prop} {still : Prop}

theorem refl : Rests id led still s s :=
  ⟨rfl, rfl, rfl, rfl, fun _ => ⟨rfl, rfl⟩, fun _ _ h => h, fun _ h => h⟩

theorem trans (h : Rests id led still s s') (h' : Rests id led still s' s'') :
    Rests id led still s s'' where
  self := h'.self.trans h.self
  names := h'.names.trans h.names
  seats := h'.seats.trans h.seats
  record := h'.record.trans h.record
  placed hstill := ⟨(h'.placed hstill).1.trans (h.placed hstill).1,
    (h'.placed hstill).2.trans (h.placed hstill).2⟩
  held t ht hlead := h'.held t ht (h.held t ht hlead)
  given t hlead := h.given t (h'.given t hlead)

/-- Nothing of the organization changes but members, as the row of `id` shows. -/
theorem of_frame (haliases : s'.aliases = s.aliases) (hseats : s'.incarnations = s.incarnations)
    (hteams : s'.teams = s.teams) (hplaces : s'.memberships = s.memberships)
    (hrecord : s'.retirements = s.retirements)
    (hself : (s'.member id).map Member.self = (s.member id).map Member.self)
    (hmember : still → s'.member id = s.member id) : Rests id led still s s' where
  self := hself
  names := by rw [namesOf, namesOf, haliases]
  seats := by rw [seatsOf, seatsOf, hseats]
  record := by rw [lastRetirement, lastRetirement, hrecord]
  placed hstill := ⟨hmember hstill, by rw [placesOf, placesOf, hplaces]⟩
  held t _ hlead := by rwa [leadOf_of_teams hteams]
  given t hlead := by rwa [leadOf_of_teams hteams] at hlead

theorem of_alike (h : s.Alike s') (hrecord : s'.retirements = s.retirements) :
    Rests id led still s s' :=
  of_frame h.aliases h.incarnations h.teams h.memberships hrecord
    (by rw [member_of_alike h]) fun _ => by rw [member_of_alike h]

/-- The row of another member changes. -/
theorem update {f : Member → Member} (hf : ∀ m, (f m).id = m.id) (hne : id ≠ x) :
    Rests id led still s (s.update x f) := by
  have hrow : (s.update x f).member id = s.member id := by
    rw [member_update hf, if_neg hne]
  exact of_frame rfl rfl rfl rfl rfl (by rw [hrow]) fun _ => hrow

theorem of_teams (hmembers : s'.members = s.members) (haliases : s'.aliases = s.aliases)
    (hseats : s'.incarnations = s.incarnations) (hplaces : s'.memberships = s.memberships)
    (hrecord : s'.retirements = s.retirements)
    (hheld : ∀ t, led t → s.leadOf t ≠ none → s'.leadOf t ≠ none)
    (hgiven : ∀ t, s'.leadOf t = some id → s.leadOf t = some id) : Rests id led still s s' where
  self := by rw [member, member, hmembers]
  names := by rw [namesOf, namesOf, haliases]
  seats := by rw [seatsOf, seatsOf, hseats]
  record := by rw [lastRetirement, lastRetirement, hrecord]
  placed _ := ⟨by rw [member, member, hmembers], by rw [placesOf, placesOf, hplaces]⟩
  held := hheld
  given := hgiven

theorem homeMark {home : Option Home} : Rests id led still s (s.homeMark x home) := by
  refine of_alike alike_homeMark ?_
  unfold Store.homeMark
  cases home with
  | none => rfl
  | some h =>
    simp only
    split
    · rfl
    · split <;> rfl

theorem handBack {source : Pid} {target : Option Pid} {refused : Hold → Bool} :
    Rests id led still s (s.handBack source target refused) := by
  refine of_alike alike_handBack ?_
  cases target with
  | none => rfl
  | some target => rfl

theorem updateFact {pid : Pid} {f : Fact → Fact} : Rests id led still s (s.updateFact pid f) :=
  of_alike alike_updateFact rfl

/-! ### Teams -/

theorem setLead (hx : id = x → s.setLead team x = s) : Rests id led still s (s.setLead team x) := by
  by_cases hid : id = x
  · rw [hx hid]
    exact refl
  · refine of_teams rfl rfl rfl rfl rfl (fun t _ hlead => ?_) fun t hlead => ?_
    · rw [leadOf_setLead]
      split
      · exact Option.some_ne_none x
      · exact hlead
    · rw [leadOf_setLead] at hlead
      split at hlead
      · exact absurd (Option.some.inj hlead).symm hid
      · exact hlead

theorem createTeam {n : NewTeam} (halive : s.alive id = false) (h : s.createTeam team n = .ok s') :
    Rests id led still s s' := by
  obtain ⟨hlead, hfresh, slug, hattach⟩ := createTeam_ok h
  have halike := (alike_attach hattach).1
  have hrecord : s'.retirements = s.retirements := by
    unfold attach at hattach
    split at hattach
    · rw [← Except.ok.inj hattach]
    · split at hattach
      · cases hattach
      · cases hattach
      · rw [← Except.ok.inj hattach]
  have hnone : s.leadOf team = none := by
    rw [leadOf, hfresh, Option.bind_none]
  refine of_teams halike.members halike.aliases halike.incarnations halike.memberships hrecord
    (fun t _ hled => ?_) fun t hled => ?_
  · rw [leadOf_createTeam h]
    split
    · rename_i ht
      exact absurd (ht ▸ hnone) hled
    · exact hled
  · rw [leadOf_createTeam h] at hled
    split at hled
    · rw [hlead id hled] at halive
      cases halive
    · exact hled

theorem leadTeam {newTeam : TaskId → TeamId} {lo : LeadOf} (halive : s.alive id = false)
    (h : s.leadTeam newTeam lo = .ok (s', team)) : Rests id led still s s' := by
  unfold Store.leadTeam at h
  split at h
  · obtain ⟨rfl, -⟩ := Prod.mk.inj (Except.ok.inj h)
    exact refl
  · cases h
  · split at h
    · obtain ⟨rfl, -⟩ := Prod.mk.inj (Except.ok.inj h)
      exact refl
    · simp only at h
      split at h
      · rename_i hcreate
        obtain ⟨rfl, -⟩ := Prod.mk.inj (Except.ok.inj h)
        exact createTeam halive hcreate
      · cases h

theorem members_leadTeam {newTeam : TaskId → TeamId} {lo : LeadOf}
    (h : s.leadTeam newTeam lo = .ok (s', team)) : s'.members = s.members := by
  have hspec : Edits false false s s' ∧ s'.members = s.members := leadTeam_ok h
  exact hspec.2

theorem setLeads {newTeam : TaskId → TeamId} (hne : id ≠ x) : ∀ {los : List LeadOf} {s s' : Store},
    s.alive id = false → Store.setLeads newTeam x s los = .ok s' → Rests id led still s s'
  | [], s, s', _, h => by
    obtain rfl := Except.ok.inj h
    exact refl
  | lo :: los, s, s', halive, h => by
    rw [Store.setLeads] at h
    split at h
    · cases h
    · rename_i s₁ team hlead
      have hmembers : s₁.members = s.members := members_leadTeam hlead
      have halive₁ : (s₁.setLead team x).alive id = false := by
        rw [← halive, ← alive_of_members hmembers]
        rfl
      exact (leadTeam halive hlead).trans
        ((setLead fun he => absurd he hne).trans (setLeads hne halive₁ h))

theorem leadTeams {newTeam : TaskId → TeamId} : ∀ {los : List LeadOf} {s s' : Store}
    {los' : List LeadOf}, s.alive id = false → Store.leadTeams newTeam s los = .ok (s', los') →
    Rests id led still s s' ∧ s'.members = s.members
  | [], s, s', los', _, h => by
    obtain ⟨rfl, -⟩ := Prod.mk.inj (Except.ok.inj h)
    exact ⟨refl, rfl⟩
  | lo :: los, s, s', los', halive, h => by
    rw [Store.leadTeams] at h
    split at h
    · split at h
      · cases h
      · rename_i s₁ team hlead
        have hmembers : s₁.members = s.members := members_leadTeam hlead
        have halive₁ : s₁.alive id = false := by rw [alive_of_members hmembers, halive]
        split at h
        · cases h
        · rename_i s₂ los₂ hrest
          obtain ⟨rfl, -⟩ := Prod.mk.inj (Except.ok.inj h)
          obtain ⟨hrests, hsame⟩ := leadTeams halive₁ hrest
          exact ⟨(leadTeam halive hlead).trans hrests, hsame.trans hmembers⟩
    · split at h
      · cases h
      · rename_i s₂ los₂ hrest
        obtain ⟨rfl, -⟩ := Prod.mk.inj (Except.ok.inj h)
        exact leadTeams halive hrest

/-! ### Members -/

theorem enroll {n : NewMember} {up : MemberId} (hn : s.member n.id = none) (hid : (s.member id).isSome) :
    Rests id led still s (s.enroll n up) := by
  have hne : id ≠ n.id := by
    rintro rfl
    rw [hn] at hid
    cases hid
  have hrow : (s.enroll n up).member id = s.member id := by
    rw [member_enroll hn, if_neg hne]
  have hnames : (s.enroll n up).namesOf id = s.namesOf id := by
    unfold namesOf Store.enroll
    simp only
    rw [filter_addAliases n.handle hne, List.filter_append]
    simp [Ne.symm hne]
  refine ⟨by rw [hrow], hnames, ?_, rfl, fun _ => ⟨hrow, ?_⟩, fun _ _ h => h, fun _ h => h⟩
  · unfold seatsOf Store.enroll
    cases n.pid with
    | none => simp
    | some pid => simp [Ne.symm hne]
  · unfold placesOf Store.enroll
    cases n.team with
    | none => simp
    | some team => simp [Ne.symm hne]

theorem createUnder {manager : Option MemberId} {n : NewMember} (hid : (s.member id).isSome)
    (h : s.createUnder manager n = .ok s') :
    Rests id led still s s' ∧ id ≠ n.id ∧ s'.alive id = s.alive id := by
  obtain ⟨up, -, hn, rfl⟩ := createUnder_ok h
  have hne : id ≠ n.id := by
    rintro rfl
    rw [hn.fresh] at hid
    cases hid
  refine ⟨(enroll hn.fresh hid).trans homeMark, hne, ?_⟩
  rw [alive_of_alike alike_homeMark, alive_enroll hn.fresh, decide_eq_false hne, Bool.false_or]

theorem closed_seats (hne : id ≠ x) (pid : Pid) (g : Nat) :
    (s.replaceMain x pid g).seatsOf id = s.seatsOf id := by
  unfold seatsOf replaceMain
  simp only [List.filter_append]
  rw [filter_map_keeps]
  · simp [Ne.symm hne]
  · intro i
    split <;> rfl
  · intro i hi
    have hi : i.member = id := by simpa using hi
    simp [hi, hne]

/-- Only memberships of the member itself change. -/
theorem placesOf_setPrimary {team : Option TeamId} (hne : id ≠ x) :
    (s.setPrimary x team).placesOf id = s.placesOf id := by
  have hparted : ∀ team, (s.memberships.map (Placed.parted x team)).filter
      (fun t => decide (t.member = id)) = s.placesOf id := by
    intro team
    refine filter_map_keeps (fun t => ?_) (fun t ht => ?_) s.memberships
    · rw [(Placed.parted_open x team t).1]
    · have ht : t.member = id := by simpa using ht
      simp [Placed.parted, ht, hne]
  show (s.joinPrimary x team).filter (fun t => decide (t.member = id)) = s.placesOf id
  rw [Placed.joinPrimary_eq]
  cases team with
  | none => exact hparted none
  | some team =>
    simp only
    split
    · rw [filter_map_keeps]
      · exact hparted (some team)
      · intro t
        unfold Placed.rejoined
        split <;> rfl
      · intro t ht
        have ht : t.member = id := by simpa using ht
        simp [Placed.rejoined, ht, hne]
    · rw [List.filter_append, hparted]
      simp [Ne.symm hne]

theorem replaceMain (hne : id ≠ x) (pid : Pid) (g : Nat) :
    Rests id led still s (s.replaceMain x pid g) := by
  have hrow : (s.replaceMain x pid g).member id = s.member id := by
    have hupdated : (s.update x fun m => { m with generation := g }).member id = s.member id := by
      rw [member_generation, if_neg hne]
    exact hupdated
  exact ⟨by rw [hrow], rfl, closed_seats hne pid g, rfl, fun _ => ⟨hrow, rfl⟩, fun _ _ h => h,
    fun _ h => h⟩

theorem setPrimary {team : Option TeamId} (hne : still → id ≠ x) :
    Rests id led still s (s.setPrimary x team) := by
  have hself : ((s.update x fun m => { m with primaryTeam := team }).member id).map Member.self =
      (s.member id).map Member.self := map_member_update (fun _ => rfl) fun _ => rfl
  refine ⟨hself, rfl, rfl, rfl, fun hstill => ⟨?_, ?_⟩, fun _ _ h => h, fun _ h => h⟩
  · have hupdated : (s.update x fun m => { m with primaryTeam := team }).member id = s.member id := by
      rw [member_primary, if_neg (hne hstill)]
    exact hupdated
  · exact placesOf_setPrimary (hne hstill)

theorem manage {up : Option MemberId} (hne : still → id ≠ x) :
    Rests id led still s (s.update x fun m => { m with manager := up }) := by
  refine of_frame rfl rfl rfl rfl rfl (map_member_update (fun _ => rfl) fun _ => rfl) fun hstill => ?_
  rw [member_managed, if_neg (hne hstill)]

end Rests

/-! ## A retirement, and its reversal -/

theorem moveReports_rows {up : Option MemberId} : ∀ {l : List MemberId} {s s' : Store},
    moveReports up s l = .ok s' → (∃ ms, s' = { s with members := ms }) ∧
      ∀ x, s'.member x = if x ∈ l then (s.member x).map fun m => { m with manager := up }
        else s.member x
  | [], s, s', h => by
    obtain rfl := Except.ok.inj h
    exact ⟨⟨s.members, rfl⟩, fun x => by rw [if_neg List.not_mem_nil]⟩
  | report :: l, s, s', h => by
    rw [moveReports] at h
    obtain ⟨s₁, hs₁, h⟩ := except_bind_ok.mp h
    obtain ⟨-, rfl⟩ := setManager_ok hs₁
    obtain ⟨⟨ms, rfl⟩, hrows⟩ := moveReports_rows h
    refine ⟨⟨ms, rfl⟩, fun x => ?_⟩
    rw [hrows x, member_managed]
    by_cases hx : x = report
    · subst hx
      rw [if_pos rfl, if_pos List.mem_cons_self, Option.map_map]
      split <;> rfl
    · rw [if_neg hx]
      by_cases hl : x ∈ l
      · rw [if_pos hl, if_pos (List.mem_cons_of_mem _ hl)]
      · rw [if_neg hl, if_neg fun hmem => (List.mem_cons.mp hmem).elim hx hl]

theorem reports_alive (h : s.Named) (hx : x ∈ s.reports id) : s.alive x = true := by
  obtain ⟨m, hm, rfl⟩ := List.mem_map.mp hx
  obtain ⟨hm, hc⟩ := List.mem_filter.mp hm
  simp only [Bool.and_eq_true, decide_eq_true_eq] at hc
  exact alive_iff.mpr ⟨m, member_of_mem h.ids hm, hc.2⟩

theorem mem_reports_iff (h : s.Named) : x ∈ s.reports id ↔ s.manager x = some id ∧ s.alive x = true :=
  ⟨fun hx => ⟨reports_spec h hx, reports_alive h hx⟩, fun hx => mem_reports hx.1 hx.2⟩

theorem retirements_handUp {up : Option MemberId} {refused : Hold → Bool} :
    (s.handUp id up refused).retirements = s.retirements := by
  unfold handUp
  split
  · rfl
  · unfold handBack
    split <;> rfl

/-- What a retirement leaves, as it is committed. -/
structure Retires (s s' : Store) (id : MemberId) (m : Member) : Prop where
  there : s.member id = some m
  status : m.status ≠ .retired
  aliases : s'.aliases = s.aliases
  seats : s'.incarnations = s.incarnations
  places : s'.memberships = s.memberships
  teams : s'.teams = (s.unlead id).teams
  record : s'.retirements = ⟨id, m.status, s.ledBy id⟩ :: s.retirements
  row : s'.member id = some { m with status := .retired }
  others : ∀ x, x ≠ id → s'.member x =
    if s.manager x = some id ∧ s.alive x = true then
      (s.member x).map fun r => { r with manager := m.manager }
    else s.member x

theorem retire_retires (h : s.Sound) {actor : Pid} {ref : String} {refused : Hold → Bool}
    (hp : s.retire actor ref refused = .ok s') :
    ∃ id m, s.resolve ref = some id ∧ s.Retires s' id m := by
  obtain ⟨id, m, acting, s₁, hresolve, hm, howner, -, hstatus, hmove, rfl⟩ := retire_ok hp
  obtain ⟨⟨ms, hframe⟩, hrows⟩ := moveReports_rows hmove
  have halike : (s₁.unlead id).Alike ((s₁.unlead id).handUp id m.manager refused) := alike_handUp
  have hteams : s₁.teams = s.teams := by rw [hframe]
  have hmember : ∀ x, ((s₁.unlead id).handUp id m.manager refused).member x = s₁.member x := by
    intro x
    rw [member_of_alike halike]
    rfl
  have hself : id ∉ s.reports id := fun hmem =>
    h.rooted.acyclic id (.single (reports_spec h.named hmem))
  have hrow : ∀ x, (((s₁.unlead id).handUp id m.manager refused).update id
      fun m => { m with status := .retired }).member x =
        if x = id then (((s₁.unlead id).handUp id m.manager refused).member id).map
          fun m => { m with status := .retired }
        else ((s₁.unlead id).handUp id m.manager refused).member x := fun _ => member_status
  refine ⟨id, m, hresolve, hm, hstatus, ?_, ?_, ?_, ?_, ?_, ?_, fun x hx => ?_⟩
  · show ((s₁.unlead id).handUp id m.manager refused).aliases = s.aliases
    rw [halike.aliases, hframe]
    rfl
  · show ((s₁.unlead id).handUp id m.manager refused).incarnations = s.incarnations
    rw [halike.incarnations, hframe]
    rfl
  · show ((s₁.unlead id).handUp id m.manager refused).memberships = s.memberships
    rw [halike.memberships, hframe]
    rfl
  · show ((s₁.unlead id).handUp id m.manager refused).teams = (s.unlead id).teams
    rw [halike.teams]
    unfold unlead
    rw [hteams]
  · show _ :: ((s₁.unlead id).handUp id m.manager refused).retirements = _ :: s.retirements
    rw [retirements_handUp, hframe]
    rfl
  · refine (hrow id).trans ?_
    rw [if_pos rfl, hmember, hrows, if_neg hself, hm]
    rfl
  · refine (hrow x).trans ?_
    rw [if_neg hx, hmember, hrows]
    simp only [mem_reports_iff h.named]

/-- The status that the record of a retirement gives back. -/
def statusBefore (last : Option Retirement) : MemberStatus :=
  match last.map Retirement.status with
  | some .vacant => .vacant
  | some .suspended => .suspended
  | _ => .active

theorem reinstate_spec {actor : Pid} {ref : String} (h : s.reinstate actor ref = .ok s') :
    ∃ id m, s.resolve ref = some id ∧ s.member id = some m ∧ m.status = .retired ∧
      s' = (s.regainLeads id (((s.lastRetirement id).map Retirement.leadOf).getD [])).update id
        fun m => { m with status := statusBefore (s.lastRetirement id) } := by
  unfold reinstate at h
  obtain ⟨_, -, h⟩ := except_bind_ok.mp h
  cases hid : s.resolve ref with
  | none =>
    simp only [hid] at h
    cases h
  | some id =>
    cases hm : s.member id with
    | none =>
      simp only [hid, hm] at h
      cases h
    | some m =>
      simp only [hid, hm] at h
      obtain ⟨-, h⟩ := refuse_bind.mp h
      obtain ⟨hstatus, h⟩ := refuse_bind.mp h
      obtain ⟨-, h⟩ := refuse_bind.mp h
      exact ⟨id, m, rfl, hm, not_not.mp hstatus, (except_pure_ok.mp h).symm⟩

/-- The teams of the record that have no lead get one, and no other team changes. -/
theorem regainLeads_spec (id : MemberId) : ∀ (led : List TeamId) (s : Store),
    (∃ ts, s.regainLeads id led = { s with teams := ts }) ∧
      ∀ t, (s.regainLeads id led).leadOf t =
        if t ∈ led ∧ (s.team t).isSome ∧ s.leadOf t = none then some id else s.leadOf t
  | [], s => ⟨⟨s.teams, rfl⟩, fun t => by simp [regainLeads]⟩
  | team :: led, s => by
    obtain ⟨⟨ts, hframe⟩, hleads⟩ := regainLeads_spec id led (s.setLead team id)
    refine ⟨⟨ts, hframe⟩, fun t => ?_⟩
    have hsome : ((s.setLead team id).team t).isSome = (s.team t).isSome := by
      unfold setLead
      rw [team_updateTeam]
      · split
        · rename_i ht
          rw [ht, Option.isSome_map]
        · rfl
      · intro row
        split <;> rfl
    show ((s.setLead team id).regainLeads id led).leadOf t = _
    rw [hleads, hsome, leadOf_setLead]
    by_cases hfree : (s.team t).isSome = true ∧ s.leadOf t = none
    · by_cases ht : t = team
      · subst ht
        simp [hfree.1, hfree.2]
      · simp [ht, hfree.1, hfree.2]
    · by_cases ht : t = team
      · subst ht
        have hset : (if t = t ∧ (s.team t).isSome = true ∧ s.leadOf t = none then some id
            else s.leadOf t) = s.leadOf t := if_neg fun hc => hfree hc.2
        rw [hset, if_neg fun hc => hfree hc.2, if_neg fun hc => hfree hc.2]
      · simp [ht]

end Store

/-! ## Other operations -/

/-- Another reversal of the retirement. -/
def Op.Reinstates (id : MemberId) (s : Store) : Op → Prop
  | .reinstate _ ref => s.resolve ref = some id
  | _ => False

/-- A retired member is moved by hand. -/
def Op.Moves (id : MemberId) (s : Store) : Op → Prop
  | .move _ ref _ _ => s.resolve ref = some id
  | _ => False

/-- No team of `led` is left without a lead, by an edit or with the retirement of its lead, and
no row of a roster gives a free team to the retired member. -/
def Op.KeepsLeads (id : MemberId) (led : TeamId → Prop) (s : Store) : Op → Prop
  | .teamUpdate _ team c => led team → c.lead ≠ some none
  | .retire _ ref _ => ∀ x, s.resolve ref = some x → ∀ t, led t → s.leadOf t ≠ some x
  | .roster _ _ _ p _ => p.member = some id → ∀ lo ∈ p.leadOf, s.led lo = true
  | _ => True

namespace Store

variable {s s' : Store} {id x : MemberId} {t team : TeamId} {led : TeamId → Prop} {still : Prop}

/-! ### Edits of a team -/

theorem newLead_cases {given : Option (Option String)} {old new : Option MemberId}
    (h : s.newLead given old = .ok new) :
    given = none ∧ new = old ∨ given = some none ∧ new = none ∨
      ∃ x, (∃ ref, given = some (some ref)) ∧ new = some x := by
  unfold newLead at h
  split at h
  · exact .inl ⟨rfl, (Except.ok.inj h).symm⟩
  · exact .inr (.inl ⟨rfl, (Except.ok.inj h).symm⟩)
  · rename_i ref
    split at h
    · cases h
    · rename_i x hx
      obtain ⟨-, h⟩ := refuse_bind.mp h
      exact .inr (.inr ⟨x, ⟨ref, rfl⟩, (except_pure_ok.mp h).symm⟩)

theorem teamUpdate_leads {actor : Pid} {c : TeamChanges} (h : s.teamUpdate actor team c = .ok s') :
    ∃ f lead, s.newLead c.lead (s.leadOf team) = .ok lead ∧ s' = s.updateTeam team f ∧
      ∀ t, (s.updateTeam team f).leadOf t = if t = team then lead else s.leadOf t := by
  unfold Store.teamUpdate at h
  obtain ⟨_, -, h⟩ := except_bind_ok.mp h
  cases hteam : s.team team with
  | none =>
    simp only [hteam] at h
    cases h
  | some row =>
    simp only [hteam] at h
    obtain ⟨parent, -, h⟩ := except_bind_ok.mp h
    obtain ⟨lead, hnew, h⟩ := except_bind_ok.mp h
    have hold : s.leadOf team = row.lead := by
      rw [leadOf, hteam]
      rfl
    rw [← hold] at hnew
    refine ⟨_, lead, hnew, (except_pure_ok.mp h).symm, fun t => ?_⟩
    rw [leadOf_updateTeam, hteam]
    · rfl
    · intro row
      rfl

namespace Rests

theorem createMember {n : NewMember} (hid : (s.member id).isSome) (h : s.createMember n = .ok s') :
    Rests id led still s s' :=
  (createUnder hid h).1

theorem applyProposal {newTeam : TaskId → TeamId} {p : Proposal} {row : Row}
    (hid : (s.member id).isSome) (halive : s.alive id = false)
    (hrow : p.member = some id → ∀ lo ∈ p.leadOf, s.led lo = true)
    (h : s.applyProposal newTeam x p row = .ok s') : Rests id led still s s' := by
  unfold Store.applyProposal at h
  cases hmember : p.member with
  | some member =>
    simp only [hmember] at h
    by_cases hne : id = member
    · subst hne
      obtain rfl := setLeads_led (hrow hmember) h
      exact refl
    · exact setLeads hne halive h
  | none =>
    simp only [hmember] at h
    split at h
    · cases h
    · rename_i s₁ leadOf hteams
      split at h
      · cases h
      · rename_i s₂ hcreate
        obtain ⟨hrests, hmembers⟩ := leadTeams halive hteams
        have hid₁ : (s₁.member id).isSome := by
          unfold member at hid ⊢
          rwa [hmembers]
        obtain ⟨hcreated, hne, hsame⟩ := createUnder hid₁ hcreate
        refine hrests.trans (hcreated.trans (setLeads hne ?_ h))
        rw [hsame, alive_of_members hmembers, halive]

theorem teamUpdate (h : s.Sound) {actor : Pid} {c : TeamChanges} (halive : s.alive id = false)
    (hlead : led team → c.lead ≠ some none) (hp : s.teamUpdate actor team c = .ok s') :
    Rests id led still s s' := by
  obtain ⟨f, lead, hnew, rfl, hleads⟩ := teamUpdate_leads hp
  refine of_teams rfl rfl rfl rfl rfl (fun t ht hsome => ?_) fun t hgiven => ?_
  · rw [hleads]
    split
    · rename_i heq
      subst heq
      rcases newLead_cases hnew with ⟨-, rfl⟩ | ⟨hclear, -⟩ | ⟨x, -, rfl⟩
      · exact hsome
      · exact absurd hclear (hlead ht)
      · exact Option.some_ne_none x
    · exact hsome
  · rw [hleads] at hgiven
    split at hgiven
    · rename_i heq
      rcases newLead_ok h hnew with hsame | hlive
      · rw [heq, ← hsame]
        exact hgiven
      · rw [hlive id hgiven] at halive
        cases halive
    · exact hgiven

theorem retire (h : s.Sound) {actor : Pid} {ref : String} {refused : Hold → Bool}
    (halive : s.alive id = false)
    (hleads : ∀ x, s.resolve ref = some x → ∀ t, led t → s.leadOf t ≠ some x)
    (hp : s.retire actor ref refused = .ok s') : Rests id led still s s' := by
  obtain ⟨x, m, hresolve, hr⟩ := retire_retires h hp
  have hne : id ≠ x := by
    rintro rfl
    have hlive : s.alive id = true := alive_iff.mpr ⟨m, hr.there, hr.status⟩
    rw [hlive] at halive
    cases halive
  have hrow : s'.member id = s.member id := by
    rw [hr.others id hne, if_neg fun hc => by rw [hc.2] at halive; cases halive]
  have hlead : ∀ t, s'.leadOf t = if s.leadOf t = some x then none else s.leadOf t := fun t => by
    rw [leadOf_of_teams hr.teams, leadOf_unlead]
  refine ⟨by rw [hrow], by rw [namesOf, namesOf, hr.aliases], by rw [seatsOf, seatsOf, hr.seats], ?_,
    fun _ => ⟨hrow, by rw [placesOf, placesOf, hr.places]⟩, fun t ht hsome => ?_, fun t hgiven => ?_⟩
  · unfold lastRetirement
    rw [hr.record]
    simp [Ne.symm hne]
  · rw [hlead, if_neg (hleads x hresolve t ht)]
    exact hsome
  · rw [hlead] at hgiven
    split at hgiven
    · cases hgiven
    · exact hgiven

theorem reinstate {actor : Pid} {ref : String} (hother : s.resolve ref ≠ some id)
    (hp : s.reinstate actor ref = .ok s') : Rests id led still s s' := by
  obtain ⟨x, m, hresolve, -, -, rfl⟩ := reinstate_spec hp
  have hne : id ≠ x := by
    rintro rfl
    exact hother hresolve
  refine trans ?_ (update (fun _ => rfl) hne)
  obtain ⟨⟨ts, hframe⟩, hleads⟩ := regainLeads_spec x
    (((s.lastRetirement x).map Retirement.leadOf).getD []) s
  have hkeep : ∀ β (f : Store → β), (∀ ts, f { s with teams := ts } = f s) →
      f (s.regainLeads x (((s.lastRetirement x).map Retirement.leadOf).getD [])) = f s := by
    intro β f hf
    rw [hframe]
    exact hf ts
  refine of_teams (hkeep _ members fun _ => rfl) (hkeep _ aliases fun _ => rfl)
    (hkeep _ incarnations fun _ => rfl) (hkeep _ memberships fun _ => rfl)
    (hkeep _ retirements fun _ => rfl) (fun t _ hsome => ?_) fun t hgiven => ?_
  · rw [hleads]
    split
    · exact Option.some_ne_none x
    · exact hsome
  · rw [hleads] at hgiven
    split at hgiven
    · exact absurd (Option.some.inj hgiven).symm hne
    · exact hgiven

theorem place {newId : Pid → MemberId} : ∀ {xs : List Session} {taken : List String}
    {s s' : Store}, (s.member id).isSome → Store.place newId s taken xs = .ok s' →
    Rests id led still s s'
  | [], _, s, s', _, h => by
    obtain rfl := Except.ok.inj h
    exact refl
  | x :: xs, taken, s, s', hid, h => by
    rw [Store.place] at h
    split at h
    · cases h
    · simp only at h
      split at h
      · cases h
      · rename_i s₁ hcreate
        have hfirst : Rests id led still s s₁ := createMember hid hcreate
        have hid₁ : (s₁.member id).isSome := by
          have hsame := congrArg Option.isSome hfirst.self
          rw [Option.isSome_map, Option.isSome_map] at hsame
          rw [hsame, hid]
        exact hfirst.trans (updateFact.trans (place hid₁ h))

theorem reportFacts (daemon : String) : ∀ (facts : List Fact) (s : Store),
    Rests id led still s (facts.foldl (fun s f => s.reportFact daemon f) s) ∧
      (facts.foldl (fun s f => s.reportFact daemon f) s).member = s.member
  | [], _ => ⟨refl, rfl⟩
  | f :: facts, s => by
    have hfirst : s.Alike (s.reportFact daemon f) ∧
        (s.reportFact daemon f).retirements = s.retirements := by
      unfold reportFact
      simp only
      split
      · exact ⟨alike_updateFact, rfl⟩
      · exact ⟨⟨rfl, rfl, rfl, rfl, rfl⟩, rfl⟩
    obtain ⟨hrests, hmember⟩ := reportFacts daemon facts (s.reportFact daemon f)
    exact ⟨(of_alike hfirst.1 hfirst.2).trans hrests, hmember.trans (member_of_alike hfirst.1)⟩

theorem heartbeat {newId : Pid → MemberId} {daemon : String} {facts : List Fact} {marked : Bool}
    {old : List Pid} (hid : (s.member id).isSome)
    (h : s.heartbeat newId daemon facts marked old = .ok s') : Rests id led still s s' := by
  unfold Store.heartbeat at h
  simp only at h
  have hreported : Rests id led still s _ ∧ _ :=
    reportFacts daemon (facts.filter fun f => f.pid.startsWith ("agent:" ++ daemon ++ ":")) s
  obtain ⟨hrests, hmember⟩ := hreported
  split at h
  · obtain ⟨s₁, hplace, h⟩ := except_bind_ok.mp h
    obtain rfl := except_pure_ok.mp h
    refine hrests.trans ((place ?_ hplace).trans (of_alike ⟨rfl, rfl, rfl, rfl, rfl⟩ rfl))
    rw [hmember]
    exact hid
  · obtain ⟨s₁, hsame, h⟩ := except_bind_ok.mp h
    obtain rfl := Except.ok.inj hsame
    obtain rfl := except_pure_ok.mp h
    exact hrests.trans (of_alike ⟨rfl, rfl, rfl, rfl, rfl⟩ rfl)

theorem mono {still' : Prop} (h : Rests id led still s s') (hstill : still' → still) :
    Rests id led still' s s' :=
  ⟨h.self, h.names, h.seats, h.record, fun hs => h.placed (hstill hs), h.held, h.given⟩

end Rests

/-- The member is there, and retired. -/
def Dormant (s : Store) (id : MemberId) : Prop := ∃ m, s.member id = some m ∧ m.status = .retired

theorem Dormant.isSome (h : s.Dormant id) : (s.member id).isSome := by
  obtain ⟨m, hm, -⟩ := h
  rw [hm]
  rfl

theorem Dormant.alive (h : s.Dormant id) : s.alive id = false := by
  obtain ⟨m, hm, hretired⟩ := h
  simp [Store.alive, hm, hretired]

theorem Rests.dormant (h : Rests id led still s s') (hd : s.Dormant id) : s'.Dormant id := by
  obtain ⟨m, hm, hretired⟩ := hd
  have hself := h.self
  rw [hm, Option.map_some, Option.map_eq_some_iff] at hself
  obtain ⟨m', hm', hsame⟩ := hself
  refine ⟨m', hm', ?_⟩
  simp only [Member.self, Prod.mk.injEq] at hsame
  rw [hsame.2.2.1, hretired]

/-- The profile of a retired member is not edited. -/
theorem profile_alive (hd : s.Dormant id) {actor : Pid} {ref : String} {title mandate : Option String}
    (h : s.updateProfile actor ref title mandate = .ok s') :
    ∃ x, id ≠ x ∧ s' = s.update x fun m =>
      { m with title := title.getD m.title, mandate := mandate.getD m.mandate } := by
  unfold updateProfile at h
  obtain ⟨-, h⟩ := refuse_bind.mp h
  obtain ⟨-, h⟩ := refuse_bind.mp h
  cases hx : s.resolve ref with
  | none =>
    simp only [hx] at h
    cases h
  | some x =>
    cases hm : s.member x with
    | none =>
      simp only [hx, hm] at h
      cases h
    | some m =>
      simp only [hx, hm] at h
      obtain ⟨-, h⟩ := refuse_bind.mp h
      obtain ⟨hstatus, h⟩ := refuse_bind.mp h
      obtain ⟨_, -, h⟩ := except_bind_ok.mp h
      refine ⟨x, ?_, (except_pure_ok.mp h).symm⟩
      rintro rfl
      obtain ⟨m', hm', hretired⟩ := hd
      rw [hm] at hm'
      obtain rfl := Option.some.inj hm'
      exact hstatus hretired

/-- An operation that does not reverse the retirement leaves the member in rest. -/
theorem rests_perform (h : s.Sound) (hd : s.Dormant id) {o : Op} (hother : ¬ o.Reinstates id s)
    (hkeeps : o.KeepsLeads id led s) (hp : s.perform o = .ok s') :
    Rests id led (¬ o.Moves id s) s s' := by
  cases o with
  | roster actor newTeam x p row =>
    obtain ⟨_, -, hp⟩ := except_bind_ok.mp hp
    obtain ⟨-, hp⟩ := refuse_bind.mp hp
    exact .applyProposal hd.isSome hd.alive hkeeps hp
  | adopt actor x pid handle title kind team manager home =>
    obtain ⟨_, hcreate⟩ := adopt_ok hp
    exact .createMember hd.isSome hcreate
  | hire actor x handle title mandate manager team =>
    obtain ⟨_, hcreate⟩ := hire_ok hp
    exact .createMember hd.isSome hcreate
  | teamCreate actor authorized team n lead =>
    obtain ⟨_, hcreate⟩ := teamCreate_ok hp
    exact .createTeam hd.alive hcreate
  | teamUpdate actor team c => exact .teamUpdate h hd.alive hkeeps hp
  | rebind actor ref pid refused =>
    obtain ⟨x, m, old, acting, -, hm, -, hactive, -, -, -, rfl⟩ := rebindMain_ok hp
    have hne : id ≠ x := by
      rintro rfl
      obtain ⟨m', hm', hretired⟩ := hd
      rw [hm] at hm'
      obtain rfl := Option.some.inj hm'
      rw [hactive] at hretired
      cases hretired
    exact Rests.handBack.trans ((Rests.replaceMain hne pid _).trans
      (Rests.updateFact.trans Rests.updateFact))
  | close actor pid x killed refused =>
    obtain ⟨f, -, -, -, -, rfl⟩ := closeAssistant_ok hp
    exact Rests.handBack.trans Rests.updateFact
  | promote actor x pid handle title team manager refusedHome =>
    obtain ⟨_, _, _, _, _, _, _, -, -, -, -, -, -, -, -, hcreate, rfl⟩ := promote_ok hp
    exact (Rests.createUnder hd.isSome hcreate).1.trans Rests.updateFact
  | move actor ref manager team =>
    obtain ⟨x, m, acting, up, hresolve, -, -, -, -, hmove⟩ := move_ok hp
    obtain ⟨s₁, hup, hteam⟩ := moveTo_ok hmove
    have hne : ¬ (Op.move actor ref manager team).Moves id s → id ≠ x := by
      rintro hnot rfl
      exact hnot hresolve
    have hmanaged : Rests id led (¬ (Op.move actor ref manager team).Moves id s) s s₁ := by
      rcases hup with ⟨-, rfl⟩ | ⟨y, -, hset⟩
      · exact .refl
      · obtain ⟨-, rfl⟩ := setManager_ok hset
        exact .manage hne
    rcases hteam with ⟨-, rfl⟩ | ⟨t, -, rfl⟩
    · exact hmanaged
    · exact hmanaged.trans (.setPrimary hne)
  | retire actor ref refused => exact .retire h hd.alive hkeeps hp
  | reinstate actor ref => exact .reinstate hother hp
  | profile actor ref title mandate =>
    obtain ⟨x, hne, hrow⟩ := profile_alive hd hp
    subst hrow
    exact .update (fun _ => rfl) hne
  | heartbeat newId daemon facts marked old => exact .heartbeat hd.isSome hp
  | sessions rows =>
    obtain rfl := Except.ok.inj hp
    exact .of_alike ⟨rfl, rfl, rfl, rfl, rfl⟩ rfl
  | work tasks holds =>
    obtain rfl := Except.ok.inj hp
    exact .of_alike ⟨rfl, rfl, rfl, rfl, rfl⟩ rfl

theorem rests_step (h : s.Sound) (hd : s.Dormant id) {o : Op} (hother : ¬ o.Reinstates id s)
    (hkeeps : o.KeepsLeads id led s) : Rests id led (¬ o.Moves id s) s (s.step o) := by
  unfold step
  cases hp : s.perform o with
  | ok s' => exact rests_perform h hd hother hkeeps hp
  | error e => exact .refl

/-- A run of operations that do not reverse the retirement leaves the member in rest. -/
theorem rests_run : ∀ {ops : List Op} {s : Store}, s.Sound → s.Dormant id →
    Meets Store.step (fun s o => ¬ o.Reinstates id s ∧ o.KeepsLeads id led s) s ops →
    Rests id led (Meets Store.step (fun s o => ¬ o.Moves id s) s ops) s (ops.foldl Store.step s)
  | [], _, _, _, _ => .refl
  | o :: ops, s, h, hd, hmeets => by
    have hfirst := rests_step h hd hmeets.1.1 hmeets.1.2
    have hrest := rests_run (sound_run [o] h) (hfirst.dormant hd) hmeets.2
    exact (hfirst.mono fun hstill => hstill.1).trans (hrest.mono fun hstill => hstill.2)

end Store

end Org
