import Mathlib
import ClaudeManager.Org.Retired

/-!
# A retirement is undone

* `Op.SetsLead` — the operations that count as a change of a team's lead
* `Keyed` — team ids are unique, in every run
* `Undone` — what a reinstatement gives back
* `reinstate_undoes` — the runs between the two after which it gives back the right leads
-/

namespace Org

open Program

/-! ## Leads that were set -/

/-- The lead of a team changes, or is given by hand. -/
def Op.SetsLead (t : TeamId) (s : Store) (o : Op) : Prop :=
  (s.step o).leadOf t ≠ s.leadOf t ∨
    ∃ actor c s', o = .teamUpdate actor t c ∧ c.lead ≠ none ∧ s.perform o = .ok s'

namespace Store

variable {s s' : Store} {id x : MemberId} {t team : TeamId} {led : TeamId → Prop}
  {known : List TeamId}

/-- A team that has no lead after an operation had none before, and was not given one. -/
theorem not_setsLead {o : Op} (hlead : (s.step o).leadOf t = none) (hbefore : s.leadOf t = none)
    (ht : led t) (hkeeps : o.KeepsLeads id led s) : ¬ o.SetsLead t s := by
  rintro (hchanged | ⟨actor, c, s', rfl, hgiven, hp⟩)
  · exact hchanged (hlead.trans hbefore.symm)
  · have hstep : s.step (.teamUpdate actor t c) = s' := by
      unfold step
      rw [hp]
    obtain ⟨f, lead, hnew, rfl, hleads⟩ := teamUpdate_leads hp
    rw [hstep, hleads, if_pos rfl] at hlead
    rcases newLead_cases hnew with ⟨hnone, -⟩ | ⟨hclear, -⟩ | ⟨x, -, hx⟩
    · exact hgiven hnone
    · exact hkeeps ht hclear
    · rw [hx] at hlead
      cases hlead

/-- A team is still without a lead exactly where no operation set its lead. -/
theorem free_iff_unset : ∀ {ops : List Op} {s : Store}, s.Sound → s.Dormant id → led t →
    s.leadOf t = none →
    Meets Store.step (fun s o => ¬ o.Reinstates id s ∧ o.KeepsLeads id led s) s ops →
    ((ops.foldl Store.step s).leadOf t = none ↔
      Meets Store.step (fun s o => ¬ o.SetsLead t s) s ops)
  | [], _, _, _, _, hfree, _ => ⟨fun _ => trivial, fun _ => hfree⟩
  | o :: ops, s, h, hd, ht, hfree, hmeets => by
    have hfirst := rests_step h hd hmeets.1.1 hmeets.1.2
    have hsound : (s.step o).Sound := sound_run [o] h
    have hd₁ := hfirst.dormant hd
    by_cases hlead : (s.step o).leadOf t = none
    · have hunset := not_setsLead hlead hfree ht hmeets.1.2
      have hrest := free_iff_unset hsound hd₁ ht hlead hmeets.2
      exact ⟨fun hend => ⟨hunset, hrest.mp hend⟩, fun hend => hrest.mpr hend.2⟩
    · have hend := (rests_run hsound hd₁ hmeets.2).held t ht hlead
      refine ⟨fun hnone => absurd hnone hend, fun hunset => ?_⟩
      refine absurd (.inl ?_) hunset.1
      rw [hfree]
      exact hlead

/-! ## Teams have keys -/

/-- Each id names one team, and the known ones are there. -/
structure Keyed (known : List TeamId) (s : Store) : Prop where
  nodup : (s.teams.map Team.id).Nodup
  there : ∀ t ∈ known, t ∈ s.teams.map Team.id

namespace Keyed

theorem of_ids (h : Keyed known s) (hids : s'.teams.map Team.id = s.teams.map Team.id) : Keyed known s' :=
  ⟨hids ▸ h.nodup, hids ▸ h.there⟩

theorem of_teams (h : Keyed known s) (hteams : s'.teams = s.teams) : Keyed known s' := h.of_ids (by rw [hteams])

theorem updateTeam (h : Keyed known s) {f : Team → Team} (hf : ∀ t, (f t).id = t.id) :
    Keyed known (s.updateTeam team f) := by
  refine h.of_ids ?_
  unfold Store.updateTeam
  rw [List.map_map]
  refine List.map_congr_left fun t _ => ?_
  show (if t.id = team then f t else t).id = t.id
  split
  · exact hf t
  · rfl

theorem setLead (h : Keyed known s) : Keyed known (s.setLead team x) :=
  h.updateTeam fun t => by split <;> rfl

theorem createTeam (h : Keyed known s) {n : NewTeam} (hp : s.createTeam team n = .ok s') : Keyed known s' := by
  obtain ⟨-, hfresh, slug, hattach⟩ := createTeam_ok hp
  have hteams := (alike_attach hattach).1.teams
  refine ⟨?_, fun t ht => ?_⟩
  rotate_left
  · rw [hteams, List.map_append]
    exact List.mem_append_left _ (h.there t ht)
  rw [hteams, List.map_append, List.nodup_append]
  refine ⟨h.nodup, List.nodup_singleton _, fun a ha b hb hab => ?_⟩
  obtain ⟨t, ht, rfl⟩ := List.mem_map.mp ha
  rw [List.map_singleton, List.mem_singleton] at hb
  have hid : t.id = team := hab.trans hb
  exact List.find?_eq_none.mp hfresh t ht (decide_eq_true hid)

theorem leadTeam (h : Keyed known s) {newTeam : TaskId → TeamId} {lo : LeadOf}
    (hp : s.leadTeam newTeam lo = .ok (s', team)) : Keyed known s' := by
  unfold Store.leadTeam at hp
  split at hp
  · obtain ⟨rfl, -⟩ := Prod.mk.inj (Except.ok.inj hp)
    exact h
  · cases hp
  · split at hp
    · obtain ⟨rfl, -⟩ := Prod.mk.inj (Except.ok.inj hp)
      exact h
    · simp only at hp
      split at hp
      · rename_i hcreate
        obtain ⟨rfl, -⟩ := Prod.mk.inj (Except.ok.inj hp)
        exact h.createTeam hcreate
      · cases hp

theorem setLeads {newTeam : TaskId → TeamId} : ∀ {los : List LeadOf} {s s' : Store}, Keyed known s →
    Store.setLeads newTeam x s los = .ok s' → Keyed known s'
  | [], s, s', h, hp => by
    obtain rfl := Except.ok.inj hp
    exact h
  | lo :: los, s, s', h, hp => by
    rw [Store.setLeads] at hp
    split at hp
    · cases hp
    · rename_i hlead
      exact setLeads (h.leadTeam hlead).setLead hp

theorem leadTeams {newTeam : TaskId → TeamId} : ∀ {los los' : List LeadOf} {s s' : Store}, Keyed known s →
    Store.leadTeams newTeam s los = .ok (s', los') → Keyed known s'
  | [], los', s, s', h, hp => by
    obtain ⟨rfl, -⟩ := Prod.mk.inj (Except.ok.inj hp)
    exact h
  | lo :: los, los', s, s', h, hp => by
    rw [Store.leadTeams] at hp
    split at hp
    · split at hp
      · cases hp
      · rename_i hlead
        split at hp
        · cases hp
        · rename_i hrest
          obtain ⟨rfl, -⟩ := Prod.mk.inj (Except.ok.inj hp)
          exact leadTeams (h.leadTeam hlead) hrest
    · split at hp
      · cases hp
      · rename_i hrest
        obtain ⟨rfl, -⟩ := Prod.mk.inj (Except.ok.inj hp)
        exact leadTeams h hrest

theorem createUnder (h : Keyed known s) {manager : Option MemberId} {n : NewMember}
    (hp : s.createUnder manager n = .ok s') : Keyed known s' := by
  obtain ⟨up, -, -, rfl⟩ := createUnder_ok hp
  exact h.of_teams (alike_homeMark (s := s.enroll n up)).teams

theorem applyProposal (h : Keyed known s) {newTeam : TaskId → TeamId} {p : Proposal} {row : Row}
    (hp : s.applyProposal newTeam x p row = .ok s') : Keyed known s' := by
  unfold Store.applyProposal at hp
  cases hmember : p.member with
  | some member =>
    simp only [hmember] at hp
    exact h.setLeads hp
  | none =>
    simp only [hmember] at hp
    split at hp
    · cases hp
    · rename_i s₁ leadOf hteams
      split at hp
      · cases hp
      · rename_i s₂ hcreate
        exact ((h.leadTeams hteams).createUnder hcreate).setLeads hp

theorem handBack (h : Keyed known s) {source : Pid} {target : Option Pid} {refused : Hold → Bool} :
    Keyed known (s.handBack source target refused) :=
  h.of_teams alike_handBack.teams

theorem place {newId : Pid → MemberId} : ∀ {xs : List Session} {taken : List String}
    {s s' : Store}, Keyed known s → Store.place newId s taken xs = .ok s' → Keyed known s'
  | [], _, s, s', h, hp => by
    obtain rfl := Except.ok.inj hp
    exact h
  | x :: xs, taken, s, s', h, hp => by
    rw [Store.place] at hp
    split at hp
    · cases hp
    · simp only at hp
      split at hp
      · cases hp
      · rename_i s₁ hcreate
        have h₁ : Keyed known s₁ := h.createUnder hcreate
        exact place (s := s₁.updateFact x.pid _) (h₁.of_teams rfl) hp

theorem reportFacts (daemon : String) : ∀ (facts : List Fact) {s : Store}, Keyed known s →
    Keyed known (facts.foldl (fun s f => s.reportFact daemon f) s)
  | [], _, h => h
  | f :: facts, s, h => by
    have hteams : (s.reportFact daemon f).teams = s.teams := by
      unfold reportFact
      simp only
      split <;> rfl
    exact reportFacts daemon facts (h.of_teams hteams)

theorem perform (h : Keyed known s) (hsound : s.Sound) {o : Op} (hp : s.perform o = .ok s') : Keyed known s' := by
  cases o with
  | roster actor newTeam x p row =>
    obtain ⟨_, -, hp⟩ := except_bind_ok.mp hp
    obtain ⟨-, hp⟩ := refuse_bind.mp hp
    exact h.applyProposal hp
  | adopt actor x pid handle title kind team manager home =>
    obtain ⟨_, hcreate⟩ := adopt_ok hp
    exact h.createUnder hcreate
  | hire actor x handle title mandate manager team =>
    obtain ⟨_, hcreate⟩ := hire_ok hp
    exact h.createUnder hcreate
  | teamCreate actor authorized team n lead =>
    obtain ⟨_, hcreate⟩ := teamCreate_ok hp
    exact h.createTeam hcreate
  | teamUpdate actor team c =>
    change s.teamUpdate actor team c = .ok s' at hp
    unfold teamUpdate at hp
    obtain ⟨_, -, hp⟩ := except_bind_ok.mp hp
    split at hp
    · cases hp
    · obtain ⟨parent, -, hp⟩ := except_bind_ok.mp hp
      obtain ⟨lead, -, hp⟩ := except_bind_ok.mp hp
      obtain rfl := except_pure_ok.mp hp
      exact h.updateTeam fun _ => rfl
  | rebind actor ref pid refused =>
    obtain ⟨x, m, old, acting, -, -, -, -, -, -, -, rfl⟩ := rebindMain_ok hp
    exact h.handBack.of_teams rfl
  | close actor pid x killed refused =>
    obtain ⟨f, -, -, -, -, rfl⟩ := closeAssistant_ok hp
    exact h.handBack.of_teams rfl
  | promote actor x pid handle title team manager refusedHome =>
    obtain ⟨_, _, _, _, _, _, _, -, -, -, -, -, -, -, -, hcreate, rfl⟩ := promote_ok hp
    exact (h.createUnder hcreate).of_teams rfl
  | move actor ref manager team =>
    obtain ⟨x, m, acting, up, -, -, -, -, -, hmove⟩ := move_ok hp
    obtain ⟨s₁, hup, hteam⟩ := moveTo_ok hmove
    have hmanaged : s₁.teams = s.teams := by
      rcases hup with ⟨-, rfl⟩ | ⟨y, -, hset⟩
      · rfl
      · obtain ⟨-, rfl⟩ := setManager_ok hset
        rfl
    rcases hteam with ⟨-, rfl⟩ | ⟨t, -, rfl⟩
    · exact h.of_teams hmanaged
    · exact h.of_teams hmanaged
  | retire actor ref refused =>
    obtain ⟨x, m, -, hr⟩ := retire_retires hsound hp
    refine h.of_ids ?_
    rw [hr.teams]
    unfold unlead
    rw [List.map_map]
    refine List.map_congr_left fun t _ => ?_
    show (if t.lead = some x then { t with lead := none } else t).id = t.id
    split <;> rfl
  | reinstate actor ref =>
    obtain ⟨x, m, -, -, -, rfl⟩ := reinstate_spec hp
    have hregain : ∀ (led : List TeamId) (s : Store), Keyed known s → Keyed known (s.regainLeads x led) := by
      intro led
      induction led with
      | nil => exact fun _ h => h
      | cons team led ih => exact fun s h => ih _ h.setLead
    exact (hregain _ s h).of_teams rfl
  | profile actor ref title mandate =>
    obtain ⟨x, acting, -, -, -, -, rfl⟩ := updateProfile_ok hp
    exact h.of_teams rfl
  | heartbeat newId daemon facts marked old =>
    change s.heartbeat newId daemon facts marked old = .ok s' at hp
    unfold heartbeat at hp
    simp only at hp
    split at hp
    · obtain ⟨s₁, hplace, hp⟩ := except_bind_ok.mp hp
      obtain rfl := except_pure_ok.mp hp
      exact (place (h.reportFacts daemon _) hplace).of_teams rfl
    · obtain ⟨s₁, hsame, hp⟩ := except_bind_ok.mp hp
      obtain rfl := Except.ok.inj hsame
      obtain rfl := except_pure_ok.mp hp
      exact (h.reportFacts daemon _).of_teams rfl
  | sessions rows =>
    obtain rfl := Except.ok.inj hp
    exact h.of_teams rfl
  | work tasks holds =>
    obtain rfl := Except.ok.inj hp
    exact h.of_teams rfl

theorem run : ∀ (ops : List Op) {s : Store}, Keyed known s → s.Sound → Keyed known (ops.foldl Store.step s)
  | [], _, h, _ => h
  | o :: ops, s, h, hsound => by
    have hstep : Keyed known (s.step o) := by
      unfold step
      cases hp : s.perform o with
      | ok s' => exact h.perform hsound hp
      | error e => exact h
    exact run ops hstep (sound_run [o] hsound)

/-- The teams whose rows name a lead are the teams it leads. -/
theorem mem_ledBy (h : Keyed known s) : t ∈ s.ledBy id ↔ s.leadOf t = some id := by
  unfold ledBy leadOf
  constructor
  · intro ht
    obtain ⟨row, hrow, rfl⟩ := List.mem_map.mp ht
    obtain ⟨hrow, hlead⟩ := List.mem_filter.mp hrow
    have hfound : s.team row.id = some row := find?_of_mem h.nodup hrow
    rw [hfound]
    simpa using hlead
  · intro hlead
    obtain ⟨row, hrow, hlead⟩ := Option.bind_eq_some_iff.mp hlead
    have hid : row.id = t := by simpa using List.find?_some hrow
    exact List.mem_map.mpr
      ⟨row, List.mem_filter.mpr ⟨List.mem_of_find?_eq_some hrow, decide_eq_true hlead⟩, hid⟩

end Keyed

/-! ## What a reinstatement gives back -/

/-- A member that was retired at `s` and comes back at `s₃`, after `ops` from `s₁` to `s₂`. -/
structure Undone (id : MemberId) (s s₁ : Store) (ops : List Op) (s₂ s₃ : Store) : Prop where
  self : (s₃.member id).map Member.self = (s.member id).map Member.self
  names : s₃.namesOf id = s.namesOf id
  seats : s₃.seatsOf id = s.seatsOf id
  main : s₃.main id = s.main id
  /-- Its manager and its teams are those it had, if it was not moved by hand. -/
  placed : Meets Store.step (fun s o => ¬ o.Moves id s) s₁ ops →
    s₃.member id = s.member id ∧ s₃.placesOf id = s.placesOf id
  /-- It leads the teams it led whose lead nobody set since, and only them. -/
  leads : ∀ t, s₃.leadOf t = some id ↔
    s.leadOf t = some id ∧ Meets Store.step (fun s o => ¬ o.SetsLead t s) s₁ ops
  others : ∀ x, x ≠ id → s₃.member x = s₂.member x
  memberships : s₃.memberships = s₂.memberships
  led : ∀ t x, x ≠ id → (s₃.leadOf t = some x ↔ s₂.leadOf t = some x)

/-- A member that comes back at once: its reports stay with its manager. -/
structure Returned (id : MemberId) (s s₃ : Store) : Prop where
  teams : s₃.teams = s.teams
  memberships : s₃.memberships = s.memberships
  aliases : s₃.aliases = s.aliases
  incarnations : s₃.incarnations = s.incarnations
  row : s₃.member id = s.member id
  others : ∀ x, x ≠ id → s₃.member x =
    if s.manager x = some id ∧ s.alive x = true then
      (s.member x).map fun r => { r with manager := s.manager id }
    else s.member x

theorem statusBefore_record {st : MemberStatus} (hst : st ≠ .retired) (led : List TeamId) :
    statusBefore (some ⟨id, st, led⟩) = st := by
  cases st with
  | active => rfl
  | vacant => rfl
  | suspended => rfl
  | retired => exact absurd rfl hst

theorem regainLeads_rows : ∀ {led : List TeamId} {s : Store}, (s.regainLeads id led).teams =
    s.teams.map fun t => if t.id ∈ led ∧ t.lead = none then { t with lead := some id } else t
  | [], s => by simp [regainLeads]
  | team :: led, s => by
    show ((s.setLead team id).regainLeads id led).teams = _
    rw [regainLeads_rows]
    unfold setLead updateTeam
    rw [List.map_map]
    refine List.map_congr_left fun t _ => ?_
    by_cases hid : t.id = team
    · by_cases hfree : t.lead = none
      · simp [hid, hfree]
      · simp [hid, hfree]
    · simp [hid]

/-- The teams that lose their lead with a retirement get it back. -/
theorem regain_unlead (h : Keyed known s) :
    ((s.unlead id).regainLeads id (s.ledBy id)).teams = s.teams := by
  rw [regainLeads_rows]
  unfold unlead
  rw [List.map_map]
  refine (List.map_congr_left fun t ht => ?_).trans (List.map_id _)
  have hlead : t.id ∈ s.ledBy id ↔ t.lead = some id := by
    have hfound : s.team t.id = some t := find?_of_mem h.nodup ht
    rw [h.mem_ledBy, leadOf, hfound]
    rfl
  show (if (if t.lead = some id then { t with lead := none } else t).id ∈ s.ledBy id ∧ _
    then _ else _) = t
  by_cases hled : t.lead = some id
  · have hmem := hlead.mpr hled
    simp only [if_pos hled]
    rw [if_pos ⟨hmem, trivial⟩, ← hled]
  · have hmem : t.id ∉ s.ledBy id := fun hmem => hled (hlead.mp hmem)
    simp only [if_neg hled]
    rw [if_neg fun hc => hmem hc.1]

/-- Nobody leads a team without a row, and a known team has one. -/
theorem Keyed.isSome (h : Keyed known s) (ht : t ∈ known) : (s.team t).isSome := by
  obtain ⟨row, hrow, rfl⟩ := List.mem_map.mp (h.there t ht)
  have hfound : s.team row.id = some row := find?_of_mem h.nodup hrow
  rw [hfound]
  rfl

theorem Retires.dormant {m : Member} (h : s.Retires s' id m) : s'.Dormant id :=
  ⟨{ m with status := .retired }, h.row, rfl⟩

theorem Retires.leadOf {m : Member} (h : s.Retires s' id m) (t : TeamId) :
    s'.leadOf t = if s.leadOf t = some id then none else s.leadOf t := by
  rw [leadOf_of_teams h.teams, leadOf_unlead]

section

variable {s₁ s₂ s₃ : Store} {ops : List Op} {m : Member}

/-- What the reversal commits, read off the record of the retirement. -/
theorem reinstate_record (hr : s.Retires s₁ id m)
    (hrests : Rests id led (Meets Store.step (fun s o => ¬ o.Moves id s) s₁ ops) s₁ s₂)
    {actor : Pid} {ref : String} (hp : s₂.reinstate actor ref = .ok s₃)
    (hid : s₂.resolve ref = some id) :
    s₃ = (s₂.regainLeads id (s.ledBy id)).update id fun r => { r with status := m.status } := by
  obtain ⟨x, r, hresolve, -, -, rfl⟩ := reinstate_spec hp
  rw [hid] at hresolve
  obtain rfl := Option.some.inj hresolve
  have hrecord : s₂.lastRetirement id = some ⟨id, m.status, s.ledBy id⟩ := by
    rw [hrests.record]
    unfold lastRetirement
    rw [hr.record]
    simp
  rw [hrecord, statusBefore_record hr.status]
  rfl

theorem undone (hk : Keyed (s.ledBy id) s) (hr : s.Retires s₁ id m) (hsound : s₁.Sound)
    (hk₂ : Keyed (s.ledBy id) (ops.foldl Store.step s₁))
    (hmeets : Meets Store.step (fun s' o => ¬ o.Reinstates id s' ∧
      o.KeepsLeads id (fun t => s.leadOf t = some id) s') s₁ ops)
    {actor : Pid} {ref : String} (hp : (ops.foldl Store.step s₁).reinstate actor ref = .ok s₃)
    (hid : (ops.foldl Store.step s₁).resolve ref = some id) :
    Undone id s s₁ ops (ops.foldl Store.step s₁) s₃ := by
  have hrests := rests_run hsound hr.dormant hmeets
  have hs₃ := reinstate_record hr hrests hp hid
  obtain ⟨⟨ts, hframe⟩, hregain⟩ := 
    regainLeads_spec id (s.ledBy id) (ops.foldl Store.step s₁)
  generalize hs₂ : ops.foldl Store.step s₁ = s₂ at *
  have hmember : ∀ x, s₃.member x = if x = id then
      (s₂.member id).map fun r => { r with status := m.status } else s₂.member x := by
    intro x
    rw [hs₃, hframe]
    exact member_update fun _ => rfl
  have hleads : ∀ t, s₃.leadOf t = if t ∈ s.ledBy id ∧ (s₂.team t).isSome ∧ s₂.leadOf t = none
      then some id else s₂.leadOf t := by
    intro t
    rw [hs₃]
    exact hregain t
  have hrow : s₁.member id = some { m with status := .retired } := hr.row
  have hseats : s₃.seatsOf id = s.seatsOf id := by
    have hback : s₃.seatsOf id = s₂.seatsOf id := by
      rw [hs₃, hframe]
      rfl
    rw [hback, hrests.seats, seatsOf, seatsOf, hr.seats]
  have hplaces : s₃.memberships = s₂.memberships := by
    rw [hs₃, hframe]
    rfl
  refine ⟨?_, ?_, hseats, by rw [main_eq_seats, main_eq_seats, hseats], fun hstill => ⟨?_, ?_⟩,
    fun t => ⟨fun hlead => ?_, fun hlead => ?_⟩, fun x hx => ?_, hplaces, fun t x hx => ?_⟩
  · have hself := hrests.self
    rw [hrow, Option.map_some, Option.map_eq_some_iff] at hself
    obtain ⟨r, hr₂, hsame⟩ := hself
    rw [hmember, if_pos rfl, hr₂, hr.there]
    simp only [Member.self, Prod.mk.injEq] at hsame
    simp [Member.self, hsame]
  · have hback : s₃.namesOf id = s₂.namesOf id := by
      rw [hs₃, hframe]
      rfl
    rw [hback, hrests.names, namesOf, namesOf, hr.aliases]
  · rw [hmember, if_pos rfl, (hrests.placed hstill).1, hrow, hr.there]
    rfl
  · unfold placesOf
    rw [hplaces]
    exact (hrests.placed hstill).2.trans (by rw [placesOf, hr.places])
  · rw [hleads] at hlead
    split at hlead
    · rename_i hback
      have hled := hk.mem_ledBy.mp hback.1
      refine ⟨hled, ?_⟩
      have hfree : s₁.leadOf t = none := by rw [hr.leadOf, if_pos hled]
      rw [← hs₂] at hback
      exact (free_iff_unset hsound hr.dormant hled hfree hmeets).mp hback.2.2
    · -- a retired member leads nothing
      have hbefore := hrests.given t hlead
      rw [hr.leadOf] at hbefore
      split at hbefore
      · cases hbefore
      · rename_i hnot
        exact absurd hbefore hnot
  · have hfree : s₁.leadOf t = none := by rw [hr.leadOf, if_pos hlead.1]
    have hstill := (free_iff_unset hsound hr.dormant hlead.1 hfree hmeets).mpr hlead.2
    rw [hs₂] at hstill
    have hmem := hk.mem_ledBy.mpr hlead.1
    rw [hleads, if_pos ⟨hmem, hk₂.isSome hmem, hstill⟩]
  · rw [hmember, if_neg hx]
  · rw [hleads]
    split
    · rename_i hback
      rw [hback.2.2]
      simp [Ne.symm hx]
    · rfl

theorem returned (hk : Keyed (s.ledBy id) s) (hr : s.Retires s₁ id m) {actor : Pid} {ref : String}
    (hp : s₁.reinstate actor ref = .ok s₃) (hid : s₁.resolve ref = some id) : Returned id s s₃ := by
  have hrests : Rests id (fun _ => False) (Meets Store.step (fun s o => ¬ o.Moves id s) s₁ []) s₁ s₁ :=
    .refl
  have hs₃ := reinstate_record hr hrests hp hid
  obtain ⟨⟨ts, hframe⟩, -⟩ := regainLeads_spec id (s.ledBy id) s₁
  have hmember : ∀ x, s₃.member x = if x = id then
      (s₁.member id).map fun r => { r with status := m.status } else s₁.member x := by
    intro x
    rw [hs₃, hframe]
    exact member_update fun _ => rfl
  have hup : m.manager = s.manager id := by
    unfold manager
    rw [hr.there]
    rfl
  refine ⟨?_, ?_, ?_, ?_, ?_, fun x hx => ?_⟩
  · have hteams : s₃.teams = (s₁.regainLeads id (s.ledBy id)).teams := by
      rw [hs₃]
      rfl
    rw [hteams, ← regain_unlead hk, regainLeads_rows, regainLeads_rows, hr.teams]
  · rw [hs₃, hframe]
    exact hr.places
  · rw [hs₃, hframe]
    exact hr.aliases
  · rw [hs₃, hframe]
    exact hr.seats
  · rw [hmember, if_pos rfl, hr.row, hr.there]
    rfl
  · rw [hmember, if_neg hx, hr.others x hx, hup]

end

/-- A retirement is undone: after operations that leave no team the member led without a lead, its
reinstatement gives back what it had, and the leads that nobody set since. -/
theorem reinstate_undoes {before ops : List Op} {s s₁ s₃ : Store} {actor owner : Pid}
    {ref ref' : String} {refused : Hold → Bool} (hs : before.foldl Store.step seed = s)
    (hretire : s.retire actor ref refused = .ok s₁) (hid : s.resolve ref = some id)
    (hmeets : Meets Store.step (fun s' o => ¬ o.Reinstates id s' ∧
      o.KeepsLeads id (fun t => s.leadOf t = some id) s') s₁ ops)
    (hback : (ops.foldl Store.step s₁).reinstate owner ref' = .ok s₃)
    (hid' : (ops.foldl Store.step s₁).resolve ref' = some id) :
    Undone id s s₁ ops (ops.foldl Store.step s₁) s₃ ∧ (ops = [] → Returned id s s₃) := by
  have hsound : s.Sound := by
    rw [← hs]
    exact sound_run _ sound_seed
  have hkeyed : Keyed [] s := by
    rw [← hs]
    exact Keyed.run before ⟨List.nodup_nil, fun _ h => absurd h List.not_mem_nil⟩ sound_seed
  have hknown : Keyed (s.ledBy id) s := by
    refine ⟨hkeyed.nodup, fun t ht => ?_⟩
    obtain ⟨row, hrow, rfl⟩ := List.mem_map.mp ht
    exact List.mem_map_of_mem (List.mem_filter.mp hrow).1
  obtain ⟨x, m, hresolve, hr⟩ := retire_retires hsound hretire
  rw [hid] at hresolve
  obtain rfl := Option.some.inj hresolve
  have hstep : s.step (.retire actor ref refused) = s₁ := by
    unfold step
    have hp : s.perform (.retire actor ref refused) = .ok s₁ := hretire
    rw [hp]
  have hsound₁ : s₁.Sound := by
    rw [← hstep]
    exact sound_run [_] hsound
  have hknown₁ : Keyed (s.ledBy id) s₁ := hknown.perform (o := .retire actor ref refused) hsound hretire
  refine ⟨undone hknown hr hsound₁ (hknown₁.run ops hsound₁) hmeets hback hid', ?_⟩
  rintro rfl
  exact returned hknown hr hback hid'

/-- Ada leads a team, and Bob reports to her. -/
def adaLeads : List Op := [
  .hire ownerPid "mem_1" "ada" "" "" none none,
  .hire ownerPid "mem_2" "bob" "" "" (some "mem_1") none,
  .teamCreate ownerPid false "t" ⟨"core", .team, none, none, none⟩ (some "mem_1"),
  .teamCreate ownerPid false "u" ⟨"labs", .team, none, none, none⟩ (some "mem_1")]

/-- Bob takes one of the two teams over. -/
def bobTakesOver : List Op := [
  .teamUpdate ownerPid "t" ⟨some (some "mem_2"), none, none⟩]

/-- And leaves it again. -/
def bobLeaves : List Op := bobTakesOver ++ [.teamUpdate ownerPid "t" ⟨some none, none, none⟩]

def adaRetires : Store :=
  (adaLeads.foldl Store.step seed).step (.retire ownerPid "mem_1" fun _ => false)

theorem reinstate_undoes_takeover :
    Undone "mem_1" (adaLeads.foldl Store.step seed) adaRetires bobTakesOver
      (bobTakesOver.foldl Store.step adaRetires)
      ((bobTakesOver.foldl Store.step adaRetires).step (.reinstate ownerPid "mem_1")) ∧
    (bobTakesOver = [] → Returned "mem_1" (adaLeads.foldl Store.step seed)
      ((bobTakesOver.foldl Store.step adaRetires).step (.reinstate ownerPid "mem_1"))) := by
  have hretire : (adaLeads.foldl Store.step seed).retire ownerPid "mem_1" (fun _ => false) =
      .ok adaRetires := by decide +kernel
  have hback : (bobTakesOver.foldl Store.step adaRetires).reinstate ownerPid "mem_1" =
      .ok ((bobTakesOver.foldl Store.step adaRetires).step (.reinstate ownerPid "mem_1")) := by
    decide +kernel
  refine reinstate_undoes rfl hretire (by decide +kernel) ⟨⟨id, ?_⟩, trivial⟩ hback (by decide +kernel)
  intro _ hclear
  cases hclear

/-- The team had another lead since, and that lead was taken away: the reinstatement gives it. -/
theorem regained_after_another_lead :
    ¬ Undone "mem_1" (adaLeads.foldl Store.step seed) adaRetires bobLeaves
      (bobLeaves.foldl Store.step adaRetires)
      ((bobLeaves.foldl Store.step adaRetires).step (.reinstate ownerPid "mem_1")) := by
  intro h
  have hlead : ((bobLeaves.foldl Store.step adaRetires).step (.reinstate ownerPid "mem_1")).leadOf "t" =
      some "mem_1" := by decide +kernel
  have hunset := ((h.leads "t").mp hlead).2
  have hset : (adaRetires.step (.teamUpdate ownerPid "t" ⟨some (some "mem_2"), none, none⟩)).leadOf "t" ≠
      adaRetires.leadOf "t" := by decide +kernel
  exact hunset.1 (.inl hset)

end Store

end Org
