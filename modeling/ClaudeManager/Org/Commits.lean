import Mathlib
import ClaudeManager.Org.Seats

/-!
# What committed operations do

* `perform_edits` — a committed operation is a sequence of changes, unless it gives a team to a
  retired member
* `Advances` — generations grow with every change of main, and names stay with their members
-/

namespace Org

open Relation Program

namespace Store

variable {s s' : Store} {id x : MemberId} {live quiet : Bool}

/-! ## Teams -/

theorem alive_teams {ts : List Team} : ({ s with teams := ts } : Store).alive = s.alive := rfl

/-- A lead that is given to a team is a member that is not retired. -/
theorem edits_setLead {team : TeamId} (h : live = true → s.alive id = true) :
    Edits live quiet s (s.setLead team id) := by
  refine .single (Edit.teams fun hlive t ht lead hlead => ?_)
  obtain ⟨t₀, ht₀, rfl⟩ := List.mem_map.mp ht
  by_cases hteam : t₀.id = team
  · rw [if_pos hteam] at hlead
    by_cases hfree : t₀.lead = none
    · simp only [if_pos hfree] at hlead
      obtain rfl := Option.some.inj hlead
      exact .inl (h hlive)
    · simp only [if_neg hfree] at hlead
      exact .inr ⟨t₀, ht₀, hlead⟩
  · rw [if_neg hteam] at hlead
    exact .inr ⟨t₀, ht₀, hlead⟩

theorem alike_attach {team : TeamId} {task : Option TaskId} (h : s.attach team task = .ok s') :
    s.Alike s' ∧ s'.marks = s.marks ∧ s'.facts = s.facts := by
  unfold attach at h
  cases task with
  | none =>
    obtain rfl := Except.ok.inj h
    exact ⟨⟨rfl, rfl, rfl, rfl, rfl⟩, rfl, rfl⟩
  | some task =>
    simp only at h
    split at h
    · cases h
    · cases h
    · obtain rfl := Except.ok.inj h
      exact ⟨⟨rfl, rfl, rfl, rfl, rfl⟩, rfl, rfl⟩

theorem createTeam_ok {team : TeamId} {n : NewTeam} (h : s.createTeam team n = .ok s') :
    (∀ lead, n.lead = some lead → s.alive lead = true) ∧ s.team team = none ∧
      ∃ slug, attach { s with teams := s.teams ++
        [⟨team, slug, n.kind, n.lead, n.parent, n.coordinator, .active⟩] } team n.coordinator
          = .ok s' := by
  unfold createTeam at h
  cases hslug : normalizeHandle n.slug with
  | none =>
    simp only [hslug] at h
    cases h
  | some slug =>
    simp only [hslug] at h
    obtain ⟨-, h⟩ := refuse_bind.mp h
    obtain ⟨-, h⟩ := refuse_bind.mp h
    obtain ⟨hlead, h⟩ := refuse_bind.mp h
    obtain ⟨hfresh, h⟩ := refuse_bind.mp h
    obtain ⟨_, -, h⟩ := except_bind_ok.mp h
    refine ⟨?_, not_not.mp hfresh, slug, h⟩
    intro lead hl
    rw [hl] at hlead
    simpa using hlead

theorem edits_createTeam {team : TeamId} {n : NewTeam} (h : s.createTeam team n = .ok s') :
    Edits live quiet s s' := by
  obtain ⟨hlead, -, slug, hattach⟩ := createTeam_ok h
  obtain ⟨halike, hmarks, hfacts⟩ := alike_attach hattach
  refine .tail (.single (Edit.teams fun _ t ht lead hl => ?_)) (.rest halike (.inl hmarks) fun _ => hfacts)
  rcases List.mem_append.mp ht with ht | ht
  · exact .inr ⟨t, ht, hl⟩
  · rw [List.mem_singleton.mp ht] at hl
    exact .inl (hlead lead hl)

theorem members_createTeam {team : TeamId} {n : NewTeam} (h : s.createTeam team n = .ok s') :
    s'.members = s.members := by
  obtain ⟨-, -, slug, hattach⟩ := createTeam_ok h
  exact (alike_attach hattach).1.members

theorem leadTeam_ok {newTeam : TaskId → TeamId} {lo : LeadOf} {team : TeamId}
    (h : s.leadTeam newTeam lo = .ok (s', team)) : Edits live quiet s s' ∧ s'.members = s.members := by
  unfold leadTeam at h
  split at h
  · obtain ⟨rfl, -⟩ := Prod.mk.inj (Except.ok.inj h)
    exact ⟨.refl, rfl⟩
  · cases h
  · split at h
    · obtain ⟨rfl, -⟩ := Prod.mk.inj (Except.ok.inj h)
      exact ⟨.refl, rfl⟩
    · simp only at h
      split at h
      · rename_i hcreate
        obtain ⟨rfl, -⟩ := Prod.mk.inj (Except.ok.inj h)
        exact ⟨edits_createTeam hcreate, members_createTeam hcreate⟩
      · cases h

theorem alive_of_members (h : s'.members = s.members) : s'.alive = s.alive := by
  funext x
  unfold alive member
  rw [h]

theorem edits_setLeads {newTeam : TaskId → TeamId} : ∀ {los : List LeadOf} {s s' : Store},
    (live = true → s.alive id = true) → setLeads newTeam id s los = .ok s' → Edits live quiet s s'
  | [], s, s', _, h => by
    obtain rfl := Except.ok.inj h
    exact .refl
  | lo :: los, s, s', hid, h => by
    rw [setLeads] at h
    split at h
    · cases h
    · rename_i s₁ team hlead
      obtain ⟨hedits, hmembers⟩ := leadTeam_ok hlead
      have hid₁ : live = true → s₁.alive id = true := by
        rw [alive_of_members hmembers]
        exact hid
      exact hedits.trans ((edits_setLead hid₁).trans (edits_setLeads hid₁ h))

theorem leadTeams_ok {newTeam : TaskId → TeamId} : ∀ {los : List LeadOf} {s s' : Store}
    {los' : List LeadOf}, leadTeams newTeam s los = .ok (s', los') → Edits live quiet s s'
  | [], s, s', los', h => by
    obtain ⟨rfl, -⟩ := Prod.mk.inj (Except.ok.inj h)
    exact .refl
  | lo :: los, s, s', los', h => by
    rw [leadTeams] at h
    split at h
    · split at h
      · cases h
      · rename_i s₁ team hlead
        split at h
        · cases h
        · rename_i s₂ los₂ hrest
          obtain ⟨rfl, -⟩ := Prod.mk.inj (Except.ok.inj h)
          exact (leadTeam_ok hlead).1.trans (leadTeams_ok hrest)
    · split at h
      · cases h
      · rename_i s₂ los₂ hrest
        obtain ⟨rfl, -⟩ := Prod.mk.inj (Except.ok.inj h)
        exact leadTeams_ok hrest

/-! ## Members -/

theorem member_of_mem {m : Member} (h : (s.members.map Member.id).Nodup) (hm : m ∈ s.members) :
    s.member m.id = some m :=
  find?_of_mem h hm

theorem alike_homeMark {home : Option Home} : s.Alike (s.homeMark id home) := by
  unfold homeMark
  cases home with
  | none => exact ⟨rfl, rfl, rfl, rfl, rfl⟩
  | some h =>
    simp only
    split
    · exact ⟨rfl, rfl, rfl, rfl, rfl⟩
    · split <;> exact ⟨rfl, rfl, rfl, rfl, rfl⟩

theorem facts_homeMark {home : Option Home} : (s.homeMark id home).facts = s.facts := by
  unfold homeMark
  cases home with
  | none => rfl
  | some h =>
    simp only
    split
    · rfl
    · split <;> rfl

theorem alike_handBack {source : Pid} {target : Option Pid} {refused : Hold → Bool} :
    s.Alike (s.handBack source target refused) := by
  cases target with
  | none => exact ⟨rfl, rfl, rfl, rfl, rfl⟩
  | some target => exact ⟨rfl, rfl, rfl, rfl, rfl⟩

theorem marks_handBack {source : Pid} {target : Option Pid} {refused : Hold → Bool} :
    (s.handBack source target refused).marks = s.marks := by
  cases target with
  | none => rfl
  | some target => rfl

theorem facts_handBack {source : Pid} {target : Option Pid} {refused : Hold → Bool} :
    (s.handBack source target refused).facts = s.facts := by
  cases target with
  | none => rfl
  | some target => rfl

theorem alike_updateFact {pid : Pid} {f : Fact → Fact} : s.Alike (s.updateFact pid f) :=
  ⟨rfl, rfl, rfl, rfl, rfl⟩

theorem edits_createUnder {manager : Option MemberId} {n : NewMember}
    (h : s.createUnder manager n = .ok s') : Edits live quiet s s' ∧ s'.alive n.id = true := by
  obtain ⟨up, -, hn, rfl⟩ := createUnder_ok h
  refine ⟨.tail (.single (.enroll hn)) (.rest alike_homeMark (.inr ⟨_, _, rfl⟩) fun _ => facts_homeMark), ?_⟩
  rw [alive_of_alike alike_homeMark, alive_enroll hn.fresh, decide_eq_true rfl, Bool.true_or]

/-- A team that has a lead stays as it is. -/
def led (s : Store) (lo : LeadOf) : Bool :=
  match lo.team, lo.create with
  | some team, _ => s.teams.all fun t => t.id ≠ team || t.lead.isSome
  | none, some n =>
    (s.teams.find? fun t => t.coordinator.isSome && t.coordinator = n.coordinator).any fun team =>
      s.teams.all fun t => t.id ≠ team.id || t.lead.isSome
  | none, none => true

theorem setLead_led {team : TeamId}
    (h : (s.teams.all fun t => t.id ≠ team || t.lead.isSome) = true) : s.setLead team id = s := by
  have hteams : (s.teams.map fun t => if t.id = team then
      (if t.lead = none then { t with lead := some id } else t) else t) = s.teams := by
    conv_rhs => rw [← List.map_id s.teams]
    refine List.map_congr_left fun t ht => ?_
    by_cases hid : t.id = team
    · have hlead := List.all_eq_true.mp h t ht
      simp only [hid, ne_eq, not_true, decide_false, Bool.false_or] at hlead
      rw [if_pos hid, if_neg (Option.ne_none_iff_isSome.mpr hlead)]
      rfl
    · rw [if_neg hid]
      rfl
  unfold setLead updateTeam
  rw [hteams]

theorem setLeads_led {newTeam : TaskId → TeamId} : ∀ {los : List LeadOf},
    (∀ lo ∈ los, s.led lo = true) → setLeads newTeam id s los = .ok s' → s' = s
  | [], _, h => (Except.ok.inj h).symm
  | lo :: los, hled, h => by
    have hlo := hled lo List.mem_cons_self
    rw [setLeads] at h
    unfold leadTeam at h
    unfold led at hlo
    have hrest : ∀ lo ∈ los, s.led lo = true := fun lo hmem => hled lo (List.mem_cons_of_mem _ hmem)
    cases hteam : lo.team with
    | some team =>
      simp only [hteam] at h hlo
      rw [setLead_led hlo] at h
      exact setLeads_led hrest h
    | none =>
      cases hcreate : lo.create with
      | none =>
        simp only [hteam, hcreate] at h
        cases h
      | some n =>
        simp only [hteam, hcreate] at h hlo
        cases hfind : s.teams.find? fun t => t.coordinator.isSome && t.coordinator = n.coordinator with
        | none =>
          rw [hfind] at hlo
          cases hlo
        | some t =>
          simp only [hfind, Option.any_some] at h hlo
          rw [setLead_led hlo] at h
          exact setLeads_led hrest h

theorem edits_applyProposal {newTeam : TaskId → TeamId} {p : Proposal} {row : Row}
    (hp : live = true → ∀ member, p.member = some member →
      s.alive member = true ∨ ∀ lo ∈ p.leadOf, s.led lo = true)
    (h : s.applyProposal newTeam id p row = .ok s') : Edits live quiet s s' := by
  unfold applyProposal at h
  cases hmember : p.member with
  | some member =>
    simp only [hmember] at h
    cases live with
    | false => exact edits_setLeads (fun hlive => absurd hlive Bool.false_ne_true) h
    | true =>
      rcases hp rfl member hmember with halive | hled
      · exact edits_setLeads (fun _ => halive) h
      · obtain rfl := setLeads_led hled h
        exact .refl
  | none =>
    simp only [hmember] at h
    split at h
    · cases h
    · rename_i s₁ leadOf hteams
      split at h
      · cases h
      · rename_i s₂ hcreate
        obtain ⟨hedits, halive⟩ := edits_createUnder hcreate
        exact (leadTeams_ok hteams).trans (hedits.trans (edits_setLeads (fun _ => halive) h))

theorem resolve_isSome (h : s.Sound) {text : String} (hr : s.resolve text = some x) :
    (s.member x).isSome = true := by
  have halias : ∀ name, s.aliasOf name = some x → (s.member x).isSome = true := by
    intro name ha
    obtain ⟨a, hfound, rfl⟩ := Option.map_eq_some_iff.mp ha
    exact h.named.known a (List.mem_of_find?_eq_some hfound)
  unfold resolve at hr
  by_cases hempty : text = ""
  · rw [if_pos hempty] at hr
    cases hr
  · rw [if_neg hempty] at hr
    by_cases howner : text = ownerPid
    · rw [if_pos howner] at hr
      obtain rfl := Option.some.inj hr
      exact alive_isSome h.rooted.owner
    · rw [if_neg howner] at hr
      split at hr
      · obtain ⟨m, hm, rfl⟩ := Option.map_eq_some_iff.mp hr
        rw [member_id hm, hm]
        rfl
      · split at hr
        · cases hr
        · exact halias _ hr
        · split at hr
          · exact halias _ hr
          · cases hr

theorem setManager_ok {up : Option MemberId} (h : s.setManager id up = .ok s') :
    s.checkManager id up = .ok () ∧ s' = s.update id fun m => { m with manager := up } := by
  unfold setManager at h
  obtain ⟨_, hcheck, h⟩ := except_bind_ok.mp h
  exact ⟨hcheck, (except_pure_ok.mp h).symm⟩

theorem edits_setManager {up : MemberId} (hid : id ≠ ownerId)
    (h : s.setManager id (some up) = .ok s') : Edits live quiet s s' := by
  obtain ⟨hcheck, rfl⟩ := setManager_ok h
  exact .single (.manage hid hcheck)

/-- Reports go to their new manager, and nobody else is moved. -/
theorem moveReports_ok {up : MemberId} : ∀ {l : List MemberId} {s s' : Store},
    (∀ x ∈ l, x ≠ ownerId) → moveReports (some up) s l = .ok s' →
    Edits live quiet s s' ∧ (∃ ms, s' = { s with members := ms }) ∧ s'.alive = s.alive ∧
      (∀ x, x ∉ l → s'.member x = s.member x) ∧
      (∀ x, (s'.member x).isSome = (s.member x).isSome) ∧
      ∀ x, s'.manager x = if x ∈ l ∧ (s.member x).isSome = true then some up else s.manager x
  | [], s, s', _, h => by
    obtain rfl := Except.ok.inj h
    refine ⟨.refl, ⟨s.members, rfl⟩, rfl, fun _ _ => rfl, fun _ => rfl, fun x => ?_⟩
    rw [if_neg fun hx => List.not_mem_nil hx.1]
  | report :: l, s, s', hl, h => by
    rw [moveReports] at h
    obtain ⟨s₁, hs₁, h⟩ := except_bind_ok.mp h
    obtain ⟨hedits, ⟨ms, hframe⟩, halive, hothers, hmember, hmanager⟩ :=
      moveReports_ok (fun x hx => hl x (List.mem_cons_of_mem _ hx)) h
    have hfirst : Edits live quiet s s₁ := edits_setManager (hl report List.mem_cons_self) hs₁
    obtain ⟨-, rfl⟩ := setManager_ok hs₁
    have hsome : ∀ x, ((s.update report fun m => { m with manager := some up }).member x).isSome =
        (s.member x).isSome := fun _ => isSome_member_update fun _ => rfl
    refine ⟨hfirst.trans hedits, ⟨ms, hframe⟩,
      halive.trans (alive_update (fun _ => rfl) fun _ => rfl), fun x hx => ?_,
      fun x => (hmember x).trans (hsome x), fun x => ?_⟩
    · rw [hothers x fun hmem => hx (List.mem_cons_of_mem _ hmem), member_managed,
        if_neg fun he => hx (List.mem_cons.mpr (.inl he))]
    rw [hmanager, hsome, manager_managed]
    by_cases hx : (s.member x).isSome = true
    · simp only [hx, and_true, List.mem_cons]
      by_cases hmem : x ∈ l
      · rw [if_pos hmem, if_pos (.inr hmem)]
      · rw [if_neg hmem]
        by_cases he : x = report
        · rw [if_pos he, if_pos (.inl he)]
        · rw [if_neg he, if_neg fun hc => hc.elim he hmem]
    · simp [hx]

theorem frame_moveReports {up : MemberId} {l : List MemberId} (hl : ∀ x ∈ l, x ≠ ownerId)
    (h : moveReports (some up) s l = .ok s') :
    (∃ ms, s' = { s with members := ms }) ∧ ∀ x, x ∉ l → s'.member x = s.member x := by
  have hspec : Edits true true s s' ∧ _ := moveReports_ok hl h
  exact ⟨hspec.2.1, hspec.2.2.2.1⟩

theorem mem_reports {r : MemberId} (hx : s.manager x = some r) (halive : s.alive x = true) :
    x ∈ s.reports r := by
  obtain ⟨m, hm, hne⟩ := alive_iff.mp halive
  unfold manager at hx
  rw [hm] at hx
  refine List.mem_map.mpr ⟨m, List.mem_filter.mpr ⟨mem_of_member hm, ?_⟩, member_id hm⟩
  have hup : m.manager = some r := hx
  simp [hup, hne]

theorem reports_spec (h : s.Named) {r : MemberId} (hx : x ∈ s.reports r) :
    s.manager x = some r := by
  obtain ⟨m, hm, rfl⟩ := List.mem_map.mp hx
  obtain ⟨hm, hc⟩ := List.mem_filter.mp hm
  simp only [Bool.and_eq_true, decide_eq_true_eq] at hc
  unfold manager
  rw [member_of_mem h.ids hm]
  exact hc.1

/-! ## Operations -/

theorem alike_handUp {up : Option MemberId} {refused : Hold → Bool} :
    s.Alike (s.handUp id up refused) := by
  unfold handUp
  split
  · exact ⟨rfl, rfl, rfl, rfl, rfl⟩
  · exact alike_handBack

theorem marks_handUp {up : Option MemberId} {refused : Hold → Bool} :
    (s.handUp id up refused).marks = s.marks := by
  unfold handUp
  split
  · rfl
  · exact marks_handBack

theorem facts_handUp {up : Option MemberId} {refused : Hold → Bool} :
    (s.handUp id up refused).facts = s.facts := by
  unfold handUp
  split
  · rfl
  · exact facts_handBack

theorem edits_unlead : Edits live quiet s (s.unlead id) := by
  refine .single (Edit.teams fun hlive t ht lead hlead => ?_)
  obtain ⟨t₀, ht₀, rfl⟩ := List.mem_map.mp ht
  by_cases hled : t₀.lead = some id
  · simp [hled] at hlead
  · simp only [if_neg hled] at hlead
    exact .inr ⟨t₀, ht₀, hlead⟩

theorem unlead_spec {t : Team} (ht : t ∈ (s.unlead id).teams) : t.lead ≠ some id := by
  obtain ⟨t₀, ht₀, rfl⟩ := List.mem_map.mp ht
  by_cases hled : t₀.lead = some id
  · simp [hled]
  · simp [hled]

theorem edits_retire (h : s.Sound) {actor : Pid} {ref : String} {refused : Hold → Bool}
    (hp : s.retire actor ref refused = .ok s') : Edits live quiet s s' := by
  obtain ⟨id, m, acting, s₁, -, hm, howner, -, -, hmove, rfl⟩ := retire_ok hp
  have hsome : (s.member id).isSome = true := by
    rw [hm]
    rfl
  obtain ⟨up, hup⟩ := h.rooted.manager_isSome hsome howner
  have hmanager : m.manager = some up := by
    unfold manager at hup
    rw [hm] at hup
    exact hup
  rw [hmanager] at hmove ⊢
  have hreports : ∀ x ∈ s.reports id, x ≠ ownerId := by
    rintro x hx rfl
    have hself := reports_spec h.named hx
    rw [h.rooted.top] at hself
    cases hself
  obtain ⟨hedits, -, halive, -, -, hmoved⟩ := moveReports_ok hreports hmove
  have hne : up ≠ id := by
    rintro rfl
    exact h.rooted.acyclic up (.single hup)
  have halike : (s₁.unlead id).Alike ((s₁.unlead id).handUp id (some up) refused) := alike_handUp
  refine (hedits.trans edits_unlead).trans (.tail (.tail (.single (.rest halike (.inl marks_handUp) fun _ => facts_handUp))
    (.retire howner ?_ ?_)) (.rest ⟨rfl, rfl, rfl, rfl, rfl⟩ (.inl rfl) fun _ => rfl))
  · intro x hx
    rw [manager_of_alike halike] at hx
    rw [alive_of_alike halike]
    have hx₁ : s₁.manager x = some id := hx
    have halive₁ : (s₁.unlead id).alive x = s.alive x := by
      rw [← halive]
      rfl
    rw [halive₁]
    rw [hmoved] at hx₁
    -- whoever was moved has the other manager now
    by_contra hlive
    have hlive : s.alive x = true := by simpa using hlive
    by_cases hc : x ∈ s.reports id ∧ (s.member x).isSome = true
    · rw [if_pos hc] at hx₁
      exact hne (Option.some.inj hx₁)
    · rw [if_neg hc] at hx₁
      exact hc ⟨mem_reports hx₁ hlive, alive_isSome hlive⟩
  · intro t ht
    rw [halike.teams] at ht
    exact unlead_spec ht

theorem regainLeads_teams (id : MemberId) : ∀ (led : List TeamId) (s : Store),
    ∃ ts, s.regainLeads id led = { s with teams := ts } ∧
      ∀ t ∈ ts, ∀ lead, t.lead = some lead → lead = id ∨ ∃ t' ∈ s.teams, t'.lead = some lead
  | [], s => ⟨s.teams, rfl, fun t ht lead hlead => .inr ⟨t, ht, hlead⟩⟩
  | team :: led, s => by
    obtain ⟨ts, heq, hts⟩ := regainLeads_teams id led (s.setLead team id)
    refine ⟨ts, heq, fun t ht lead hlead => ?_⟩
    rcases hts t ht lead hlead with hid | ⟨t₁, ht₁, hlead₁⟩
    · exact .inl hid
    · obtain ⟨t₀, ht₀, rfl⟩ := List.mem_map.mp ht₁
      by_cases hteam : t₀.id = team
      · by_cases hfree : t₀.lead = none
        · simp only [if_pos hteam, if_pos hfree] at hlead₁
          exact .inl (Option.some.inj hlead₁).symm
        · simp only [if_pos hteam, if_neg hfree] at hlead₁
          exact .inr ⟨t₀, ht₀, hlead₁⟩
      · simp only [if_neg hteam] at hlead₁
        exact .inr ⟨t₀, ht₀, hlead₁⟩

theorem reinstate_ok {actor : Pid} {ref : String} (h : s.reinstate actor ref = .ok s') :
    ∃ id m status led, s.member id = some m ∧ status ≠ .retired ∧
      (∀ up, s.manager id = some up → (s.member up).isSome = true → s.alive up = true) ∧
      s' = (s.regainLeads id led).update id fun m => { m with status := status } := by
  unfold reinstate at h
  obtain ⟨_, -, h⟩ := except_bind_ok.mp h
  cases hid : s.resolve ref with
  | none =>
    simp only [hid] at h
    cases h
  | some id =>
    cases hm : s.member id with
    | none =>
      simp only [hid, hm] at h
      cases h
    | some m =>
      simp only [hid, hm] at h
      obtain ⟨-, h⟩ := refuse_bind.mp h
      obtain ⟨-, h⟩ := refuse_bind.mp h
      obtain ⟨hup, h⟩ := refuse_bind.mp h
      refine ⟨id, m, _, _, hm, ?_, ?_, (except_pure_ok.mp h).symm⟩
      · split <;> simp
      · intro up hmanager hsome
        unfold manager at hmanager
        rw [hm, Option.bind_some] at hmanager
        rw [hmanager, Option.bind_some] at hup
        obtain ⟨m', hm'⟩ := Option.isSome_iff_exists.mp hsome
        rw [hm'] at hup
        exact alive_iff.mpr ⟨m', hm', by simpa using hup⟩

theorem edits_reinstate (h : s.Sound) {actor : Pid} {ref : String}
    (hp : s.reinstate actor ref = .ok s') : Edits live quiet s s' := by
  obtain ⟨id, m, status, led, hm, hst, hup, rfl⟩ := reinstate_ok hp
  obtain ⟨ts, heq, hts⟩ := regainLeads_teams id led s
  rw [heq]
  have hguard : ∀ up, s.manager id = some up → s.alive up = true :=
    fun up hmanager => hup up hmanager (h.rooted.manager_known hmanager)
  refine .tail (.single (.restore hst hguard)) (Edit.teams fun _ t ht lead hlead => ?_)
  rcases hts t ht lead hlead with rfl | hold
  · refine .inl (alive_iff.mpr ⟨{ m with status := status }, ?_, hst⟩)
    rw [member_status, if_pos rfl, hm]
    rfl
  · exact .inr hold

theorem teamCreate_ok {actor : Pid} {authorized : Bool} {team : TeamId} {n : NewTeam}
    {lead : Option String} (h : s.teamCreate actor authorized team n lead = .ok s') :
    ∃ n, s.createTeam team n = .ok s' := by
  unfold teamCreate at h
  obtain ⟨-, h⟩ := refuse_bind.mp h
  cases lead with
  | none =>
    obtain ⟨lead, -, h⟩ := except_bind_ok.mp h
    obtain ⟨-, h⟩ := refuse_bind.mp h
    exact ⟨_, h⟩
  | some ref =>
    cases hr : s.resolve ref with
    | none =>
      simp only [hr] at h
      cases h
    | some id =>
      simp only [hr] at h
      obtain ⟨lead, -, h⟩ := except_bind_ok.mp h
      obtain ⟨-, h⟩ := refuse_bind.mp h
      exact ⟨_, h⟩

theorem edits_teamCreate {actor : Pid} {authorized : Bool} {team : TeamId} {n : NewTeam}
    {lead : Option String} (h : s.teamCreate actor authorized team n lead = .ok s') :
    Edits live quiet s s' := by
  obtain ⟨_, hcreate⟩ := teamCreate_ok h
  exact edits_createTeam hcreate

theorem newLead_ok (h : s.Sound) {given : Option (Option String)} {old new : Option MemberId}
    (hp : s.newLead given old = .ok new) :
    new = old ∨ ∀ lead, new = some lead → s.alive lead = true := by
  unfold newLead at hp
  split at hp
  · exact .inl (Except.ok.inj hp).symm
  · refine .inr fun lead hlead => ?_
    rw [← Except.ok.inj hp] at hlead
    cases hlead
  · rename_i ref
    cases hr : s.resolve ref with
    | none =>
      simp only [hr] at hp
      cases hp
    | some lead =>
      simp only [hr] at hp
      obtain ⟨hretired, hp⟩ := refuse_bind.mp hp
      refine .inr fun l hl => ?_
      rw [← except_pure_ok.mp hp] at hl
      obtain rfl := Option.some.inj hl
      obtain ⟨m, hm⟩ := Option.isSome_iff_exists.mp (resolve_isSome h hr)
      rw [hm] at hretired
      exact alive_iff.mpr ⟨m, hm, by simpa using hretired⟩

theorem edits_teamUpdate (h : s.Sound) {actor : Pid} {team : TeamId} {c : TeamChanges}
    (hp : s.teamUpdate actor team c = .ok s') : Edits live quiet s s' := by
  unfold teamUpdate at hp
  obtain ⟨_, -, hp⟩ := except_bind_ok.mp hp
  cases hteam : s.team team with
  | none =>
    simp only [hteam] at hp
    cases hp
  | some row =>
    simp only [hteam] at hp
    obtain ⟨parent, -, hp⟩ := except_bind_ok.mp hp
    obtain ⟨lead, hlead, hp⟩ := except_bind_ok.mp hp
    obtain rfl := except_pure_ok.mp hp
    refine .single (Edit.teams fun _ t ht l hl => ?_)
    obtain ⟨t₀, ht₀, rfl⟩ := List.mem_map.mp ht
    by_cases hid : t₀.id = team
    · simp only [if_pos hid] at hl
      rcases newLead_ok h hlead with rfl | halive
      · exact .inr ⟨row, List.mem_of_find?_eq_some hteam, hl⟩
      · exact .inl (halive l hl)
    · simp only [if_neg hid] at hl
      exact .inr ⟨t₀, ht₀, hl⟩

theorem adopt_ok {actor : Pid} {pid : Pid} {handle title : String} {kind : MemberKind}
    {team : Option TeamId} {manager : Option String} {home : Option Home}
    (h : s.adopt actor id pid handle title kind team manager home = .ok s') :
    ∃ n, s.createMember n = .ok s' := by
  unfold adopt at h
  obtain ⟨_, -, h⟩ := except_bind_ok.mp h
  cases hx : s.session pid with
  | none =>
    simp only [hx] at h
    cases h
  | some x =>
    simp only [hx] at h
    obtain ⟨-, h⟩ := refuse_bind.mp h
    split at h
    · cases h
    · exact ⟨_, h⟩
    · exact ⟨_, h⟩

theorem edits_adopt {actor : Pid} {pid : Pid} {handle title : String} {kind : MemberKind}
    {team : Option TeamId} {manager : Option String} {home : Option Home}
    (h : s.adopt actor id pid handle title kind team manager home = .ok s') : Edits live quiet s s' := by
  obtain ⟨_, hcreate⟩ := adopt_ok h
  exact (edits_createUnder hcreate).1

theorem hire_ok {actor : Pid} {handle title mandate : String} {manager : Option String}
    {team : Option TeamId} (h : s.hire actor id handle title mandate manager team = .ok s') :
    ∃ n, s.createMember n = .ok s' := by
  unfold hire at h
  obtain ⟨_, -, h⟩ := except_bind_ok.mp h
  obtain ⟨-, h⟩ := refuse_bind.mp h
  obtain ⟨-, h⟩ := refuse_bind.mp h
  exact ⟨_, h⟩

theorem edits_hire {actor : Pid} {handle title mandate : String} {manager : Option String}
    {team : Option TeamId} (h : s.hire actor id handle title mandate manager team = .ok s') :
    Edits live quiet s s' := by
  obtain ⟨_, hcreate⟩ := hire_ok h
  exact (edits_createUnder hcreate).1

theorem seated_of_alike (h : s.Alike s') {pid : Pid} : s'.seated pid = s.seated pid := by
  unfold seated
  rw [h.incarnations]

theorem edits_seat (source : Pid) (refused : Hold → Bool) {m : Member} {pid : Pid}
    (hm : s.member id = some m) (howner : id ≠ ownerId) (hseated : s.seated pid = false) :
    Edits live false s ((((s.handBack source (some pid) refused).replaceMain id pid
      (m.generation + 1)).updateFact source fun f => { f with actingAs := some .closed }).updateFact
      pid fun f => { f with member := some id, actingAs := some .main }) := by
  have halike : s.Alike (s.handBack source (some pid) refused) := alike_handBack
  have hm₁ : (s.handBack source (some pid) refused).member id = some m := by
    rw [member_of_alike halike]
    exact hm
  have hseated₁ : (s.handBack source (some pid) refused).seated pid = false := by
    rw [seated_of_alike halike]
    exact hseated
  exact ((halike.edits marks_handBack Bool.noConfusion).tail (.reseat hm₁ howner hseated₁ rfl)).trans
    ((alike_updateFact.edits rfl Bool.noConfusion).trans (alike_updateFact.edits rfl Bool.noConfusion))

theorem edits_rebindMain {actor : Pid} {ref : String} {pid : Pid} {refused : Hold → Bool}
    (h : s.rebindMain actor ref pid refused = .ok s') : Edits live false s s' := by
  obtain ⟨id, m, old, acting, -, hm, howner, -, -, hseated, -, rfl⟩ := rebindMain_ok h
  exact edits_seat old.pid refused hm howner hseated

theorem edits_closeAssistant {actor : Pid} {pid : Pid} {killed : Bool} {refused : Hold → Bool}
    (h : s.closeAssistant actor pid id killed refused = .ok s') : Edits live false s s' := by
  obtain ⟨f, -, -, -, -, rfl⟩ := closeAssistant_ok h
  exact (alike_handBack.edits marks_handBack Bool.noConfusion).trans
    (alike_updateFact.edits rfl Bool.noConfusion)

theorem edits_promote {actor : Pid} {pid : Pid} {handle title : String} {team : Option TeamId}
    {manager : Option String} {refusedHome : Bool}
    (h : s.promote actor id pid handle title team manager refusedHome = .ok s') : Edits live false s s' := by
  obtain ⟨x, f, boss, acting, up, given, s₁, -, -, -, -, -, -, -, -, hcreate, rfl⟩ := promote_ok h
  exact (edits_createUnder hcreate).1.trans (alike_updateFact.edits rfl Bool.noConfusion)

theorem edits_move {actor : Pid} {ref : String} {manager : Option String}
    {team : Option (Option TeamId)} (h : s.move actor ref manager team = .ok s') : Edits live quiet s s' := by
  obtain ⟨id, m, acting, up, -, hm, howner, -, -, hmove⟩ := move_ok h
  obtain ⟨s₁, hup, hteam⟩ := moveTo_ok hmove
  have hmanaged : Edits live quiet s s₁ ∧ (s₁.member id).isSome = true := by
    have hsome : (s.member id).isSome = true := by
      rw [hm]
      rfl
    rcases hup with ⟨-, rfl⟩ | ⟨y, -, hset⟩
    · exact ⟨.refl, hsome⟩
    · have hedits : Edits live quiet s s₁ := edits_setManager howner hset
      obtain ⟨-, rfl⟩ := setManager_ok hset
      refine ⟨hedits, ?_⟩
      rw [isSome_member_update]
      · exact hsome
      · exact fun _ => rfl
  rcases hteam with ⟨-, rfl⟩ | ⟨t, -, rfl⟩
  · exact hmanaged.1
  · obtain ⟨m₁, hm₁⟩ := Option.isSome_iff_exists.mp hmanaged.2
    exact hmanaged.1.tail (.primary hm₁)

theorem edits_updateProfile {actor : Pid} {ref : String} {title mandate : Option String}
    (h : s.updateProfile actor ref title mandate = .ok s') : Edits live quiet s s' := by
  obtain ⟨id, acting, -, -, -, -, rfl⟩ := updateProfile_ok h
  exact .single .profile

theorem edits_reportFact {daemon : String} {f : Fact} : Edits live false s (s.reportFact daemon f) := by
  unfold reportFact
  simp only
  split
  · exact alike_updateFact.edits rfl Bool.noConfusion
  · exact Alike.edits ⟨rfl, rfl, rfl, rfl, rfl⟩ rfl Bool.noConfusion

theorem edits_reportFacts {daemon : String} : ∀ {facts : List Fact} {s : Store},
    Edits live false s (facts.foldl (fun s f => s.reportFact daemon f) s)
  | [], _ => .refl
  | _ :: _, _ => edits_reportFact.trans edits_reportFacts

theorem edits_place {newId : Pid → MemberId} : ∀ {xs : List Session} {taken : List String}
    {s s' : Store}, place newId s taken xs = .ok s' → Edits live false s s'
  | [], _, s, s', h => by
    obtain rfl := Except.ok.inj h
    exact .refl
  | x :: xs, taken, s, s', h => by
    rw [place] at h
    split at h
    · cases h
    · simp only at h
      split at h
      · cases h
      · rename_i hcreate
        exact (edits_createUnder hcreate).1.trans ((alike_updateFact.edits rfl Bool.noConfusion).trans (edits_place h))

theorem edits_heartbeat {newId : Pid → MemberId} {daemon : String} {facts : List Fact}
    {marked : Bool} {old : List Pid} (h : s.heartbeat newId daemon facts marked old = .ok s') :
    Edits live false s s' := by
  unfold heartbeat at h
  simp only at h
  split at h
  · obtain ⟨s₁, hplace, h⟩ := except_bind_ok.mp h
    obtain rfl := except_pure_ok.mp h
    exact edits_reportFacts.trans ((edits_place hplace).tail (.rest ⟨rfl, rfl, rfl, rfl, rfl⟩ (.inl rfl) Bool.noConfusion))
  · obtain ⟨s₁, hsame, h⟩ := except_bind_ok.mp h
    obtain rfl := Except.ok.inj hsame
    obtain rfl := except_pure_ok.mp h
    exact edits_reportFacts.tail (.rest ⟨rfl, rfl, rfl, rfl, rfl⟩ (.inl rfl) Bool.noConfusion)

end Store

/-- No row of a roster gives a team that has no lead to a retired member. -/
def Op.LeadsAlive (s : Store) : Op → Prop
  | .roster actor _ _ p _ => actor = ownerPid → s.offers p = true →
      ∀ member, p.member = some member →
        s.alive member = true ∨ ∀ lo ∈ p.leadOf, s.led lo = true
  | _ => True

namespace Store

variable {s s' : Store} {live quiet : Bool}

/-- A committed operation is a sequence of changes. -/
theorem perform_edits (h : s.Sound) {o : Op} (ho : live = true → o.LeadsAlive s)
    (hp : s.perform o = .ok s') :
    Edits live false s s' := by
  cases o with
  | roster actor newTeam id p row =>
    obtain ⟨_, howner, hp⟩ := except_bind_ok.mp hp
    obtain ⟨hoffers, hp⟩ := refuse_bind.mp hp
    have hactor : actor = ownerPid := not_not.mp (refuse_ok.mp howner)
    exact edits_applyProposal (fun hlive => ho hlive hactor (by simpa using hoffers)) hp
  | adopt actor id pid handle title kind team manager home => exact edits_adopt hp
  | hire actor id handle title mandate manager team => exact edits_hire hp
  | teamCreate actor authorized id n lead => exact edits_teamCreate hp
  | teamUpdate actor id c => exact edits_teamUpdate h hp
  | rebind actor ref pid refused => exact edits_rebindMain hp
  | close actor pid id killed refused => exact edits_closeAssistant hp
  | promote actor id pid handle title team manager refusedHome => exact edits_promote hp
  | move actor ref manager team => exact edits_move hp
  | retire actor ref refused => exact edits_retire h hp
  | reinstate actor ref => exact edits_reinstate h hp
  | profile actor ref title mandate => exact edits_updateProfile hp
  | heartbeat newId daemon facts marked old => exact edits_heartbeat hp
  | sessions rows =>
    obtain rfl := Except.ok.inj hp
    exact Alike.edits ⟨rfl, rfl, rfl, rfl, rfl⟩ rfl Bool.noConfusion
  | work tasks holds =>
    obtain rfl := Except.ok.inj hp
    exact Alike.edits ⟨rfl, rfl, rfl, rfl, rfl⟩ rfl Bool.noConfusion

/-- A step is a sequence of changes, or none where it is refused. -/
theorem step_edits (h : s.Sound) {o : Op} : Edits false false s (s.step o) := by
  unfold step
  cases hp : s.perform o with
  | ok s' => exact perform_edits h (fun hlive => absurd hlive Bool.false_ne_true) hp
  | error e => exact .refl

theorem step_edits_live (h : s.Sound) {o : Op} (ho : o.LeadsAlive s) : Edits true false s (s.step o) := by
  unfold step
  cases hp : s.perform o with
  | ok s' => exact perform_edits h (fun _ => ho) hp
  | error e => exact .refl

theorem Led.edits (h : s.Led) {quiet : Bool} (he : Edits true quiet s s') : s'.Led := by
  induction he with
  | refl => exact h
  | tail _ hlast ih => exact ih.edit hlast

end Store

end Org
