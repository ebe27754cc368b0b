import Mathlib
import ClaudeManager.Program.Stateful
import ClaudeManager.Program.Tables
import ClaudeManager.Org.Operations

/-!
# What an operation does to the organization

Members, their names and seats, teams and memberships change in a few ways only. `Edit` lists
them, each with what was checked before.

* `Edit` — one change
* `createMember_ok`, `move_ok`, `retire_ok`, … — what a committed operation has checked and done
* `perform_edits` — a committed operation is a sequence of changes
-/

namespace Org

open Relation Program

/-! ## Guards -/

@[simp] theorem refuse_ok {bad : Prop} [Decidable bad] {status : Nat} {code : String} {u : Unit} :
    refuse bad status code = .ok u ↔ ¬ bad := by
  unfold refuse
  by_cases h : bad
  · simp [h]
  · simp [h]

/-- What a guard passes to is what is left of the write. -/
theorem refuse_bind {α : Type} {bad : Prop} [Decidable bad] {status : Nat} {code : String}
    {f : Unit → Except Refusal α} {a : α} :
    (refuse bad status code >>= f) = .ok a ↔ ¬ bad ∧ f () = .ok a := by
  rw [except_bind_ok]
  constructor
  · rintro ⟨_, h, ha⟩
    exact ⟨refuse_ok.mp h, ha⟩
  · rintro ⟨h, ha⟩
    exact ⟨(), refuse_ok.mpr h, ha⟩

namespace Store

variable {s s' : Store} {id x : MemberId}

/-! ## Members -/

theorem member_id {m : Member} (h : s.member id = some m) : m.id = id := by
  have hm := List.find?_some h
  simpa using hm

theorem mem_of_member {m : Member} (h : s.member id = some m) : m ∈ s.members :=
  List.mem_of_find?_eq_some h

theorem member_update {f : Member → Member} (hf : ∀ m, (f m).id = m.id) :
    (s.update id f).member x = if x = id then (s.member id).map f else s.member x :=
  find?_update fun m hm => (hf m).trans hm

theorem team_updateTeam {f : Team → Team} (hf : ∀ t, (f t).id = t.id) {t team : TeamId} :
    (s.updateTeam team f).team t = if t = team then (s.team team).map f else s.team t :=
  find?_update fun t ht => (hf t).trans ht

theorem fact_updateFact {f : Fact → Fact} (hf : ∀ x, (f x).pid = x.pid) {p pid : Pid} :
    (s.updateFact pid f).fact p = if p = pid then (s.fact pid).map f else s.fact p :=
  find?_update fun x hx => (hf x).trans hx

theorem alive_iff : s.alive id = true ↔ ∃ m, s.member id = some m ∧ m.status ≠ .retired := by
  unfold alive
  cases s.member id with
  | none => simp
  | some m => simp

/-- A manager is a live member, and its own managers do not lead back. -/
theorem checkManager_ok {up : MemberId} {u : Unit} :
    s.checkManager id (some up) = .ok u ↔
      s.alive up = true ∧ s.climbsFree id 1000 (some up) = true := by
  cases hup : s.member up with
  | none => simp [checkManager, alive, hup]
  | some m =>
    by_cases hm : m.status = .retired
    · simp [checkManager, alive, hup, hm]
    · simp [checkManager, alive, hup, hm]

/-- The walk ends before it comes to the member. -/
theorem not_reaches_of_climbsFree : ∀ {n : Nat} {cur : MemberId},
    s.climbsFree id n (some cur) = true → ¬ ReflTransGen (Edge s.manager) cur id
  | 0, _, h, _ => by
    rw [climbsFree] at h
    cases h
  | n + 1, cur, h, hreach => by
    rw [climbsFree, Bool.and_eq_true, decide_eq_true_eq] at h
    rcases ReflTransGen.cases_head hreach with heq | ⟨c, hc, hreach⟩
    · exact h.1 heq
    · have hedge : s.manager cur = some c := hc
      rw [hedge] at h
      exact not_reaches_of_climbsFree h.2 hreach

/-! ## Changes -/

/-- Members, names, seats, teams and memberships are the same. -/
structure Alike (s s' : Store) : Prop where
  members : s'.members = s.members
  aliases : s'.aliases = s.aliases
  incarnations : s'.incarnations = s.incarnations
  teams : s'.teams = s.teams
  memberships : s'.memberships = s.memberships

/-- What is checked before a member is written. -/
structure Enrollable (s : Store) (n : NewMember) (up : MemberId) : Prop where
  fresh : s.member n.id = none
  name : s.aliasOf n.handle = none
  manager : s.checkManager n.id (some up) = .ok ()
  pid : ∀ pid, n.pid = some pid → s.seated pid = false

/-- One change, with what was checked before. Where `live` is set, nobody retired is made a lead;
where `quiet` is set, no seat closes and the facts stay. -/
inductive Edit (live quiet : Bool) : Store → Store → Prop where
  | rest {s s' : Store} (h : s.Alike s')
      (hmarks : s'.marks = s.marks ∨ ∃ id home, s'.marks = (s.homeMark id home).marks)
      (hfacts : quiet = true → s'.facts = s.facts) : Edit live quiet s s'
  | enroll {s : Store} {n : NewMember} {up : MemberId} (h : s.Enrollable n up) :
      Edit live quiet s (s.enroll n up)
  | manage {s : Store} {id up : MemberId} (hid : id ≠ ownerId)
      (h : s.checkManager id (some up) = .ok ()) :
      Edit live quiet s (s.update id fun m => { m with manager := some up })
  | teams {s : Store} {ts : List Team}
      (h : live = true → ∀ t ∈ ts, ∀ lead, t.lead = some lead →
        s.alive lead = true ∨ ∃ t' ∈ s.teams, t'.lead = some lead) :
      Edit live quiet s { s with teams := ts }
  | retire {s : Store} {id : MemberId} (hid : id ≠ ownerId)
      (hreports : ∀ x, s.manager x = some id → s.alive x = false)
      (hled : ∀ t ∈ s.teams, t.lead ≠ some id) :
      Edit live quiet s (s.update id fun m => { m with status := .retired })
  | restore {s : Store} {id : MemberId} {status : MemberStatus} (hst : status ≠ .retired)
      (h : ∀ up, s.manager id = some up → s.alive up = true) :
      Edit live quiet s (s.update id fun m => { m with status := status })
  | reseat {s : Store} {id : MemberId} {m : Member} {pid : Pid} (hm : s.member id = some m)
      (hid : id ≠ ownerId) (hpid : s.seated pid = false) (hquiet : quiet = false) :
      Edit live quiet s (s.replaceMain id pid (m.generation + 1))
  | primary {s : Store} {id : MemberId} {m : Member} {team : Option TeamId}
      (hm : s.member id = some m) : Edit live quiet s (s.setPrimary id team)
  | profile {s : Store} {id : MemberId} {title mandate : Option String} :
      Edit live quiet s (s.update id fun m =>
        { m with title := title.getD m.title, mandate := mandate.getD m.mandate })

/-- Several changes, one after another. -/
abbrev Edits (live quiet : Bool) : Store → Store → Prop := ReflTransGen (Edit live quiet)

theorem Alike.edits {live quiet : Bool} (h : s.Alike s') (hmarks : s'.marks = s.marks)
    (hfacts : quiet = true → s'.facts = s.facts) : Edits live quiet s s' :=
  .single (.rest h (.inl hmarks) hfacts)

/-! ## What is committed -/

theorem createUnder_ok {manager : Option MemberId} {n : NewMember}
    (h : s.createUnder manager n = .ok s') :
    ∃ up, manager = some up ∧ s.Enrollable n up ∧
      s' = (s.enroll n up).homeMark n.id n.home := by
  unfold createUnder at h
  obtain ⟨_, -, h⟩ := except_bind_ok.mp h
  obtain ⟨-, h⟩ := refuse_bind.mp h
  obtain ⟨hname, h⟩ := refuse_bind.mp h
  cases manager with
  | none => cases h
  | some up =>
    obtain ⟨hpid, h⟩ := refuse_bind.mp h
    obtain ⟨-, h⟩ := refuse_bind.mp h
    obtain ⟨-, h⟩ := refuse_bind.mp h
    obtain ⟨-, h⟩ := refuse_bind.mp h
    obtain ⟨hfresh, h⟩ := refuse_bind.mp h
    obtain ⟨_, hmanager, h⟩ := except_bind_ok.mp h
    refine ⟨up, rfl, ⟨?_, ?_, hmanager, ?_⟩, (except_pure_ok.mp h).symm⟩
    · exact not_not.mp fun hne => hfresh (.inl hne)
    · exact not_not.mp hname
    · intro pid hp
      rw [hp] at hpid
      simpa using hpid

theorem rebindMain_ok {actor : Pid} {ref : String} {pid : Pid} {refused : Hold → Bool}
    (h : s.rebindMain actor ref pid refused = .ok s') :
    ∃ id m old acting, s.resolve ref = some id ∧ s.member id = some m ∧ id ≠ ownerId ∧
      m.status = .active ∧ s.requireChain actor id false = .ok acting ∧ s.seated pid = false ∧
      s.main id = some old ∧
      s' = ((((s.handBack old.pid (some pid) refused).replaceMain id pid (m.generation + 1)).updateFact
        old.pid fun f => { f with actingAs := some .closed }).updateFact
        pid fun f => { f with member := some id, actingAs := some .main }) := by
  unfold rebindMain at h
  cases hid : s.resolve ref with
  | none =>
    simp only [hid] at h
    cases h
  | some id =>
    cases hm : s.member id with
    | none =>
      simp only [hid, hm] at h
      cases h
    | some m =>
      simp only [hid, hm] at h
      obtain ⟨howner, h⟩ := refuse_bind.mp h
      obtain ⟨hactive, h⟩ := refuse_bind.mp h
      obtain ⟨acting, hacting, h⟩ := except_bind_ok.mp h
      cases hx : s.session pid with
      | none =>
        simp only [hx] at h
        cases h
      | some x =>
        simp only [hx] at h
        obtain ⟨-, h⟩ := refuse_bind.mp h
        obtain ⟨hseated, h⟩ := refuse_bind.mp h
        cases hold : s.main id with
        | none =>
          simp only [hold] at h
          cases h
        | some old =>
          simp only [hold] at h
          refine ⟨id, m, old, acting, rfl, hm, howner, not_not.mp hactive, hacting, ?_, hold,
            (except_pure_ok.mp h).symm⟩
          simpa using hseated

theorem closeAssistant_ok {actor : Pid} {pid : Pid} {killed : Bool} {refused : Hold → Bool}
    (h : s.closeAssistant actor pid id killed refused = .ok s') :
    ∃ f, (s.incarnations.any fun i => i.pid = pid && i.role = .main && i.open_) = false ∧
      s.fact pid = some f ∧ f.member = some id ∧
      (killed = false → ∃ acting, s.requireChain actor id true = .ok acting) ∧
      s' = (s.handBack pid ((s.main id).map Incarnation.pid) refused).updateFact pid
        fun f => { f with actingAs := some .closed } := by
  unfold closeAssistant at h
  obtain ⟨-, h⟩ := refuse_bind.mp h
  obtain ⟨hmain, h⟩ := refuse_bind.mp h
  cases hf : s.fact pid with
  | none =>
    simp only [hf] at h
    cases h
  | some f =>
    simp only [hf] at h
    obtain ⟨hmember, h⟩ := refuse_bind.mp h
    refine ⟨f, by simpa using hmain, rfl, ?_, ?_, ?_⟩
    · exact not_not.mp fun hne => hmember (.inr hne)
    · intro hk
      rw [if_pos hk] at h
      obtain ⟨acting, hacting, -⟩ := except_bind_ok.mp h
      exact ⟨acting, hacting⟩
    · by_cases hk : killed = false
      · rw [if_pos hk] at h
        obtain ⟨acting, -, h⟩ := except_bind_ok.mp h
        exact (except_pure_ok.mp h).symm
      · rw [if_neg hk] at h
        exact (except_pure_ok.mp h).symm

theorem promotePlace_ok {acting : Option MemberId} {boss up : MemberId} {manager : Option String}
    (h : s.promotePlace acting boss manager = .ok up) :
    up = boss ∨ s.requireDestination acting up = .ok () := by
  unfold promotePlace at h
  cases manager with
  | none => exact .inl (Except.ok.inj h).symm
  | some ref =>
    cases hup : s.resolve ref with
    | none =>
      simp only [hup] at h
      cases h
    | some y =>
      simp only [hup] at h
      obtain ⟨_, hdest, h⟩ := except_bind_ok.mp h
      obtain rfl := except_pure_ok.mp h
      exact .inr hdest

theorem promoteTeam_ok {acting : Option MemberId} {team given : Option TeamId}
    (h : s.promoteTeam acting team = .ok given) :
    ∀ id, given = some id → ∃ t, s.team id = some t ∧ (acting.isSome = true → t.lead = acting) := by
  unfold promoteTeam at h
  intro id hid
  cases team with
  | none =>
    have hnone : given = none := (Except.ok.inj h).symm
    rw [hnone] at hid
    cases hid
  | some team =>
    cases ht : s.team team with
    | none =>
      simp only [ht] at h
      cases h
    | some t =>
      simp only [ht] at h
      obtain ⟨hlead, h⟩ := refuse_bind.mp h
      obtain rfl := except_pure_ok.mp h
      obtain rfl := Option.some.inj hid
      exact ⟨t, ht, fun hacting => not_not.mp fun hne => hlead ⟨hacting, hne⟩⟩

theorem promote_ok {actor : Pid} {pid : Pid} {handle title : String} {team : Option TeamId}
    {manager : Option String} {refusedHome : Bool}
    (h : s.promote actor id pid handle title team manager refusedHome = .ok s') :
    ∃ x f boss acting up given s₁, s.session pid = some x ∧ s.seated pid = false ∧
      s.fact pid = some f ∧ f.actingAs = some .assistant ∧ f.member = some boss ∧
      s.requireChain actor boss true = .ok acting ∧ s.promotePlace acting boss manager = .ok up ∧
      s.promoteTeam acting team = .ok given ∧
      s.createUnder (some up) ⟨id, handle, .agent, title, "", some up, given, some pid,
        s.promoteHome f x.daemon boss refusedHome, [], none⟩ = .ok s₁ ∧
      s' = s₁.updateFact pid fun f => { f with actingAs := some .promoted } := by
  unfold promote at h
  cases hx : s.session pid with
  | none =>
    simp only [hx] at h
    cases h
  | some x =>
    simp only [hx] at h
    obtain ⟨-, h⟩ := refuse_bind.mp h
    obtain ⟨hseated, h⟩ := refuse_bind.mp h
    cases hf : s.fact pid with
    | none =>
      simp only [hf] at h
      cases h
    | some f =>
      simp only [hf] at h
      obtain ⟨-, h⟩ := refuse_bind.mp h
      by_cases hacts : f.actingAs = some .assistant
      · rw [if_pos hacts] at h
        cases hboss : f.member with
        | none =>
          simp only [hboss] at h
          cases h
        | some boss =>
          simp only [hboss] at h
          obtain ⟨-, h⟩ := refuse_bind.mp h
          obtain ⟨acting, hacting, h⟩ := except_bind_ok.mp h
          obtain ⟨up, hup, h⟩ := except_bind_ok.mp h
          obtain ⟨given, hgiven, h⟩ := except_bind_ok.mp h
          obtain ⟨s₁, hs₁, h⟩ := except_bind_ok.mp h
          exact ⟨x, f, boss, acting, up, given, s₁, rfl, by simpa using hseated, rfl, hacts, hboss,
            hacting, hup, hgiven, hs₁, (except_pure_ok.mp h).symm⟩
      · rw [if_neg hacts] at h
        cases h

theorem moveTo_ok {up : Option MemberId} {team : Option (Option TeamId)}
    (h : s.moveTo id up team = .ok s') :
    ∃ s₁, (up = none ∧ s₁ = s ∨ ∃ y, up = some y ∧ s.setManager id (some y) = .ok s₁) ∧
      (team = none ∧ s' = s₁ ∨ ∃ t, team = some t ∧ s' = s₁.setPrimary id t) := by
  unfold moveTo at h
  cases up with
  | none =>
    simp only at h
    refine ⟨s, .inl ⟨rfl, rfl⟩, ?_⟩
    cases team with
    | none => exact .inl ⟨rfl, (Except.ok.inj h).symm⟩
    | some t => exact .inr ⟨t, rfl, (Except.ok.inj h).symm⟩
  | some y =>
    obtain ⟨s₁, hs₁, h⟩ := except_bind_ok.mp h
    refine ⟨s₁, .inr ⟨y, rfl, hs₁⟩, ?_⟩
    cases team with
    | none => exact .inl ⟨rfl, (Except.ok.inj h).symm⟩
    | some t => exact .inr ⟨t, rfl, (Except.ok.inj h).symm⟩

theorem movePlace_ok {acting up : Option MemberId} {manager : Option String}
    (h : s.movePlace acting manager = .ok up) :
    ∀ y, up = some y → s.requireDestination acting y = .ok () := by
  unfold movePlace at h
  intro y hy
  cases manager with
  | none =>
    have hnone : up = none := (Except.ok.inj h).symm
    rw [hnone] at hy
    cases hy
  | some ref =>
    cases hup : s.resolve ref with
    | none =>
      simp only [hup] at h
      cases h
    | some z =>
      simp only [hup] at h
      obtain ⟨_, hdest, h⟩ := except_bind_ok.mp h
      have hsome : up = some z := (except_pure_ok.mp h).symm
      rw [hsome] at hy
      obtain rfl := Option.some.inj hy
      exact hdest

theorem move_ok {actor : Pid} {ref : String} {manager : Option String}
    {team : Option (Option TeamId)} (h : s.move actor ref manager team = .ok s') :
    ∃ id m acting up, s.resolve ref = some id ∧ s.member id = some m ∧ id ≠ ownerId ∧
      s.requireChain actor id false = .ok acting ∧ s.movePlace acting manager = .ok up ∧
      s.moveTo id up team = .ok s' := by
  unfold move at h
  obtain ⟨-, h⟩ := refuse_bind.mp h
  cases hid : s.resolve ref with
  | none =>
    simp only [hid] at h
    cases h
  | some id =>
    simp only [hid] at h
    obtain ⟨hthere, h⟩ := refuse_bind.mp h
    obtain ⟨acting, hacting, h⟩ := except_bind_ok.mp h
    obtain ⟨up, hup, h⟩ := except_bind_ok.mp h
    obtain ⟨-, h⟩ := refuse_bind.mp h
    cases hm : s.member id with
    | none => exact absurd (.inr hm) hthere
    | some m =>
      exact ⟨id, m, acting, up, rfl, hm, fun he => hthere (.inl he), hacting, hup, h⟩

theorem retire_ok {actor : Pid} {ref : String} {refused : Hold → Bool}
    (h : s.retire actor ref refused = .ok s') :
    ∃ id m acting s₁, s.resolve ref = some id ∧ s.member id = some m ∧ id ≠ ownerId ∧
      s.requireChain actor id false = .ok acting ∧ m.status ≠ .retired ∧
      moveReports m.manager s (s.reports id) = .ok s₁ ∧
      s' = { ((s₁.unlead id).handUp id m.manager refused).update id
          (fun m => { m with status := .retired }) with
        retirements := ⟨id, m.status, s.ledBy id⟩ ::
          ((s₁.unlead id).handUp id m.manager refused).retirements } := by
  unfold retire at h
  cases hid : s.resolve ref with
  | none =>
    simp only [hid] at h
    cases h
  | some id =>
    cases hm : s.member id with
    | none =>
      simp only [hid, hm] at h
      cases h
    | some m =>
      simp only [hid, hm] at h
      obtain ⟨howner, h⟩ := refuse_bind.mp h
      obtain ⟨acting, hacting, h⟩ := except_bind_ok.mp h
      obtain ⟨hretired, h⟩ := refuse_bind.mp h
      obtain ⟨s₁, hs₁, h⟩ := except_bind_ok.mp h
      exact ⟨id, m, acting, s₁, rfl, hm, howner, hacting, hretired, hs₁, (except_pure_ok.mp h).symm⟩

theorem updateProfile_ok {actor : Pid} {ref : String} {title mandate : Option String}
    (h : s.updateProfile actor ref title mandate = .ok s') :
    ∃ id acting, s.resolve ref = some id ∧ s.member id ≠ none ∧ id ≠ ownerId ∧
      s.requireChain actor id false = .ok acting ∧
      s' = s.update id fun m =>
        { m with title := title.getD m.title, mandate := mandate.getD m.mandate } := by
  unfold updateProfile at h
  obtain ⟨-, h⟩ := refuse_bind.mp h
  obtain ⟨-, h⟩ := refuse_bind.mp h
  cases hid : s.resolve ref with
  | none =>
    simp only [hid] at h
    cases h
  | some id =>
    cases hm : s.member id with
    | none =>
      simp only [hid, hm] at h
      cases h
    | some m =>
      simp only [hid, hm] at h
      obtain ⟨howner, h⟩ := refuse_bind.mp h
      obtain ⟨-, h⟩ := refuse_bind.mp h
      obtain ⟨acting, hacting, h⟩ := except_bind_ok.mp h
      refine ⟨id, acting, rfl, ?_, howner, hacting, (except_pure_ok.mp h).symm⟩
      rw [hm]
      exact Option.some_ne_none m

end Store

end Org
