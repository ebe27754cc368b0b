import Mathlib
import ClaudeManager.Program.Runs
import ClaudeManager.Org.Edits

/-!
# The organization is a tree

* `Rooted` — managers lead to Owner, and who is not retired has a manager that is not
* `Led` — nobody retired leads a team
-/

namespace Org

open Relation Program

namespace Store

variable {s s' : Store} {id x : MemberId}

/-! ## What an update keeps -/

theorem map_member_update {β : Type} {f : Member → Member} {g : Member → β}
    (hf : ∀ m, (f m).id = m.id) (hg : ∀ m, g (f m) = g m) :
    ((s.update id f).member x).map g = (s.member x).map g := by
  rw [member_update hf]
  by_cases hx : x = id
  · subst hx
    rw [if_pos rfl, Option.map_map]
    congr 1
    funext m
    exact hg m
  · rw [if_neg hx]

theorem isSome_member_update {f : Member → Member} (hf : ∀ m, (f m).id = m.id) :
    ((s.update id f).member x).isSome = (s.member x).isSome := by
  rw [member_update hf]
  by_cases hx : x = id
  · subst hx
    rw [if_pos rfl, Option.isSome_map]
  · rw [if_neg hx]

theorem member_managed {up : Option MemberId} :
    (s.update id fun m => { m with manager := up }).member x =
      if x = id then (s.member id).map fun m => { m with manager := up } else s.member x :=
  member_update fun _ => rfl

theorem member_status {status : MemberStatus} :
    (s.update id fun m => { m with status := status }).member x =
      if x = id then (s.member id).map fun m => { m with status := status } else s.member x :=
  member_update fun _ => rfl

theorem member_generation {g : Nat} :
    (s.update id fun m => { m with generation := g }).member x =
      if x = id then (s.member id).map fun m => { m with generation := g } else s.member x :=
  member_update fun _ => rfl

theorem member_primary {team : Option TeamId} :
    (s.update id fun m => { m with primaryTeam := team }).member x =
      if x = id then (s.member id).map fun m => { m with primaryTeam := team } else s.member x :=
  member_update fun _ => rfl

theorem bind_eq_join {α β : Type} {o : Option α} {f : α → Option β} :
    o.bind f = (o.map f).join := by
  cases o <;> rfl

theorem manager_eq : s.manager x = ((s.member x).map Member.manager).join := bind_eq_join

theorem alive_eq : s.alive x = ((s.member x).map Member.status).any fun st => st ≠ .retired := by
  unfold alive
  cases s.member x <;> rfl

theorem manager_update {f : Member → Member} (hf : ∀ m, (f m).id = m.id)
    (hg : ∀ m, (f m).manager = m.manager) : (s.update id f).manager = s.manager := by
  funext x
  rw [manager_eq, manager_eq, map_member_update hf hg]

theorem manager_managed {up : Option MemberId} :
    (s.update id fun m => { m with manager := up }).manager x =
      if x = id ∧ (s.member x).isSome = true then up else s.manager x := by
  unfold manager
  rw [member_managed]
  by_cases hx : x = id
  · subst hx
    cases hm : s.member x <;> simp
  · simp [hx]

theorem alive_update {f : Member → Member} (hf : ∀ m, (f m).id = m.id)
    (hg : ∀ m, (f m).status = m.status) : (s.update id f).alive = s.alive := by
  funext x
  rw [alive_eq, alive_eq, map_member_update hf hg]

theorem alive_isSome (h : s.alive x = true) : (s.member x).isSome = true := by
  obtain ⟨m, hm, -⟩ := alive_iff.mp h
  rw [hm]
  rfl

theorem member_of_alike (h : s.Alike s') : s'.member = s.member := by
  funext x
  unfold member
  rw [h.members]

theorem manager_of_alike (h : s.Alike s') : s'.manager = s.manager := by
  funext x
  unfold manager
  rw [member_of_alike h]

theorem alive_of_alike (h : s.Alike s') : s'.alive = s.alive := by
  funext x
  unfold alive
  rw [member_of_alike h]

/-! ## What a new member adds -/

section Enroll

variable {n : NewMember} {up : MemberId}

/-- The row of a new member. -/
def rowOf (n : NewMember) (up : MemberId) : Member :=
  ⟨n.id, n.handle, n.kind, .active, some up, n.team, if n.pid.isSome then 1 else 0, n.title,
    n.mandate⟩

theorem member_enroll (h : s.member n.id = none) :
    (s.enroll n up).member x = if x = n.id then some (rowOf n up) else s.member x := by
  have hmember : (s.enroll n up).member x = (s.member x).or ([rowOf n up].find? fun m => m.id = x) := by
    simp only [member, enroll, List.find?_append]
    rfl
  rw [hmember]
  by_cases hx : x = n.id
  · subst hx
    rw [h, if_pos rfl, Option.none_or, List.find?_cons_of_pos]
    simp [rowOf]
  · have hne : ¬ n.id = x := fun he => hx he.symm
    have hnone : ([rowOf n up].find? fun m => m.id = x) = none := by
      simp [rowOf, hne]
    rw [hnone, if_neg hx, Option.or_none]

theorem manager_enroll (h : s.member n.id = none) :
    (s.enroll n up).manager x = if x = n.id then some up else s.manager x := by
  unfold manager
  rw [member_enroll h]
  by_cases hx : x = n.id
  · rw [if_pos hx, if_pos hx]
    rfl
  · rw [if_neg hx, if_neg hx]

/-- Who reports to whom stays as it was. -/
theorem edge_enroll (h : s.member n.id = none) {a b : MemberId} (hab : Edge s.manager a b) :
    Edge (s.enroll n up).manager a b := by
  have hm : s.manager a = some b := hab
  have hne : a ≠ n.id := by
    rintro rfl
    unfold manager at hm
    rw [h] at hm
    cases hm
  show (s.enroll n up).manager a = some b
  rw [manager_enroll h, if_neg hne]
  exact hm

theorem alive_enroll (h : s.member n.id = none) :
    (s.enroll n up).alive x = (decide (x = n.id) || s.alive x) := by
  unfold alive
  rw [member_enroll h]
  by_cases hx : x = n.id
  · rw [if_pos hx]
    simp [hx, rowOf]
  · rw [if_neg hx]
    simp [hx]

end Enroll

/-! ## Managers -/

/-- Managers lead to Owner, and who is not retired has a manager that is not. -/
structure Rooted (s : Store) : Prop where
  top : s.manager ownerId = none
  owner : s.alive ownerId = true
  rooted : ∀ x, (s.member x).isSome = true → ReflTransGen (Edge s.manager) x ownerId
  managed : ∀ x up, s.alive x = true → s.manager x = some up → s.alive up = true

namespace Rooted

theorem of_eq (h : s.Rooted) (hmember : ∀ x, (s'.member x).isSome = (s.member x).isSome)
    (hmanager : s'.manager = s.manager) (halive : s'.alive = s.alive) : s'.Rooted := by
  refine ⟨?_, ?_, ?_, ?_⟩
  · rw [hmanager]
    exact h.top
  · rw [halive]
    exact h.owner
  · intro x hx
    rw [hmember] at hx
    rw [hmanager]
    exact h.rooted x hx
  · rw [hmanager, halive]
    exact h.managed

theorem update (h : s.Rooted) {f : Member → Member} (hf : ∀ m, (f m).id = m.id)
    (hmanager : ∀ m, (f m).manager = m.manager) (hstatus : ∀ m, (f m).status = m.status) :
    (s.update id f).Rooted :=
  h.of_eq (fun _ => isSome_member_update hf) (manager_update hf hmanager) (alive_update hf hstatus)

theorem isSome_of_manager {up : MemberId} (h : s.manager x = some up) :
    (s.member x).isSome = true := by
  unfold manager at h
  cases hm : s.member x with
  | none =>
    rw [hm] at h
    cases h
  | some m => rfl

theorem acyclic (h : s.Rooted) : Acyclic (Edge s.manager) :=
  acyclic_of_rooted h.top fun a _ hab => h.rooted a (isSome_of_manager hab)

/-- A manager is a member. -/
theorem manager_known (h : s.Rooted) {up : MemberId} (hx : s.manager x = some up) :
    (s.member up).isSome = true := by
  rcases ReflTransGen.cases_head (h.rooted x (isSome_of_manager hx)) with rfl | ⟨c, hc, hreach⟩
  · rw [h.top] at hx
    cases hx
  · have hedge : s.manager x = some c := hc
    obtain rfl := Option.some.inj (hx.symm.trans hedge)
    rcases ReflTransGen.cases_head hreach with rfl | ⟨_, hup, -⟩
    · exact alive_isSome h.owner
    · exact isSome_of_manager hup

/-- Everyone but Owner has a manager. -/
theorem manager_isSome (h : s.Rooted) (hx : (s.member x).isSome = true) (hne : x ≠ ownerId) :
    ∃ up, s.manager x = some up := by
  rcases ReflTransGen.cases_head (h.rooted x hx) with heq | ⟨up, hup, -⟩
  · exact absurd heq hne
  · exact ⟨up, hup⟩

theorem enroll (h : s.Rooted) {n : NewMember} {up : MemberId} (hn : s.Enrollable n up) :
    (s.enroll n up).Rooted := by
  obtain ⟨hup, -⟩ := checkManager_ok.mp hn.manager
  have hedges : ∀ a b, Edge s.manager a b → Edge (s.enroll n up).manager a b :=
    fun _ _ => edge_enroll hn.fresh
  have howner : ownerId ≠ n.id := by
    intro he
    have hsome := alive_isSome h.owner
    rw [he, hn.fresh] at hsome
    cases hsome
  refine ⟨?_, ?_, ?_, ?_⟩
  · rw [manager_enroll hn.fresh, if_neg howner]
    exact h.top
  · rw [alive_enroll hn.fresh, h.owner, Bool.or_true]
  · intro x hx
    rw [member_enroll hn.fresh] at hx
    by_cases he : x = n.id
    · subst he
      have hedge : Edge (s.enroll n up).manager n.id up := by
        show (s.enroll n up).manager n.id = some up
        rw [manager_enroll hn.fresh, if_pos rfl]
      exact .head hedge (ReflTransGen.mono hedges _ _ (h.rooted up (alive_isSome hup)))
    · rw [if_neg he] at hx
      exact ReflTransGen.mono hedges _ _ (h.rooted x hx)
  · intro x y hx hy
    rw [manager_enroll hn.fresh] at hy
    rw [alive_enroll hn.fresh] at hx ⊢
    by_cases he : x = n.id
    · rw [if_pos he] at hy
      obtain rfl := Option.some.inj hy
      rw [hup, Bool.or_true]
    · rw [if_neg he] at hy
      simp only [he, decide_false, Bool.false_or] at hx
      rw [h.managed x y hx hy, Bool.or_true]

theorem manage (h : s.Rooted) {up : MemberId} (hid : id ≠ ownerId)
    (hcheck : s.checkManager id (some up) = .ok ()) :
    (s.update id fun m => { m with manager := some up }).Rooted := by
  obtain ⟨hup, hfree⟩ := checkManager_ok.mp hcheck
  have hkeep : ∀ m : Member, ({ m with manager := some up } : Member).id = m.id := fun _ => rfl
  have hother : ∀ x, x ≠ id →
      (s.update id fun m => { m with manager := some up }).manager x = s.manager x := by
    intro x hx
    rw [manager_managed, if_neg fun hc => hx hc.1]
  have halive : (s.update id fun m => { m with manager := some up }).alive = s.alive :=
    alive_update (fun _ => rfl) fun _ => rfl
  refine ⟨?_, ?_, ?_, ?_⟩
  · rw [hother ownerId (Ne.symm hid)]
    exact h.top
  · rw [halive]
    exact h.owner
  · intro x hx
    have hold : (s.member x).isSome = true := (isSome_member_update hkeep).symm.trans hx
    by_cases hthere : (s.member id).isSome = true
    · have hnew : (s.update id fun m => { m with manager := some up }).manager id = some up := by
        rw [manager_managed, if_pos ⟨rfl, hthere⟩]
      exact reaches_redirect hother hnew (h.rooted up (alive_isSome hup))
        (not_reaches_of_climbsFree hfree) (h.rooted x hold)
    · -- a member that is not there has no row to change
      have hsame : (s.update id fun m => { m with manager := some up }).manager = s.manager := by
        funext y
        rw [manager_managed, if_neg]
        rintro ⟨rfl, hy⟩
        exact hthere hy
      rw [hsame]
      exact h.rooted x hold
  · intro x y hx hy
    rw [halive] at hx ⊢
    rw [manager_managed] at hy
    by_cases he : x = id ∧ (s.member x).isSome = true
    · rw [if_pos he] at hy
      obtain rfl := Option.some.inj hy
      exact hup
    · rw [if_neg he] at hy
      exact h.managed x y hx hy

theorem alive_retired : (s.update id fun m => { m with status := .retired }).alive x =
    (s.alive x && decide (x ≠ id)) := by
  unfold alive
  rw [member_status]
  by_cases hx : x = id
  · subst hx
    rw [if_pos rfl]
    cases s.member x <;> simp
  · rw [if_neg hx]
    simp [hx]

theorem retire (h : s.Rooted) (hid : id ≠ ownerId)
    (hreports : ∀ x, s.manager x = some id → s.alive x = false) :
    (s.update id fun m => { m with status := .retired }).Rooted := by
  have hkeep : ∀ m : Member, ({ m with status := .retired } : Member).id = m.id := fun _ => rfl
  have hmanager : (s.update id fun m => { m with status := .retired }).manager = s.manager :=
    manager_update (fun _ => rfl) fun _ => rfl
  refine ⟨?_, ?_, ?_, ?_⟩
  · rw [hmanager]
    exact h.top
  · rw [alive_retired, h.owner]
    simpa using Ne.symm hid
  · intro x hx
    rw [hmanager]
    exact h.rooted x ((isSome_member_update hkeep).symm.trans hx)
  · intro x up hx hup
    rw [hmanager] at hup
    rw [alive_retired, Bool.and_eq_true] at hx
    have hne : up ≠ id := by
      rintro rfl
      rw [hreports x hup] at hx
      cases hx.1
    rw [alive_retired, h.managed x up hx.1 hup]
    simpa using hne

theorem alive_restored {status : MemberStatus} (hst : status ≠ .retired) (hx : s.alive x = true) :
    (s.update id fun m => { m with status := status }).alive x = true := by
  obtain ⟨m, hm, hne⟩ := alive_iff.mp hx
  rw [alive_iff, member_status]
  by_cases he : x = id
  · subst he
    rw [if_pos rfl, hm]
    exact ⟨_, rfl, hst⟩
  · rw [if_neg he]
    exact ⟨m, hm, hne⟩

theorem restore (h : s.Rooted) {status : MemberStatus} (hst : status ≠ .retired)
    (hup : ∀ up, s.manager id = some up → s.alive up = true) :
    (s.update id fun m => { m with status := status }).Rooted := by
  have hkeep : ∀ m : Member, ({ m with status := status } : Member).id = m.id := fun _ => rfl
  have hmanager : (s.update id fun m => { m with status := status }).manager = s.manager :=
    manager_update (fun _ => rfl) fun _ => rfl
  have halive : ∀ x, s.alive x = true →
      (s.update id fun m => { m with status := status }).alive x = true :=
    fun x hx => alive_restored hst hx
  refine ⟨?_, halive _ h.owner, ?_, ?_⟩
  · rw [hmanager]
    exact h.top
  · intro x hx
    rw [hmanager]
    exact h.rooted x ((isSome_member_update hkeep).symm.trans hx)
  · intro x up hx hm
    rw [hmanager] at hm
    refine halive up ?_
    by_cases he : x = id
    · subst he
      exact hup up hm
    · refine h.managed x up ?_ hm
      obtain ⟨m, hx, hne⟩ := alive_iff.mp hx
      rw [member_status, if_neg he] at hx
      exact alive_iff.mpr ⟨m, hx, hne⟩

/-- One change keeps the tree. -/
theorem edit (h : s.Rooted) {live quiet : Bool} (he : Edit live quiet s s') : s'.Rooted := by
  cases he with
  | rest halike hmarks hfacts =>
    refine h.of_eq (fun x => ?_) (manager_of_alike halike) (alive_of_alike halike)
    rw [member_of_alike halike]
  | enroll hn => exact h.enroll hn
  | manage hid hcheck => exact h.manage hid hcheck
  | teams hts => exact h.of_eq (fun _ => rfl) rfl rfl
  | retire hid hreports hled => exact h.retire hid hreports
  | restore hst hup => exact h.restore hst hup
  | reseat hm hid hpid hquiet =>
    exact h.of_eq (fun _ => isSome_member_update fun _ => rfl)
      (manager_update (fun _ => rfl) fun _ => rfl) (alive_update (fun _ => rfl) fun _ => rfl)
  | primary hm =>
    exact h.of_eq (fun _ => isSome_member_update fun _ => rfl)
      (manager_update (fun _ => rfl) fun _ => rfl) (alive_update (fun _ => rfl) fun _ => rfl)
  | profile => exact h.update (fun _ => rfl) (fun _ => rfl) fun _ => rfl

end Rooted

/-! ## Leads -/

/-- Nobody retired leads a team. -/
def Led (s : Store) : Prop := ∀ t ∈ s.teams, ∀ lead, t.lead = some lead → s.alive lead = true

theorem Led.of_eq (h : s.Led) (hteams : s'.teams = s.teams)
    (halive : ∀ x, s.alive x = true → s'.alive x = true) : s'.Led := by
  intro t ht lead hlead
  rw [hteams] at ht
  exact halive lead (h t ht lead hlead)

/-- One change keeps retired members from leading. -/
theorem Led.edit (h : s.Led) {quiet : Bool} (he : Edit true quiet s s') : s'.Led := by
  have hsame : s'.alive = s.alive → ∀ x, s.alive x = true → s'.alive x = true := by
    intro heq x hx
    rw [heq]
    exact hx
  cases he with
  | rest halike hmarks hfacts => exact h.of_eq halike.teams (hsame (alive_of_alike halike))
  | enroll hn =>
    refine h.of_eq rfl fun x hx => ?_
    rw [alive_enroll hn.fresh, hx, Bool.or_true]
  | manage hid hcheck =>
    exact h.of_eq rfl (hsame (alive_update (fun _ => rfl) fun _ => rfl))
  | teams hts =>
    intro t ht lead hlead
    rcases hts rfl t ht lead hlead with halive | ⟨t', ht', hlead'⟩
    · exact halive
    · exact h t' ht' lead hlead'
  | @retire id hid hreports hled =>
    intro t ht lead hlead
    have hne : lead ≠ id := by
      rintro rfl
      exact hled t ht hlead
    have hold := h t ht lead hlead
    rw [Rooted.alive_retired, hold]
    simpa using hne
  | restore hst hup => exact h.of_eq rfl fun x hx => Rooted.alive_restored hst hx
  | reseat hm hid hpid hquiet => exact h.of_eq rfl (hsame (alive_update (fun _ => rfl) fun _ => rfl))
  | primary hm => exact h.of_eq rfl (hsame (alive_update (fun _ => rfl) fun _ => rfl))
  | profile => exact h.of_eq rfl (hsame (alive_update (fun _ => rfl) fun _ => rfl))

end Store

end Org
