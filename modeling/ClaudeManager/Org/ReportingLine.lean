import Mathlib
import ClaudeManager.Org.Confined

/-!
# Authority and the reporting line

* `Entitled`, `Near` — who should be accepted, and for whom this is decided right
* `Held`, `Op.Within` — what an accepted operation should keep to, and when it does
* `reporting_line` — both, in every state that is reached
-/

namespace Org

open Relation Program

namespace Store

variable {s s' : Store} {id a : MemberId} {actor : Pid}

/-- The session is the main of an active member up the chain, or of the member itself. -/
def Entitled (s : Store) (actor : Pid) (id : MemberId) (selfOk : Bool) : Prop :=
  ∃ a, s.ActsFor actor a ∧ s.Leads a id selfOk

def Accepts (s : Store) (actor : Pid) (id : MemberId) (selfOk : Bool) : Prop :=
  ∃ acting, s.requireChain actor id selfOk = .ok acting

/-- The member the session acts for is not more than 64 managers above this one. -/
def Near (s : Store) (actor : Pid) (id : MemberId) : Prop :=
  ∀ a, s.ActsFor actor a → s.Below a id → ∃ k < 64, climb s.manager (k + 1) id = some a

theorem accepts_iff (h : s.Sound) (hactor : actor ≠ ownerPid) {selfOk : Bool} :
    s.Accepts actor id selfOk ↔ ∃ a, s.ActsFor actor a ∧
      (selfOk = true ∧ id = a ∨ ∃ k < 64, climb s.manager (k + 1) id = some a) := by
  constructor
  · rintro ⟨acting, hok⟩
    obtain ⟨a, -, hacts⟩ := (requireChain_ok h hactor).mp hok
    exact ⟨a, hacts⟩
  · rintro ⟨a, hacts⟩
    exact ⟨some a, (requireChain_ok h hactor).mpr ⟨a, rfl, hacts⟩⟩

/-- Who is accepted is entitled to it. -/
theorem entitled_of_accepts (h : s.Sound) (hactor : actor ≠ ownerPid) {selfOk : Bool}
    (hok : s.Accepts actor id selfOk) : s.Entitled actor id selfOk := by
  obtain ⟨acting, hok⟩ := hok
  obtain ⟨a, -, hacts, hleads⟩ := leads_of_requireChain h hactor hok
  exact ⟨a, hacts, hleads⟩

theorem accepts_iff_entitled (h : s.Sound) (hactor : actor ≠ ownerPid) {selfOk : Bool} :
    (s.Accepts actor id selfOk ↔ s.Entitled actor id selfOk) ↔ s.Near actor id := by
  constructor
  · intro hiff a hacts hbelow
    obtain ⟨b, hb, hcase⟩ := (accepts_iff h hactor).mp (hiff.mpr ⟨a, hacts, .inl hbelow⟩)
    obtain rfl := hacts.unique h.seated hb
    rcases hcase with ⟨-, rfl⟩ | hclimb
    · exact absurd hbelow (h.rooted.acyclic id)
    · exact hclimb
  · intro hnear
    refine ⟨entitled_of_accepts h hactor, ?_⟩
    rintro ⟨a, hacts, hbelow | hself⟩
    · exact (accepts_iff h hactor).mpr ⟨a, hacts, .inr (hnear a hacts hbelow)⟩
    · exact (accepts_iff h hactor).mpr ⟨a, hacts, .inl hself⟩

/-- The operation was for a member in the line of the acting one, and kept to its subtree. -/
def Held (s s' : Store) (actor : Pid) (id : MemberId) (selfOk : Bool) : Prop :=
  ∃ a, s.ActsFor actor a ∧ s.Leads a id selfOk ∧ s.Confined s' a

end Store

/-- The operations that ask for a member up the chain: who acts, on whom, and whether the member
itself may. -/
def Op.chained (s : Store) : Op → Option (Pid × MemberId × Bool)
  | .rebind actor ref _ _ => (s.resolve ref).map fun id => (actor, id, false)
  | .close actor _ id killed _ => if killed then none else some (actor, id, true)
  | .promote actor _ pid _ _ _ _ _ => ((s.fact pid).bind Fact.member).map fun id => (actor, id, true)
  | .move actor ref _ _ => (s.resolve ref).map fun id => (actor, id, false)
  | .retire actor ref _ => (s.resolve ref).map fun id => (actor, id, false)
  | .profile actor ref _ _ => (s.resolve ref).map fun id => (actor, id, false)
  | _ => none

/-- A new main session was not started for a member outside of the acting one's subtree, and a
member that moves joins no team that is led from outside of it. -/
def Op.Within (s : Store) : Op → Prop
  | .rebind actor _ pid _ =>
    ∀ a x, s.ActsFor actor a → (s.fact pid).bind Fact.member = some x → s.Under a x
  | .move actor ref _ (some (some team)) =>
    ∀ id a, s.resolve ref = some id → s.ActsFor actor a → s.Belongs id team ∨
      ∃ t lead, s.team team = some t ∧ t.lead = some lead ∧ s.Under a lead
  | _ => True

namespace Store

variable {s s' : Store} {id a : MemberId} {actor : Pid}

/-- Owner acts for no member. -/
theorem ActsFor.ne_owner (h : s.Vacant) (ha : s.ActsFor actor a) : a ≠ ownerId := by
  obtain ⟨i, hi, -, -, -, rfl, -⟩ := ha
  exact h i hi

theorem ActsFor.isSome (ha : s.ActsFor actor a) : (s.member a).isSome = true := by
  obtain ⟨i, -, -, -, -, -, m, hm, -⟩ := ha
  rw [hm]
  rfl

theorem held_profile (h : s.Sound) (hactor : actor ≠ ownerPid) {ref : String}
    {title mandate : Option String} (hid : s.resolve ref = some id)
    (hp : s.updateProfile actor ref title mandate = .ok s') : s.Held s' actor id false := by
  obtain ⟨id', acting, hid', -, -, hok, rfl⟩ := updateProfile_ok hp
  obtain rfl := Option.some.inj (hid.symm.trans hid')
  obtain ⟨a, rfl, hacts, hleads⟩ := leads_of_requireChain h hactor hok
  exact ⟨a, hacts, hleads, confined_profile hleads.under⟩

theorem held_close (h : s.Sound) (hactor : actor ≠ ownerPid) {pid : Pid} {refused : Hold → Bool}
    (hp : s.closeAssistant actor pid id false refused = .ok s') : s.Held s' actor id true := by
  obtain ⟨f, hmain, hf, hmember, hchain, rfl⟩ := closeAssistant_ok hp
  obtain ⟨acting, hok⟩ := hchain rfl
  obtain ⟨a, rfl, hacts, hleads⟩ := leads_of_requireChain h hactor hok
  exact ⟨a, hacts, hleads, confined_close h hmain hf hmember hleads.under⟩

theorem held_retire (h : s.Sound) (hactor : actor ≠ ownerPid) {ref : String}
    {refused : Hold → Bool} (hid : s.resolve ref = some id)
    (hp : s.retire actor ref refused = .ok s') : s.Held s' actor id false := by
  obtain ⟨id', m, acting, s₁, hid', -, -, hok, -, -, -⟩ := retire_ok hp
  obtain rfl := Option.some.inj (hid.symm.trans hid')
  obtain ⟨a, rfl, hacts, hleads⟩ := leads_of_requireChain h hactor hok
  rcases hleads with hbelow | ⟨hself, -⟩
  · exact ⟨a, hacts, .inl hbelow, confined_retire h hp hid (hacts.ne_owner h.vacant) hbelow⟩
  · cases hself

theorem held_promote (h : s.Sound) (hactor : actor ≠ ownerPid) {new : MemberId} {pid : Pid}
    {handle title : String} {team : Option TeamId} {manager : Option String} {refusedHome : Bool}
    (hid : (s.fact pid).bind Fact.member = some id)
    (hp : s.promote actor new pid handle title team manager refusedHome = .ok s') :
    s.Held s' actor id true := by
  obtain ⟨x, f, boss, acting, up, given, s₁, -, hseated, hf, -, hboss, hok, hup, hgiven, hcreate,
    rfl⟩ := promote_ok hp
  rw [hf, Option.bind_some, hboss] at hid
  obtain rfl := Option.some.inj hid
  obtain ⟨a, rfl, hacts, hleads⟩ := leads_of_requireChain h hactor hok
  obtain ⟨up', hsame, hn, rfl⟩ := createUnder_ok hcreate
  obtain rfl := Option.some.inj hsame
  have hmember : s.memberOf pid = some boss := by
    rw [memberOf_fact (no_main_of_seated hseated), hf]
    exact hboss
  have hunder : s.Under a up := by
    rcases promotePlace_ok hup with rfl | hdest
    · exact hleads.under
    · exact under_of_destination h.rooted hdest
  refine ⟨a, hacts, hleads, confined_promote hn rfl rfl rfl hunder hmember hleads.under ?_ ?_⟩
  · intro t ht
    obtain ⟨row, hrow, hlead⟩ := promoteTeam_ok hgiven t ht
    exact ⟨row, a, hrow, hlead rfl, .refl⟩
  · intro w hw m hm hd hws x hx
    exact promoteHome_spec h.marked hw hm hd hws hx

theorem held_rebind (h : s.Sound) (hactor : actor ≠ ownerPid) {ref : String} {pid : Pid}
    {refused : Hold → Bool} (hid : s.resolve ref = some id)
    (hp : s.rebindMain actor ref pid refused = .ok s') : s.Held s' actor id false ↔
      ∀ a x, s.ActsFor actor a → (s.fact pid).bind Fact.member = some x → s.Under a x := by
  obtain ⟨id', m, old, acting, hid', hm, howner, -, hok, hseated, hold, rfl⟩ := rebindMain_ok hp
  obtain rfl := Option.some.inj (hid.symm.trans hid')
  obtain ⟨a, rfl, hacts, hleads⟩ := leads_of_requireChain h hactor hok
  constructor
  · rintro ⟨b, hb, -, hconfined⟩ c x hc hx
    obtain rfl := hb.unique h.seated hc
    obtain rfl := hacts.unique h.seated hb
    by_contra hnot
    have hne : id ≠ x := by
      rintro rfl
      exact hnot hleads.under
    -- the session changes hands
    obtain ⟨f, hf, hmember⟩ := Option.bind_eq_some_iff.mp hx
    have hset : ∀ t : Store, (t.updateFact pid
        fun f => { f with member := some id, actingAs := some .main }).fact pid =
          (t.fact pid).map fun f => { f with member := some id, actingAs := some .main } := by
      intro t
      rw [fact_updateFact, if_pos rfl]
      exact fun _ => rfl
    have hmine := hconfined.facts pid (fun hsame => by
      rw [hset, hf] at hsame
      obtain ⟨g, -, hg⟩ := Option.map_eq_some_iff.mp hsame
      rw [← hg] at hmember
      exact hne (Option.some.inj hmember)) x (by
        rw [memberOf_fact (no_main_of_seated hseated)]
        exact hx)
    rcases hmine with hunder | ⟨-, hunder⟩
    · exact hnot hunder
    · have hmanager : (s.update id fun m' => { m' with generation := m.generation + 1 }).manager =
          s.manager := manager_update (fun _ => rfl) fun _ => rfl
      have hsame : (s.update id fun m' => { m' with generation := m.generation + 1 }).Under a x :=
        hunder
      rw [under_of_manager hmanager] at hsame
      exact hnot hsame
  · intro hfact
    exact ⟨a, hacts, hleads, confined_rebind h hm howner hseated hold hleads.under
      fun x hx => hfact a x hacts hx⟩

theorem held_move (h : s.Sound) (hactor : actor ≠ ownerPid) {ref : String}
    {manager : Option String} {team : Option (Option TeamId)} (hid : s.resolve ref = some id)
    (hp : s.move actor ref manager team = .ok s') : s.Held s' actor id false ↔
      ∀ t, team = some (some t) → ∀ a, s.ActsFor actor a → s.Belongs id t ∨
        ∃ row lead, s.team t = some row ∧ row.lead = some lead ∧ s.Under a lead := by
  obtain ⟨id', m, acting, up, hid', hm, howner, hok, hup, hmove⟩ := move_ok hp
  obtain rfl := Option.some.inj (hid.symm.trans hid')
  obtain ⟨a, rfl, hacts, hleads⟩ := leads_of_requireChain h hactor hok
  constructor
  · rintro ⟨b, hb, -, hconfined⟩ t rfl c hc
    obtain rfl := hb.unique h.seated hc
    by_contra hnot
    rw [not_or] at hnot
    obtain ⟨s₁, hmanaged, hplaced⟩ := moveTo_ok hmove
    rcases hplaced with ⟨hno, -⟩ | ⟨t', ht', rfl⟩
    · cases hno
    · obtain rfl := Option.some.inj ht'
      have hbelongs : (s₁.setPrimary id (some t)).Belongs id t := by
        rw [Placed.belongs_primary, if_pos rfl]
      obtain ⟨r, hr, hrid, hrteam, hrole, hopen⟩ := hbelongs
      have hnew : r ∉ s.memberships := fun hmem => hnot.1 ⟨r, hmem, hrid, hrteam, hrole, hopen⟩
      obtain ⟨row, lead, hrow, hlead, hmine⟩ := hconfined.joined r hr hopen hnew
      rw [hrteam] at hrow
      rcases hmine with hunder | ⟨hnone, hunder⟩
      · exact hnot.2 ⟨row, lead, hrow, hlead, hunder⟩
      · -- a lead that is no member is below nobody
        have hsome : ∀ x, ((s₁.setPrimary id (some t)).member x).isSome = (s.member x).isSome := by
          intro x
          have hplaced : ((s₁.setPrimary id (some t)).member x).isSome = (s₁.member x).isSome :=
            isSome_member_update fun _ => rfl
          rw [hplaced]
          rcases hmanaged with ⟨-, rfl⟩ | ⟨y, -, hset⟩
          · rfl
          · obtain ⟨-, rfl⟩ := setManager_ok hset
            exact isSome_member_update fun _ => rfl
        rcases ReflTransGen.cases_head hunder with heq | ⟨c, hc, -⟩
        · have hthere := hb.isSome
          rw [← heq, hnone] at hthere
          cases hthere
        · have hthere := hsome lead
          rw [Rooted.isSome_of_manager hc, hnone] at hthere
          cases hthere
  · intro hteam
    refine ⟨a, hacts, hleads, confined_move hmove hleads.under (fun y hy => ?_) fun t ht hno => ?_⟩
    · exact under_of_destination h.rooted (movePlace_ok hup y hy)
    · rcases hteam t ht a hacts with hbelongs | hled
      · exact absurd hbelongs hno
      · exact hled

/-- In every state that is reached: the check of the chain accepts who is entitled exactly where
the acting member is near, and an operation it accepted keeps to the acting member's subtree
exactly where it is within. -/
theorem reporting_line (ops : List Op) (hactor : actor ≠ ownerPid) :
    (∀ id selfOk, ((ops.foldl Store.step seed).Accepts actor id selfOk ↔
        (ops.foldl Store.step seed).Entitled actor id selfOk) ↔
      (ops.foldl Store.step seed).Near actor id) ∧
    ∀ o id selfOk s', o.chained (ops.foldl Store.step seed) = some (actor, id, selfOk) →
      (ops.foldl Store.step seed).perform o = .ok s' →
        ((ops.foldl Store.step seed).Held s' actor id selfOk ↔
          o.Within (ops.foldl Store.step seed)) := by
  have h : (ops.foldl Store.step seed).Sound := sound_run ops sound_seed
  refine ⟨fun id selfOk => accepts_iff_entitled h hactor, ?_⟩
  intro o id selfOk s' hchained hp
  cases o with
  | rebind by' ref pid refused =>
    obtain ⟨id', hid, heq⟩ := Option.map_eq_some_iff.mp hchained
    obtain ⟨rfl, hrest⟩ := Prod.mk.inj heq
    obtain ⟨rfl, rfl⟩ := Prod.mk.inj hrest
    exact held_rebind h hactor hid hp
  | close by' pid member killed refused =>
    cases killed with
    | true => cases hchained
    | false =>
      obtain ⟨rfl, hrest⟩ := Prod.mk.inj (Option.some.inj hchained)
      obtain ⟨rfl, rfl⟩ := Prod.mk.inj hrest
      exact iff_of_true (held_close h hactor hp) trivial
  | promote by' new pid handle title team manager refusedHome =>
    obtain ⟨id', hid, heq⟩ := Option.map_eq_some_iff.mp hchained
    obtain ⟨rfl, hrest⟩ := Prod.mk.inj heq
    obtain ⟨rfl, rfl⟩ := Prod.mk.inj hrest
    exact iff_of_true (held_promote h hactor hid hp) trivial
  | move by' ref manager team =>
    obtain ⟨id', hid, heq⟩ := Option.map_eq_some_iff.mp hchained
    obtain ⟨rfl, hrest⟩ := Prod.mk.inj heq
    obtain ⟨rfl, rfl⟩ := Prod.mk.inj hrest
    rw [held_move h hactor hid hp]
    rcases team with _ | _ | team
    · exact iff_of_true (fun t ht => by cases ht) trivial
    · exact iff_of_true (fun t ht => by cases ht) trivial
    · constructor
      · intro hall id₂ a hid₂ hacts
        obtain rfl := Option.some.inj (hid.symm.trans hid₂)
        exact hall team rfl a hacts
      · intro hall t ht a hacts
        obtain rfl := Option.some.inj (Option.some.inj ht)
        exact hall id' a hid hacts
  | retire by' ref refused =>
    obtain ⟨id', hid, heq⟩ := Option.map_eq_some_iff.mp hchained
    obtain ⟨rfl, hrest⟩ := Prod.mk.inj heq
    obtain ⟨rfl, rfl⟩ := Prod.mk.inj hrest
    exact iff_of_true (held_retire h hactor hid hp) trivial
  | profile by' ref title mandate =>
    obtain ⟨id', hid, heq⟩ := Option.map_eq_some_iff.mp hchained
    obtain ⟨rfl, hrest⟩ := Prod.mk.inj heq
    obtain ⟨rfl, rfl⟩ := Prod.mk.inj hrest
    exact iff_of_true (held_profile h hactor hid hp) trivial
  | roster => cases hchained
  | adopt => cases hchained
  | hire => cases hchained
  | teamCreate => cases hchained
  | teamUpdate => cases hchained
  | reinstate => cases hchained
  | heartbeat => cases hchained
  | sessions => cases hchained
  | work => cases hchained

/-- Ada has hired Bob, and moves him into a team that nobody of hers leads. -/
def transfer : List Op := [
  .sessions [⟨"agent:d:1", "d", "1", none, some "claude", true⟩],
  .adopt ownerPid "mem_1" "agent:d:1" "ada" "" .agent none none none,
  .hire ownerPid "mem_2" "bob" "" "" (some "mem_1") none,
  .teamCreate ownerPid false "t" ⟨"core", .team, none, none, none⟩ none]

theorem reporting_line_transfer :
    (∀ id selfOk, ((transfer.foldl Store.step seed).Accepts "agent:d:1" id selfOk ↔
        (transfer.foldl Store.step seed).Entitled "agent:d:1" id selfOk) ↔
      (transfer.foldl Store.step seed).Near "agent:d:1" id) ∧
    ∀ o id selfOk s', o.chained (transfer.foldl Store.step seed) = some ("agent:d:1", id, selfOk) →
      (transfer.foldl Store.step seed).perform o = .ok s' →
        ((transfer.foldl Store.step seed).Held s' "agent:d:1" id selfOk ↔
          o.Within (transfer.foldl Store.step seed)) :=
  reporting_line transfer (by decide)

def link (i : Nat) : String :=
  String.ofList ['m', Char.ofNat (97 + i / 8), Char.ofNat (97 + i % 8)]

/-- A line of sixty-six members, each the manager of the next one. -/
def line : List Op :=
  .sessions [⟨"agent:d:1", "d", "1", none, some "claude", true⟩] ::
  .adopt ownerPid "mem_maa" "agent:d:1" "maa" "" .agent none none none ::
  (List.range 65).map fun i => .hire ownerPid ("mem_" ++ link (i + 1)) (link (i + 1)) "" ""
    (some ("mem_" ++ link i)) none

set_option maxRecDepth 10000 in
theorem line_state :
    (line.foldl Store.step seed).requireChain "agent:d:1" "mem_mib" false =
        .error ⟨403, "not_manager"⟩ ∧
      (line.foldl Store.step seed).actorMember "agent:d:1" = some "mem_maa" ∧
      climb (line.foldl Store.step seed).manager 65 "mem_mib" = some "mem_maa" := by
  decide +kernel

/-- The first of the line is not accepted for the last one. -/
theorem far_manager_refused :
    ¬ ∀ (ops : List Op) (actor : Pid) (id : MemberId) (selfOk : Bool), actor ≠ ownerPid →
      ((ops.foldl Store.step seed).Accepts actor id selfOk ↔
        (ops.foldl Store.step seed).Entitled actor id selfOk) := by
  intro hall
  obtain ⟨hrefused, hactor, hclimb⟩ := line_state
  have h : (line.foldl Store.step seed).Sound := sound_run line sound_seed
  have hbelow : (line.foldl Store.step seed).Below "mem_maa" "mem_mib" := by
    obtain ⟨c, hc, hrest⟩ := Option.bind_eq_some_iff.mp hclimb
    exact TransGen.head' hc (reaches_iff_climb.mpr ⟨64, hrest⟩)
  have hentitled : (line.foldl Store.step seed).Entitled "agent:d:1" "mem_mib" false :=
    ⟨"mem_maa", (actorMember_iff h.seated).mp hactor, .inl hbelow⟩
  obtain ⟨acting, hok⟩ := (hall line "agent:d:1" "mem_mib" false (by decide)).mpr hentitled
  rw [hrefused] at hok
  cases hok

end Store

end Org
