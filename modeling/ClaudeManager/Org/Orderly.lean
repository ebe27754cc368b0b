import Mathlib
import ClaudeManager.Org.Commits

/-!
# The organization over runs

* `Advances` — generations grow with every change of main, and names stay with their members
* `Orderly` — a tree with well-defined seats
* `organization_orderly` — the runs in which every state is orderly
-/

namespace Org

open Relation Program

namespace Store

variable {s s' s'' : Store} {id x : MemberId}

/-! ## Generations and names over time -/

def generationOf (s : Store) (x : MemberId) : Nat := ((s.member x).map Member.generation).getD 0

structure Advances (s s' : Store) : Prop where
  grows : ∀ x, s.generationOf x ≤ s'.generationOf x
  changes : ∀ x, s'.main x ≠ s.main x → s.generationOf x < s'.generationOf x
  names : ∀ a ∈ s.aliases, a ∈ s'.aliases

namespace Advances

theorem refl : s.Advances s := ⟨fun _ => le_refl _, fun _ h => absurd rfl h, fun _ h => h⟩

theorem trans (h : s.Advances s') (h' : s'.Advances s'') : s.Advances s'' := by
  refine ⟨fun x => (h.grows x).trans (h'.grows x), fun x hx => ?_, fun a ha => h'.names a (h.names a ha)⟩
  by_cases hfirst : s'.main x = s.main x
  · have hlast : s''.main x ≠ s'.main x := by
      rw [hfirst]
      exact hx
    exact lt_of_le_of_lt (h.grows x) (h'.changes x hlast)
  · exact lt_of_lt_of_le (h.changes x hfirst) (h'.grows x)

theorem of_eq (hinc : s'.incarnations = s.incarnations) (halias : s'.aliases = s.aliases)
    (hgen : ∀ x, (s'.member x).map Member.generation = (s.member x).map Member.generation) :
    s.Advances s' := by
  have hsame : ∀ x, s'.generationOf x = s.generationOf x := by
    intro x
    unfold generationOf
    rw [hgen]
  refine ⟨fun x => (hsame x).ge, fun x hx => ?_, fun a ha => ?_⟩
  · have hmain : s'.main x = s.main x := by
      unfold main
      rw [hinc]
    exact absurd hmain hx
  · rw [halias]
    exact ha

theorem update {f : Member → Member} (hf : ∀ m, (f m).id = m.id)
    (hg : ∀ m, (f m).generation = m.generation) : s.Advances (s.update id f) :=
  of_eq rfl rfl fun _ => map_member_update hf hg

theorem main_add {i : Incarnation} (h : s'.incarnations = s.incarnations ++ [i]) (hx : i.member ≠ x) :
    s'.main x = s.main x := by
  unfold main
  rw [h, List.find?_append]
  simp [hx]

theorem enroll {n : NewMember} {up : MemberId} (hn : s.Enrollable n up) :
    s.Advances (s.enroll n up) := by
  have hadds : Adds n.id (s.aliases ++ [(n.handle, n.id)]) (s.enroll n up).aliases :=
    adds_aliases n.id n.handle n.aliases _
  have hnames : ∀ a ∈ s.aliases, a ∈ (s.enroll n up).aliases :=
    fun a ha => hadds.keeps a (List.mem_append_left _ ha)
  have hother : ∀ x, x ≠ n.id → (s.enroll n up).generationOf x = s.generationOf x := by
    intro x hx
    unfold generationOf
    rw [member_enroll hn.fresh, if_neg hx]
  have hzero : s.generationOf n.id = 0 := by
    unfold generationOf
    rw [hn.fresh]
    rfl
  have hgrows : ∀ x, s.generationOf x ≤ (s.enroll n up).generationOf x := by
    intro x
    by_cases hx : x = n.id
    · rw [hx, hzero]
      exact Nat.zero_le _
    · exact (hother x hx).ge
  refine ⟨hgrows, fun x hx => ?_, hnames⟩
  cases hpid : n.pid with
  | none =>
    have hinc : (s.enroll n up).incarnations = s.incarnations := by
      simp [Store.enroll, hpid]
    have hmain : (s.enroll n up).main x = s.main x := by
      unfold main
      rw [hinc]
    exact absurd hmain hx
  | some pid =>
    have hinc : (s.enroll n up).incarnations = s.incarnations ++ [⟨n.id, .main, 1, pid, true⟩] := by
      simp [Store.enroll, hpid]
    by_cases he : x = n.id
    · have hone : (s.enroll n up).generationOf n.id = 1 := by
        unfold generationOf
        rw [member_enroll hn.fresh, if_pos rfl]
        simp [rowOf, hpid]
      rw [he, hzero, hone]
      exact Nat.zero_lt_one
    · exact absurd (main_add hinc fun heq => he heq.symm) hx

theorem main_closeMain (hx : x ≠ id) : (s.closeMain id).main x = s.main x := by
  have hsame : ∀ i : Incarnation, (closed id i).member = x → closed id i = i := by
    intro i hi
    rw [closed_member] at hi
    have hne : i.member ≠ id := fun he => hx (hi.symm.trans he)
    simp [closed, hne]
  have hpred : ∀ i : Incarnation,
      ((closed id i).member = x && (closed id i).role = .main && (closed id i).open_) =
        (i.member = x && i.role = .main && i.open_) := by
    intro i
    by_cases hi : i.member = x
    · rw [hsame i ((closed_member id i).trans hi)]
    · simp [hi]
  simp only [main, closeMain, List.find?_map, Function.comp_def, hpred]
  cases hfind : s.incarnations.find? fun i => i.member = x && i.role = .main && i.open_ with
  | none => rfl
  | some i =>
    have hi := List.find?_some hfind
    simp only [Bool.and_eq_true, decide_eq_true_eq] at hi
    rw [Option.map_some, hsame i ((closed_member id i).trans hi.1.1)]

theorem reseat {m : Member} {pid : Pid} (hm : s.member id = some m) :
    s.Advances (s.replaceMain id pid (m.generation + 1)) := by
  have hinc : (s.replaceMain id pid (m.generation + 1)).incarnations =
      (s.closeMain id).incarnations ++ [⟨id, .main, m.generation + 1, pid, true⟩] := rfl
  have hgen : ∀ x, (s.replaceMain id pid (m.generation + 1)).generationOf x =
      if x = id then m.generation + 1 else s.generationOf x := by
    intro x
    have hmember : (s.replaceMain id pid (m.generation + 1)).member x =
        (s.update id fun m' => { m' with generation := m.generation + 1 }).member x := rfl
    unfold generationOf
    rw [hmember, member_generation]
    by_cases hx : x = id
    · rw [if_pos hx, if_pos hx, hm]
      rfl
    · rw [if_neg hx, if_neg hx]
  have hself : s.generationOf id = m.generation := by
    unfold generationOf
    rw [hm]
    rfl
  refine ⟨fun x => ?_, fun x hx => ?_, fun a ha => ha⟩
  · rw [hgen]
    by_cases hx : x = id
    · rw [if_pos hx, hx, hself]
      exact Nat.le_succ _
    · rw [if_neg hx]
  · rw [hgen]
    by_cases he : x = id
    · rw [if_pos he, he, hself]
      exact Nat.lt_succ_self _
    · have hmain : (s.replaceMain id pid (m.generation + 1)).main x = s.main x :=
        (main_add hinc fun heq => he heq.symm).trans (main_closeMain he)
      exact absurd hmain hx

theorem edit {live quiet : Bool} (he : Edit live quiet s s') : s.Advances s' := by
  cases he with
  | rest halike hmarks hfacts =>
    refine of_eq halike.incarnations halike.aliases fun x => ?_
    rw [member_of_alike halike]
  | enroll hn => exact enroll hn
  | manage hid hcheck => exact update (fun _ => rfl) fun _ => rfl
  | teams hts => exact of_eq rfl rfl fun _ => rfl
  | retire hid hreports hled => exact update (fun _ => rfl) fun _ => rfl
  | restore hst hup => exact update (fun _ => rfl) fun _ => rfl
  | reseat hm hid hpid hquiet => exact reseat hm
  | primary hm => exact of_eq rfl rfl fun _ => map_member_update (fun _ => rfl) fun _ => rfl
  | profile => exact update (fun _ => rfl) fun _ => rfl

theorem edits {live quiet : Bool} (he : Edits live quiet s s') : s.Advances s' := by
  induction he with
  | refl => exact refl
  | tail _ hlast ih => exact ih.trans (edit hlast)

end Advances

/-! ## Order -/

/-- A tree with well-defined seats. -/
structure Orderly (s : Store) : Prop where
  /-- Following managers from any member ends at Owner. -/
  top : s.manager ownerId = none
  rooted : ∀ m ∈ s.members, ReflTransGen (Edge s.manager) m.id ownerId
  managed : ∀ m ∈ s.members, m.status ≠ .retired → m.id ≠ ownerId →
    ∃ up ∈ s.members, m.manager = some up.id ∧ up.status ≠ .retired
  leads : ∀ t ∈ s.teams, ∀ m ∈ s.members, t.lead = some m.id → m.status ≠ .retired
  sessions : ∀ pid, s.openSeats pid ≤ 1
  mains : ∀ m ∈ s.members, s.openMains m.id ≤ 1
  generations : ∀ m ∈ s.members, m.generation = s.lastGeneration m.id
  handles : ∀ m ∈ s.members, (m.handle, m.id) ∈ s.aliases
  names : ∀ a ∈ s.aliases, ∀ b ∈ s.aliases, a.1 = b.1 → a.2 = b.2
  teams : ∀ m ∈ s.members, ∀ team, s.Belongs m.id team ↔ m.primaryTeam = some team

theorem Sound.orderly (h : s.Sound) (hled : s.Led) : s.Orderly := by
  have hlookup : ∀ m ∈ s.members, s.member m.id = some m := fun m hm => member_of_mem h.named.ids hm
  refine ⟨h.rooted.top, ?_, ?_, ?_, h.seated.pids, fun m _ => h.seated.mains m.id, ?_,
    h.named.handles, ?_, ?_⟩
  · intro m hm
    refine h.rooted.rooted m.id ?_
    rw [hlookup m hm]
    rfl
  · intro m hm hlive hne
    have halive : s.alive m.id = true := alive_iff.mpr ⟨m, hlookup m hm, hlive⟩
    obtain ⟨up, hup⟩ := h.rooted.manager_isSome (alive_isSome halive) hne
    obtain ⟨row, hrow, hst⟩ := alive_iff.mp (h.rooted.managed m.id up halive hup)
    unfold manager at hup
    rw [hlookup m hm] at hup
    refine ⟨row, mem_of_member hrow, ?_, hst⟩
    rw [member_id hrow]
    exact hup
  · intro t ht m hm hlead
    obtain ⟨row, hrow, hst⟩ := alive_iff.mp (hled t ht m.id hlead)
    rw [hlookup m hm] at hrow
    obtain rfl := Option.some.inj hrow
    exact hst
  · intro m hm
    exact (h.seated.generations m.id m (hlookup m hm)).symm
  · intro a ha b hb hab
    rw [List.inj_on_of_nodup_map h.named.names ha hb hab]
  · intro m hm team
    rw [h.placed, hlookup m hm]
    rfl

theorem sound_seed : seed.Sound := by
  refine ⟨⟨by decide, by decide, ?_, ?_⟩, ⟨?_, ?_, ?_, ?_⟩, ⟨by decide, by decide, ?_, ?_⟩,
    ?_, ?_, List.nodup_nil⟩
  · intro x hx
    obtain ⟨m, hm⟩ := Option.isSome_iff_exists.mp hx
    have hmem := mem_of_member hm
    rw [seed, List.mem_singleton] at hmem
    rw [← member_id hm, hmem]
  · intro x up _ hup
    obtain ⟨m, hm, hm'⟩ := Option.bind_eq_some_iff.mp hup
    have hmem := mem_of_member hm
    rw [seed, List.mem_singleton] at hmem
    rw [hmem] at hm'
    cases hm'
  · intro pid
    exact Nat.zero_le 1
  · intro x
    exact Nat.zero_le 1
  · intro x m hm
    have hmem := mem_of_member hm
    rw [seed, List.mem_singleton] at hmem
    rw [hmem]
    rfl
  · intro i hi
    cases hi
  · intro m hm
    rw [seed, List.mem_singleton] at hm
    rw [hm]
    exact List.mem_singleton.mpr rfl
  · intro a ha
    rw [seed, List.mem_singleton] at ha
    rw [ha]
    decide
  · intro x team
    constructor
    · rintro ⟨r, hr, -⟩
      cases hr
    · intro hx
      obtain ⟨m, hm, hm'⟩ := Option.bind_eq_some_iff.mp hx
      have hmem := mem_of_member hm
      rw [seed, List.mem_singleton] at hmem
      rw [hmem] at hm'
      cases hm'
  · intro i hi
    cases hi

/-- What holds after every run of the organization. -/
theorem sound_run : ∀ (ops : List Op) {s : Store}, s.Sound → (ops.foldl Store.step s).Sound
  | [], _, h => h
  | o :: ops, s, h => by
    have hnext : (s.step o).Sound := h.edits (step_edits h)
    exact sound_run ops hnext

/-- In a run whose rosters give no team to a retired member, none leads a team. -/
theorem led_run {ops : List Op} (h : Meets Store.step (fun s o => o.LeadsAlive s) seed ops) :
    (ops.foldl Store.step seed).Led := by
  have hboth : (ops.foldl Store.step seed).Sound ∧ (ops.foldl Store.step seed).Led := by
    refine Meets.invariant (I := fun s => s.Sound ∧ s.Led) (fun s o hs ho => ?_) ⟨sound_seed, ?_⟩ h
    · have hedits := step_edits_live hs.1 ho
      exact ⟨hs.1.edits hedits, hs.2.edits hedits⟩
    · intro t ht
      cases ht
  exact hboth.2

/-- In a run whose rosters give no team to a retired member, the organization stays a tree with
well-defined seats, and seats and names only move forward. -/
theorem organization_orderly {ops : List Op}
    (h : Meets Store.step (fun s o => o.LeadsAlive s) seed ops) :
    (ops.foldl Store.step seed).Orderly ∧
      ∀ before o after, ops = before ++ o :: after →
        (before.foldl Store.step seed).Advances ((before.foldl Store.step seed).step o) := by
  refine ⟨(sound_run _ sound_seed).orderly (led_run h), ?_⟩
  rintro before o after rfl
  exact .edits (step_edits (sound_run _ sound_seed))

/-- Ada is adopted, leads a team by a roster row, and hires Bob; she is retired and comes back. -/
def seating : List Op := [
  .sessions [⟨"agent:d:1", "d", "1", none, some "claude", true⟩],
  .adopt ownerPid "mem_1" "agent:d:1" "ada" "" .agent none none none,
  .teamCreate ownerPid false "t" ⟨"core", .team, none, none, none⟩ none,
  .roster ownerPid (fun task => task) "mem_2" ⟨some "mem_1", "ada", .agent, "", none, none,
    [⟨some "t", none⟩], none, none, none, [], none⟩ ⟨none, none, none, none, none, none⟩,
  .hire ownerPid "mem_3" "bob" "" "" (some "mem_1") (some "t"),
  .retire ownerPid "mem_1" fun _ => false,
  .reinstate ownerPid "mem_1"]

theorem organization_orderly_seating :
    (seating.foldl Store.step seed).Orderly ∧
      ∀ before o after, seating = before ++ o :: after →
        (before.foldl Store.step seed).Advances ((before.foldl Store.step seed).step o) := by
  refine organization_orderly ⟨trivial, trivial, trivial, ?_, trivial, trivial, trivial, trivial⟩
  intro _ _ member hmember
  obtain rfl := Option.some.inj hmember
  exact .inl (by decide +kernel)

/-- The same roster row, of a proposal that was made for a session whose member is retired. -/
def lateRow : List Op := [
  .sessions [⟨"agent:d:1", "d", "1", none, some "claude", true⟩],
  .adopt ownerPid "mem_1" "agent:d:1" "ada" "" .agent none none none,
  .teamCreate ownerPid false "t" ⟨"core", .team, none, none, none⟩ none,
  .retire ownerPid "mem_1" fun _ => false,
  .roster ownerPid (fun task => task) "mem_2" ⟨some "mem_1", "ada", .agent, "", none, none,
    [⟨some "t", none⟩], none, none, none, [], none⟩ ⟨none, none, none, none, none, none⟩]

theorem retired_member_leads : ¬ (lateRow.foldl Store.step seed).Orderly := by
  intro h
  have hlead : ∃ t ∈ (lateRow.foldl Store.step seed).teams,
      ∃ m ∈ (lateRow.foldl Store.step seed).members,
        t.lead = some m.id ∧ m.status = .retired := by decide +kernel
  obtain ⟨t, ht, m, hm, hlead, hretired⟩ := hlead
  exact h.leads t ht m hm hlead hretired

end Store

end Org
