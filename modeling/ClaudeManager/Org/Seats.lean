import Mathlib
import ClaudeManager.Org.Tree

/-!
# Seats, names and teams of members

* `Seated` — one open seat for a session, one open main for a member, and generations
* `Named` — no name is given twice, and each names a member
* `Placed` — the primary team of a member is the one it is in
* `Sound` — these, and that managers lead to Owner; one change keeps it
-/

namespace Org

open Relation Program

namespace Store

variable {s s' : Store} {id x : MemberId}

/-! ## Seats -/

/-- The open seats of a session. -/
def openSeats (s : Store) (pid : Pid) : Nat :=
  s.incarnations.countP fun i => i.pid = pid && i.open_

/-- The open main seats of a member. -/
def openMains (s : Store) (x : MemberId) : Nat :=
  s.incarnations.countP fun i => i.member = x && i.role = .main && i.open_

/-- The largest generation of a member's incarnations. -/
def lastGeneration (s : Store) (x : MemberId) : Nat :=
  ((s.incarnations.filter fun i => i.member = x).map Incarnation.generation).foldr max 0

structure Seated (s : Store) : Prop where
  pids : ∀ pid, s.openSeats pid ≤ 1
  mains : ∀ x, s.openMains x ≤ 1
  generations : ∀ x m, s.member x = some m → s.lastGeneration x = m.generation
  members : ∀ i ∈ s.incarnations, (s.member i.member).isSome = true

theorem foldr_max_append (g : Nat) : ∀ l : List Nat, (l ++ [g]).foldr max 0 = max (l.foldr max 0) g
  | [] => by simp
  | a :: l => by
    rw [List.cons_append, List.foldr_cons, List.foldr_cons, foldr_max_append g l, max_assoc]

theorem openSeats_eq_zero {pid : Pid} (h : s.seated pid = false) : s.openSeats pid = 0 := by
  unfold openSeats
  rw [List.countP_eq_zero]
  intro i hi hopen
  have hany : s.seated pid = true := List.any_eq_true.mpr ⟨i, hi, hopen⟩
  rw [h] at hany
  cases hany

/-! A seat that is added counts for its session and its member only. -/

section Add

variable {i : Incarnation}

theorem openSeats_add (h : s'.incarnations = s.incarnations ++ [i]) (pid : Pid) :
    s'.openSeats pid = s.openSeats pid + if i.pid = pid ∧ i.open_ = true then 1 else 0 := by
  unfold openSeats
  rw [h, List.countP_append, List.countP_singleton]
  simp

theorem openMains_add (h : s'.incarnations = s.incarnations ++ [i]) (x : MemberId) :
    s'.openMains x =
      s.openMains x + if (i.member = x ∧ i.role = .main) ∧ i.open_ = true then 1 else 0 := by
  unfold openMains
  rw [h, List.countP_append, List.countP_singleton]
  simp

theorem lastGeneration_add (h : s'.incarnations = s.incarnations ++ [i]) (x : MemberId) :
    s'.lastGeneration x =
      if i.member = x then max (s.lastGeneration x) i.generation else s.lastGeneration x := by
  unfold lastGeneration
  rw [h, List.filter_append, List.filter_singleton, List.map_append]
  by_cases hx : i.member = x
  · rw [if_pos hx, decide_eq_true hx]
    exact foldr_max_append _ _
  · rw [if_neg hx, decide_eq_false hx]
    simp

end Add

/-- A seat after the main of a member has closed. -/
def closed (id : MemberId) (i : Incarnation) : Incarnation :=
  if i.member = id && i.role = .main && i.open_ then { i with open_ := false } else i

/-- The main of a member closes. -/
def closeMain (s : Store) (id : MemberId) : Store :=
  { s with incarnations := s.incarnations.map (closed id) }

section Closed

variable (id : MemberId) (i : Incarnation)

@[simp] theorem closed_member : (closed id i).member = i.member := by
  unfold closed
  split <;> rfl

@[simp] theorem closed_role : (closed id i).role = i.role := by
  unfold closed
  split <;> rfl

@[simp] theorem closed_generation : (closed id i).generation = i.generation := by
  unfold closed
  split <;> rfl

@[simp] theorem closed_pid : (closed id i).pid = i.pid := by
  unfold closed
  split <;> rfl

@[simp] theorem closed_open : (closed id i).open_ =
    (i.open_ && !(decide (i.member = id) && decide (i.role = .main))) := by
  unfold closed
  cases ho : i.open_ with
  | false => simp [ho]
  | true =>
    by_cases hc : (decide (i.member = id) && decide (i.role = .main)) = true
    · simp [hc]
    · simp [hc, ho]

end Closed

theorem openSeats_closeMain (s : Store) (id : MemberId) (pid : Pid) :
    (s.closeMain id).openSeats pid ≤ s.openSeats pid := by
  simp only [openSeats, closeMain, List.countP_map]
  refine List.countP_mono_left fun i _ hi => ?_
  simp only [Function.comp_apply, closed_pid, closed_open, Bool.and_eq_true] at hi ⊢
  exact ⟨hi.1, hi.2.1⟩

theorem openMains_closeMain (x : MemberId) :
    (s.closeMain id).openMains x = if x = id then 0 else s.openMains x := by
  simp only [openMains, closeMain, List.countP_map, Function.comp_def, closed_member, closed_role,
    closed_open]
  by_cases hx : x = id
  · subst hx
    rw [if_pos rfl, List.countP_eq_zero]
    intro i _ hi
    simp only [Bool.and_eq_true, Bool.not_eq_true', Bool.and_eq_false_iff] at hi
    rcases hi.2.2 with hne | hne
    · rw [hi.1.1] at hne
      cases hne
    · rw [hi.1.2] at hne
      cases hne
  · rw [if_neg hx]
    refine List.countP_congr fun i _ => ?_
    by_cases hi : i.member = x
    · have hne : i.member ≠ id := fun he => hx (hi.symm.trans he)
      simp [hi, hx]
    · simp [hi]

theorem lastGeneration_closeMain (x : MemberId) :
    (s.closeMain id).lastGeneration x = s.lastGeneration x := by
  simp only [lastGeneration, closeMain, List.filter_map, List.map_map, Function.comp_def,
    closed_member, closed_generation]

namespace Seated

theorem of_eq (h : s.Seated) (hinc : s'.incarnations = s.incarnations)
    (hgen : ∀ x, (s'.member x).map Member.generation = (s.member x).map Member.generation) :
    s'.Seated := by
  refine ⟨?_, ?_, ?_, ?_⟩
  · intro pid
    unfold openSeats
    rw [hinc]
    exact h.pids pid
  · intro x
    unfold openMains
    rw [hinc]
    exact h.mains x
  · intro x m hm
    have hsame := hgen x
    rw [hm, Option.map_some] at hsame
    obtain ⟨m₀, hm₀, hg⟩ := Option.map_eq_some_iff.mp hsame.symm
    unfold lastGeneration
    rw [hinc, ← hg]
    exact h.generations x m₀ hm₀
  · intro i hi
    rw [hinc] at hi
    have hsome := h.members i hi
    rw [← Option.isSome_map (f := Member.generation), hgen, Option.isSome_map]
    exact hsome

theorem update (h : s.Seated) {f : Member → Member} (hf : ∀ m, (f m).id = m.id)
    (hg : ∀ m, (f m).generation = m.generation) : (s.update id f).Seated :=
  h.of_eq rfl fun _ => map_member_update hf hg

/-- Where nobody had the id, no seat was taken in its name. -/
theorem no_seats (h : s.Seated) (hx : s.member x = none) {i : Incarnation} (hi : i ∈ s.incarnations) :
    i.member ≠ x := by
  rintro rfl
  have hsome := h.members i hi
  rw [hx] at hsome
  cases hsome

theorem openMains_none (h : s.Seated) (hx : s.member x = none) : s.openMains x = 0 := by
  unfold openMains
  rw [List.countP_eq_zero]
  intro i hi hmain
  simp only [Bool.and_eq_true, decide_eq_true_eq] at hmain
  exact h.no_seats hx hi hmain.1.1

theorem lastGeneration_none (h : s.Seated) (hx : s.member x = none) : s.lastGeneration x = 0 := by
  have hnil : (s.incarnations.filter fun i => i.member = x) = [] := by
    rw [List.filter_eq_nil_iff]
    intro i hi hmember
    exact h.no_seats hx hi (of_decide_eq_true hmember)
  unfold lastGeneration
  rw [hnil]
  rfl

theorem enroll (h : s.Seated) {n : NewMember} {up : MemberId} (hn : s.Enrollable n up) :
    (s.enroll n up).Seated := by
  have hold : ∀ i ∈ s.incarnations, ((s.enroll n up).member i.member).isSome = true := by
    intro i hi
    rw [member_enroll hn.fresh, if_neg (h.no_seats hn.fresh hi)]
    exact h.members i hi
  cases hpid : n.pid with
  | none =>
    have hinc : (s.enroll n up).incarnations = s.incarnations := by
      simp [Store.enroll, hpid]
    have hlast : ∀ x, (s.enroll n up).lastGeneration x = s.lastGeneration x := by
      intro x
      unfold lastGeneration
      rw [hinc]
    refine ⟨?_, ?_, ?_, ?_⟩
    · intro pid
      unfold openSeats
      rw [hinc]
      exact h.pids pid
    · intro x
      unfold openMains
      rw [hinc]
      exact h.mains x
    · intro x m hm
      rw [member_enroll hn.fresh] at hm
      rw [hlast]
      by_cases hx : x = n.id
      · subst hx
        rw [if_pos rfl] at hm
        obtain rfl := Option.some.inj hm
        rw [h.lastGeneration_none hn.fresh]
        simp [rowOf, hpid]
      · rw [if_neg hx] at hm
        exact h.generations x m hm
    · intro i hi
      rw [hinc] at hi
      exact hold i hi
  | some pid =>
    have hinc : (s.enroll n up).incarnations = s.incarnations ++ [⟨n.id, .main, 1, pid, true⟩] := by
      simp [Store.enroll, hpid]
    have hfree : s.openSeats pid = 0 := openSeats_eq_zero (hn.pid pid hpid)
    refine ⟨?_, ?_, ?_, ?_⟩
    · intro p
      have hp := h.pids p
      rw [openSeats_add hinc]
      by_cases he : pid = p
      · subst he
        simp [hfree]
      · simpa [he] using hp
    · intro x
      have hx := h.mains x
      rw [openMains_add hinc]
      by_cases he : n.id = x
      · subst he
        simp [h.openMains_none hn.fresh]
      · simpa [he] using hx
    · intro x m hm
      rw [member_enroll hn.fresh] at hm
      rw [lastGeneration_add hinc]
      by_cases hx : x = n.id
      · subst hx
        rw [if_pos rfl] at hm
        obtain rfl := Option.some.inj hm
        rw [if_pos rfl, h.lastGeneration_none hn.fresh]
        simp [rowOf, hpid]
      · rw [if_neg hx] at hm
        rw [if_neg fun he => hx he.symm]
        exact h.generations x m hm
    · intro i hi
      rw [hinc, List.mem_append, List.mem_singleton] at hi
      rcases hi with hi | rfl
      · exact hold i hi
      · rw [member_enroll hn.fresh, if_pos rfl]
        rfl

theorem reseat (h : s.Seated) {m : Member} {pid : Pid} (hm : s.member id = some m)
    (hpid : s.seated pid = false) : (s.replaceMain id pid (m.generation + 1)).Seated := by
  have hinc : (s.replaceMain id pid (m.generation + 1)).incarnations =
      (s.closeMain id).incarnations ++ [⟨id, .main, m.generation + 1, pid, true⟩] := rfl
  have hmember : ∀ x, (s.replaceMain id pid (m.generation + 1)).member x =
      if x = id then some { m with generation := m.generation + 1 } else s.member x := by
    intro x
    have hupdate : (s.replaceMain id pid (m.generation + 1)).member x =
        (s.update id fun m' => { m' with generation := m.generation + 1 }).member x := rfl
    rw [hupdate, member_generation, hm]
    rfl
  have hsome : ∀ x, (s.member x).isSome = true →
      ((s.replaceMain id pid (m.generation + 1)).member x).isSome = true := by
    intro x hx
    rw [hmember]
    by_cases he : x = id
    · rw [if_pos he]
      rfl
    · rw [if_neg he]
      exact hx
  refine ⟨?_, ?_, ?_, ?_⟩
  · intro p
    have hp := h.pids p
    have hclose := openSeats_closeMain s id p
    rw [openSeats_add hinc]
    by_cases he : pid = p
    · subst he
      rw [openSeats_eq_zero hpid] at hclose
      simp only [true_and, if_true]
      omega
    · simp only [he, false_and, if_false]
      omega
  · intro x
    have hx := h.mains x
    rw [openMains_add hinc, openMains_closeMain]
    by_cases he : x = id
    · subst he
      simp
    · have hne : ¬ id = x := fun heq => he heq.symm
      simpa [he, hne] using hx
  · intro x m' hm'
    rw [hmember] at hm'
    rw [lastGeneration_add hinc, lastGeneration_closeMain]
    by_cases he : x = id
    · subst he
      rw [if_pos rfl] at hm'
      obtain rfl := Option.some.inj hm'
      rw [if_pos rfl, h.generations x m hm]
      exact max_eq_right (Nat.le_succ _)
    · rw [if_neg he] at hm'
      rw [if_neg fun heq => he heq.symm]
      exact h.generations x m' hm'
  · intro i hi
    rw [hinc, List.mem_append, List.mem_singleton] at hi
    rcases hi with hi | rfl
    · obtain ⟨j, hj, rfl⟩ := List.mem_map.mp hi
      rw [closed_member]
      exact hsome _ (h.members j hj)
    · rw [hmember, if_pos rfl]
      rfl

/-- One change keeps the seats. -/
theorem edit (h : s.Seated) {live quiet : Bool} (he : Edit live quiet s s') : s'.Seated := by
  cases he with
  | rest halike hmarks hfacts =>
    refine h.of_eq halike.incarnations fun x => ?_
    rw [member_of_alike halike]
  | enroll hn => exact h.enroll hn
  | manage hid hcheck => exact h.update (fun _ => rfl) fun _ => rfl
  | teams hts => exact h.of_eq rfl fun _ => rfl
  | retire hid hreports hled => exact h.update (fun _ => rfl) fun _ => rfl
  | restore hst hup => exact h.update (fun _ => rfl) fun _ => rfl
  | reseat hm hid hpid hquiet => exact h.reseat hm hpid
  | primary hm => exact h.of_eq rfl fun _ => map_member_update (fun _ => rfl) fun _ => rfl
  | profile => exact h.update (fun _ => rfl) fun _ => rfl

end Seated

/-! ## Names -/

structure Named (s : Store) : Prop where
  ids : (s.members.map Member.id).Nodup
  names : (s.aliases.map Prod.fst).Nodup
  handles : ∀ m ∈ s.members, (m.handle, m.id) ∈ s.aliases
  known : ∀ a ∈ s.aliases, (s.member a.2).isSome = true

theorem not_mem_ids (h : s.member x = none) : x ∉ s.members.map Member.id := by
  intro hx
  obtain ⟨m, hm, rfl⟩ := List.mem_map.mp hx
  have hne := List.find?_eq_none.mp h m hm
  exact hne (decide_eq_true rfl)

theorem not_mem_names {name : String} (h : s.aliasOf name = none) :
    name ∉ s.aliases.map Prod.fst := by
  intro hname
  obtain ⟨a, ha, rfl⟩ := List.mem_map.mp hname
  have hnone := Option.map_eq_none_iff.mp h
  exact List.find?_eq_none.mp hnone a ha (decide_eq_true rfl)

/-- What names are added to those there are, all of one member. -/
structure Adds (member : MemberId) (old new : List (String × MemberId)) : Prop where
  keeps : ∀ a ∈ old, a ∈ new
  names : (old.map Prod.fst).Nodup → (new.map Prod.fst).Nodup
  mine : ∀ a ∈ new, a ∈ old ∨ a.2 = member

theorem adds_alias (member : MemberId) (handle text : String) (old : List (String × MemberId)) :
    Adds member old (addAlias handle member old text) := by
  unfold addAlias
  cases normalizeAlias text with
  | none => exact ⟨fun _ ha => ha, id, fun _ ha => .inl ha⟩
  | some name =>
    by_cases hc : name = handle ∨ (old.any fun a => a.1 = name) = true
    · simp only [if_pos hc]
      exact ⟨fun _ ha => ha, id, fun _ ha => .inl ha⟩
    · simp only [if_neg hc]
      refine ⟨fun _ ha => List.mem_append_left _ ha, ?_, ?_⟩
      · intro hnodup
        have hname : name ∉ old.map Prod.fst := by
          intro hmem
          obtain ⟨a, ha, rfl⟩ := List.mem_map.mp hmem
          exact hc (.inr (List.any_eq_true.mpr ⟨a, ha, decide_eq_true rfl⟩))
        rw [List.map_append, List.nodup_append]
        refine ⟨hnodup, List.nodup_singleton _, ?_⟩
        intro a ha b hb hab
        rw [List.map_singleton, List.mem_singleton] at hb
        rw [hab, hb] at ha
        exact hname ha
      · intro a ha
        rcases List.mem_append.mp ha with ha | ha
        · exact .inl ha
        · rw [List.mem_singleton.mp ha]
          exact .inr rfl

theorem adds_aliases (member : MemberId) (handle : String) : ∀ (texts : List String)
    (old : List (String × MemberId)), Adds member old (addAliases handle member old texts)
  | [], _ => ⟨fun _ ha => ha, id, fun _ ha => .inl ha⟩
  | text :: texts, old => by
    have hfirst := adds_alias member handle text old
    have hrest := adds_aliases member handle texts (addAlias handle member old text)
    refine ⟨fun a ha => hrest.keeps a (hfirst.keeps a ha),
      fun hnodup => hrest.names (hfirst.names hnodup), ?_⟩
    intro a ha
    rcases hrest.mine a ha with ha | ha
    · exact hfirst.mine a ha
    · exact .inr ha

namespace Named

/-- Names and ids are what matters. -/
theorem of_eq (h : s.Named) (halias : s'.aliases = s.aliases)
    (hrows : s'.members.map (fun m => (m.id, m.handle)) = s.members.map fun m => (m.id, m.handle))
    (hmember : ∀ x, (s'.member x).isSome = (s.member x).isSome) : s'.Named := by
  refine ⟨?_, ?_, ?_, ?_⟩
  · have hids : s'.members.map Member.id = s.members.map Member.id := by
      have hfst := congrArg (List.map Prod.fst) hrows
      simpa [List.map_map, Function.comp_def] using hfst
    rw [hids]
    exact h.ids
  · rw [halias]
    exact h.names
  · intro m hm
    have hmem : (m.id, m.handle) ∈ s'.members.map fun m => (m.id, m.handle) :=
      List.mem_map_of_mem hm
    rw [hrows] at hmem
    obtain ⟨m₀, hm₀, heq⟩ := List.mem_map.mp hmem
    obtain ⟨hid, hhandle⟩ := Prod.mk.inj heq
    rw [halias, ← hid, ← hhandle]
    exact h.handles m₀ hm₀
  · rw [halias]
    intro a ha
    rw [hmember]
    exact h.known a ha

theorem update (h : s.Named) {f : Member → Member} (hf : ∀ m, (f m).id = m.id)
    (hg : ∀ m, (f m).handle = m.handle) : (s.update id f).Named := by
  refine h.of_eq rfl ?_ fun _ => isSome_member_update hf
  simp only [Store.update, List.map_map]
  refine List.map_congr_left fun m _ => ?_
  by_cases hm : m.id = id
  · simp only [Function.comp_apply, if_pos hm, hf, hg]
  · simp only [Function.comp_apply, if_neg hm]

theorem enroll (h : s.Named) {n : NewMember} {up : MemberId} (hn : s.Enrollable n up) :
    (s.enroll n up).Named := by
  have hadds : Adds n.id (s.aliases ++ [(n.handle, n.id)]) (s.enroll n up).aliases :=
    adds_aliases n.id n.handle n.aliases _
  have hmembers : (s.enroll n up).members = s.members ++ [rowOf n up] := rfl
  have hold : ∀ x, (s.member x).isSome = true → ((s.enroll n up).member x).isSome = true := by
    intro x hx
    rw [member_enroll hn.fresh]
    by_cases he : x = n.id
    · rw [if_pos he]
      rfl
    · rw [if_neg he]
      exact hx
  refine ⟨?_, ?_, ?_, ?_⟩
  · rw [hmembers, List.map_append, List.nodup_append]
    refine ⟨h.ids, List.nodup_singleton _, ?_⟩
    intro a ha b hb hab
    rw [List.map_singleton, List.mem_singleton] at hb
    rw [hab, hb] at ha
    exact not_mem_ids hn.fresh ha
  · refine hadds.names ?_
    rw [List.map_append, List.nodup_append]
    refine ⟨h.names, List.nodup_singleton _, ?_⟩
    intro a ha b hb hab
    rw [List.map_singleton, List.mem_singleton] at hb
    rw [hab, hb] at ha
    exact not_mem_names hn.name ha
  · intro m hm
    rw [hmembers, List.mem_append, List.mem_singleton] at hm
    refine hadds.keeps _ ?_
    rcases hm with hm | rfl
    · exact List.mem_append_left _ (h.handles m hm)
    · exact List.mem_append_right _ (List.mem_singleton.mpr rfl)
  · intro a ha
    have hself : ((s.enroll n up).member n.id).isSome = true := by
      rw [member_enroll hn.fresh, if_pos rfl]
      rfl
    rcases hadds.mine a ha with ha | ha
    · rcases List.mem_append.mp ha with ha | ha
      · exact hold _ (h.known a ha)
      · rw [List.mem_singleton.mp ha]
        exact hself
    · rw [ha]
      exact hself

/-- One change keeps the names. -/
theorem edit (h : s.Named) {live quiet : Bool} (he : Edit live quiet s s') : s'.Named := by
  cases he with
  | rest halike hmarks hfacts =>
    refine h.of_eq halike.aliases ?_ fun x => ?_
    · rw [halike.members]
    · rw [member_of_alike halike]
  | enroll hn => exact h.enroll hn
  | manage hid hcheck => exact h.update (fun _ => rfl) fun _ => rfl
  | teams hts => exact h.of_eq rfl rfl fun _ => rfl
  | retire hid hreports hled => exact h.update (fun _ => rfl) fun _ => rfl
  | restore hst hup => exact h.update (fun _ => rfl) fun _ => rfl
  | @reseat id m pid hm hid hpid hquiet =>
    have hupdate : (s.update id fun m' => { m' with generation := m.generation + 1 }).Named :=
      h.update (fun _ => rfl) fun _ => rfl
    exact hupdate.of_eq rfl rfl fun _ => rfl
  | @primary id m team hm =>
    have hupdate : (s.update id fun m' => { m' with primaryTeam := team }).Named :=
      h.update (fun _ => rfl) fun _ => rfl
    exact hupdate.of_eq rfl rfl fun _ => rfl
  | profile => exact h.update (fun _ => rfl) fun _ => rfl

end Named

/-! ## Teams -/

/-- The member is in the team, as its primary one. -/
def Belongs (s : Store) (x : MemberId) (team : TeamId) : Prop :=
  ∃ r ∈ s.memberships, r.member = x ∧ r.team = team ∧ r.role = .primary ∧ r.open_ = true

def Placed (s : Store) : Prop :=
  ∀ x team, s.Belongs x team ↔ (s.member x).bind Member.primaryTeam = some team

namespace Placed

theorem of_eq (h : s.Placed) (hrows : s'.memberships = s.memberships)
    (hteam : ∀ x, (s'.member x).map Member.primaryTeam = (s.member x).map Member.primaryTeam) :
    s'.Placed := by
  intro x team
  have hsame : (s'.member x).bind Member.primaryTeam = (s.member x).bind Member.primaryTeam := by
    rw [bind_eq_join, bind_eq_join, hteam]
  unfold Belongs
  rw [hrows, hsame]
  exact h x team

theorem update (h : s.Placed) {f : Member → Member} (hf : ∀ m, (f m).id = m.id)
    (hg : ∀ m, (f m).primaryTeam = m.primaryTeam) : (s.update id f).Placed :=
  h.of_eq rfl fun _ => map_member_update hf hg

/-- Where nobody had the id, no team was joined in its name. -/
theorem no_team (h : s.Placed) (hx : s.member x = none) (team : TeamId) : ¬ s.Belongs x team := by
  intro hb
  have hsome := (h x team).mp hb
  rw [hx] at hsome
  cases hsome

theorem enroll (h : s.Placed) {n : NewMember} {up : MemberId} (hn : s.Enrollable n up) :
    (s.enroll n up).Placed := by
  have hrows : (s.enroll n up).memberships = s.memberships ++
      (n.team.map fun team => Membership.mk team n.id .primary true).toList := rfl
  intro x team
  rw [member_enroll hn.fresh]
  have hsplit : (s.enroll n up).Belongs x team ↔ s.Belongs x team ∨ n.id = x ∧ n.team = some team := by
    unfold Belongs
    rw [hrows]
    constructor
    · rintro ⟨r, hr, hx, ht, hrole, hopen⟩
      rcases List.mem_append.mp hr with hr | hr
      · exact .inl ⟨r, hr, hx, ht, hrole, hopen⟩
      · obtain ⟨given, hgiven, rfl⟩ := Option.map_eq_some_iff.mp (Option.mem_toList.mp hr)
        exact .inr ⟨hx, hgiven.trans (congrArg some ht)⟩
    · rintro (⟨r, hr, hrest⟩ | ⟨hx, ht⟩)
      · exact ⟨r, List.mem_append_left _ hr, hrest⟩
      · refine ⟨⟨team, n.id, .primary, true⟩, List.mem_append_right _ ?_, hx, rfl, rfl, rfl⟩
        rw [ht]
        exact List.mem_singleton.mpr rfl
  rw [hsplit]
  by_cases hx : x = n.id
  · subst hx
    rw [if_pos rfl, Option.bind_some]
    constructor
    · rintro (hb | ⟨-, ht⟩)
      · exact absurd hb (h.no_team hn.fresh team)
      · exact ht
    · intro ht
      exact .inr ⟨rfl, ht⟩
  · rw [if_neg hx, ← h x team]
    constructor
    · rintro (hb | ⟨he, -⟩)
      · exact hb
      · exact absurd he.symm hx
    · exact .inl

/-- A membership that ends where the member goes to another team. -/
def parted (id : MemberId) (team : Option TeamId) (r : Membership) : Membership :=
  if r.member = id && r.role = .primary && r.open_ && some r.team ≠ team then
    { r with open_ := false }
  else r

/-- A membership that begins again. -/
def rejoined (id : MemberId) (team : TeamId) (r : Membership) : Membership :=
  if r.team = team && r.member = id && r.role = .primary then { r with open_ := true } else r

theorem parted_open (id : MemberId) (team : Option TeamId) (r : Membership) :
    (parted id team r).member = r.member ∧ (parted id team r).team = r.team ∧
      (parted id team r).role = r.role ∧
      ((parted id team r).open_ = true ↔
        r.open_ = true ∧ (r.member = id → r.role = .primary → some r.team = team)) := by
  unfold parted
  by_cases hc : (decide (r.member = id) && decide (r.role = .primary) && r.open_
      && decide (some r.team ≠ team)) = true
  · rw [if_pos hc]
    simp only [Bool.and_eq_true, decide_eq_true_eq] at hc
    refine ⟨rfl, rfl, rfl, ?_⟩
    constructor
    · intro h
      cases h
    · rintro ⟨-, h⟩
      exact absurd (h hc.1.1.1 hc.1.1.2) hc.2
  · rw [if_neg hc]
    refine ⟨rfl, rfl, rfl, ?_⟩
    constructor
    · intro ho
      refine ⟨ho, fun hid hrole => ?_⟩
      by_contra hne
      exact hc (by simp [hid, hrole, ho, hne])
    · exact fun h => h.1

theorem rejoined_open (id : MemberId) (team : TeamId) (r : Membership) :
    (rejoined id team r).member = r.member ∧ (rejoined id team r).team = r.team ∧
      (rejoined id team r).role = r.role ∧
      ((rejoined id team r).open_ = true ↔
        r.open_ = true ∨ (r.team = team ∧ r.member = id ∧ r.role = .primary)) := by
  unfold rejoined
  by_cases hc : (decide (r.team = team) && decide (r.member = id) && decide (r.role = .primary)) = true
  · rw [if_pos hc]
    simp only [Bool.and_eq_true, decide_eq_true_eq] at hc
    exact ⟨rfl, rfl, rfl, fun _ => .inr ⟨hc.1.1, hc.1.2, hc.2⟩, fun _ => rfl⟩
  · rw [if_neg hc]
    refine ⟨rfl, rfl, rfl, .inl, ?_⟩
    rintro (ho | ⟨h₁, h₂, h₃⟩)
    · exact ho
    · exact absurd (by simp [h₁, h₂, h₃]) hc

theorem joinPrimary_eq (team : Option TeamId) : s.joinPrimary id team =
    match team with
    | none => s.memberships.map (parted id none)
    | some t =>
      if (s.memberships.map (parted id (some t))).any fun r =>
          r.team = t && r.member = id && r.role = .primary then
        (s.memberships.map (parted id (some t))).map (rejoined id t)
      else s.memberships.map (parted id (some t)) ++ [⟨t, id, .primary, true⟩] := by
  cases team <;> rfl

/-- A row of `l` says that the member is in the team. -/
def In (l : List Membership) (x : MemberId) (t : TeamId) : Prop :=
  ∃ r ∈ l, r.member = x ∧ r.team = t ∧ r.role = .primary ∧ r.open_ = true

theorem in_parted {l : List Membership} {team : Option TeamId} {t : TeamId} :
    In (l.map (parted id team)) x t ↔ In l x t ∧ (x = id → team = some t) := by
  constructor
  · rintro ⟨_, hmem, hx, ht, hrole, hopen⟩
    obtain ⟨r, hr, rfl⟩ := List.mem_map.mp hmem
    obtain ⟨h₁, h₂, h₃, h₄⟩ := parted_open id team r
    rw [h₁] at hx
    rw [h₂] at ht
    rw [h₃] at hrole
    obtain ⟨ho, hteam⟩ := h₄.mp hopen
    refine ⟨⟨r, hr, hx, ht, hrole, ho⟩, fun he => ?_⟩
    rw [← ht]
    exact (hteam (hx.trans he) hrole).symm
  · rintro ⟨⟨r, hr, hx, ht, hrole, ho⟩, hteam⟩
    obtain ⟨h₁, h₂, h₃, h₄⟩ := parted_open id team r
    refine ⟨_, List.mem_map_of_mem hr, h₁.trans hx, h₂.trans ht, h₃.trans hrole, h₄.mpr ⟨ho, ?_⟩⟩
    intro he _
    rw [ht]
    exact (hteam (hx.symm.trans he)).symm

theorem in_rejoined {l : List Membership} {team t : TeamId}
    (hany : (l.any fun r => r.team = team && r.member = id && r.role = .primary) = true) :
    In (l.map (rejoined id team)) x t ↔ In l x t ∨ x = id ∧ team = t := by
  constructor
  · rintro ⟨_, hmem, hx, ht, hrole, hopen⟩
    obtain ⟨r, hr, rfl⟩ := List.mem_map.mp hmem
    obtain ⟨h₁, h₂, h₃, h₄⟩ := rejoined_open id team r
    rw [h₁] at hx
    rw [h₂] at ht
    rw [h₃] at hrole
    rcases h₄.mp hopen with ho | ⟨hteam, hid, -⟩
    · exact .inl ⟨r, hr, hx, ht, hrole, ho⟩
    · exact .inr ⟨hx.symm.trans hid, hteam.symm.trans ht⟩
  · rintro (⟨r, hr, hx, ht, hrole, ho⟩ | ⟨rfl, rfl⟩)
    · obtain ⟨h₁, h₂, h₃, h₄⟩ := rejoined_open id team r
      exact ⟨_, List.mem_map_of_mem hr, h₁.trans hx, h₂.trans ht, h₃.trans hrole, h₄.mpr (.inl ho)⟩
    · obtain ⟨r, hr, hc⟩ := List.any_eq_true.mp hany
      simp only [Bool.and_eq_true, decide_eq_true_eq] at hc
      obtain ⟨h₁, h₂, h₃, h₄⟩ := rejoined_open x team r
      exact ⟨_, List.mem_map_of_mem hr, h₁.trans hc.1.2, h₂.trans hc.1.1, h₃.trans hc.2,
        h₄.mpr (.inr ⟨hc.1.1, hc.1.2, hc.2⟩)⟩

/-- After a change of its primary team, the member is in that team only. -/
theorem belongs_primary {team : Option TeamId} {t : TeamId} :
    (s.setPrimary id team).Belongs x t ↔
      if x = id then team = some t else s.Belongs x t := by
  have hrows : (s.setPrimary id team).Belongs x t ↔ In (s.joinPrimary id team) x t := Iff.rfl
  have hold : s.Belongs x t ↔ In s.memberships x t := Iff.rfl
  rw [hrows, hold, joinPrimary_eq]
  cases team with
  | none =>
    simp only [in_parted]
    by_cases hx : x = id
    · simp [hx]
    · simp [hx]
  | some team =>
    simp only
    by_cases hany : ((s.memberships.map (parted id (some team))).any fun r =>
        r.team = team && r.member = id && r.role = .primary) = true
    · rw [if_pos hany, in_rejoined hany, in_parted]
      by_cases hx : x = id
      · simp only [hx, if_true, true_and, forall_const, Option.some.injEq]
        exact ⟨fun h => h.elim And.right fun h => h, .inr⟩
      · simp [hx]
    · rw [if_neg hany]
      have happend : ∀ l : List Membership, In (l ++ [⟨team, id, .primary, true⟩]) x t ↔
          In l x t ∨ id = x ∧ team = t := by
        intro l
        simp [In, or_and_right, exists_or]
      rw [happend, in_parted]
      by_cases hx : x = id
      · simp only [hx, if_true, true_and, forall_const, Option.some.injEq]
        exact ⟨fun h => h.elim And.right fun h => h, .inr⟩
      · have hne : ¬ id = x := fun he => hx he.symm
        simp [hx, hne]

theorem primary (h : s.Placed) {m : Member} {team : Option TeamId} (hm : s.member id = some m) :
    (s.setPrimary id team).Placed := by
  intro x t
  have hmember : (s.setPrimary id team).member x =
      if x = id then some { m with primaryTeam := team } else s.member x := by
    have hupdate : (s.setPrimary id team).member x =
        (s.update id fun m' => { m' with primaryTeam := team }).member x := rfl
    rw [hupdate, member_primary, hm]
    rfl
  rw [belongs_primary, hmember]
  by_cases hx : x = id
  · rw [if_pos hx, if_pos hx]
    rfl
  · rw [if_neg hx, if_neg hx]
    exact h x t

/-- One change keeps the teams of members. -/
theorem edit (h : s.Placed) {live quiet : Bool} (he : Edit live quiet s s') : s'.Placed := by
  cases he with
  | rest halike hmarks hfacts =>
    refine h.of_eq halike.memberships fun x => ?_
    rw [member_of_alike halike]
  | enroll hn => exact h.enroll hn
  | manage hid hcheck => exact h.update (fun _ => rfl) fun _ => rfl
  | teams hts => exact h.of_eq rfl fun _ => rfl
  | retire hid hreports hled => exact h.update (fun _ => rfl) fun _ => rfl
  | restore hst hup => exact h.update (fun _ => rfl) fun _ => rfl
  | reseat hm hid hpid hquiet => exact h.of_eq rfl fun _ => map_member_update (fun _ => rfl) fun _ => rfl
  | primary hm => exact h.primary hm
  | profile => exact h.update (fun _ => rfl) fun _ => rfl

end Placed

/-! ## What Owner and workspaces keep -/

/-- Owner has no session of its own. -/
def Vacant (s : Store) : Prop := ∀ i ∈ s.incarnations, i.member ≠ ownerId

theorem Vacant.edit (h : s.Vacant) (hroot : s.Rooted) {live quiet : Bool} (he : Edit live quiet s s') : s'.Vacant := by
  cases he with
  | rest halike hmarks hfacts =>
    intro i hi
    rw [halike.incarnations] at hi
    exact h i hi
  | @enroll n up hn =>
    intro i hi
    have hne : n.id ≠ ownerId := by
      intro heq
      have hsome := alive_isSome hroot.owner
      rw [← heq, hn.fresh] at hsome
      cases hsome
    rcases List.mem_append.mp hi with hi | hi
    · exact h i hi
    · obtain ⟨pid, -, rfl⟩ := Option.map_eq_some_iff.mp (Option.mem_toList.mp hi)
      exact hne
  | @reseat id m pid hm hid hpid hquiet =>
    intro i hi
    rcases List.mem_append.mp hi with hi | hi
    · obtain ⟨j, hj, rfl⟩ := List.mem_map.mp hi
      have hsame : (closed id j).member = j.member := closed_member id j
      have hj' := h j hj
      rw [← hsame] at hj'
      exact hj'
    · rw [List.mem_singleton.mp hi]
      exact hid
  | manage hid hcheck => exact h
  | teams hts => exact h
  | retire hid hreports hled => exact h
  | restore hst hup => exact h
  | primary hm => exact h
  | profile => exact h

/-- A workspace has one mark. -/
def Marked (s : Store) : Prop := (s.marks.map fun m => (m.daemon, m.workspace)).Nodup

theorem Marked.homeMark (h : s.Marked) {home : Option Home} : (s.homeMark id home).Marked := by
  unfold Store.homeMark
  cases home with
  | none => exact h
  | some w =>
    simp only
    by_cases hempty : w.daemon = "" ∨ w.workspace = ""
    · rw [if_pos hempty]
      exact h
    · rw [if_neg hempty]
      by_cases hany : (s.marks.any fun m => m.daemon = w.daemon && m.workspace = w.workspace) = true
      · rw [if_pos hany]
        have hkeys : ∀ m : Mark, ((if (m.daemon = w.daemon && m.workspace = w.workspace) = true then
            ({ m with member := some id, path := w.path <|> m.path, home := true } : Mark) else m).daemon,
            (if (m.daemon = w.daemon && m.workspace = w.workspace) = true then
            ({ m with member := some id, path := w.path <|> m.path, home := true } : Mark)
              else m).workspace) = (m.daemon, m.workspace) := by
          intro m
          split <;> rfl
        unfold Marked
        rw [List.map_map]
        simp only [Function.comp_def, hkeys]
        exact h
      · rw [if_neg hany]
        unfold Marked
        rw [List.map_append, List.nodup_append]
        refine ⟨h, List.nodup_singleton _, ?_⟩
        intro a ha b hb hab
        rw [List.map_singleton, List.mem_singleton] at hb
        obtain ⟨m, hm, rfl⟩ := List.mem_map.mp ha
        rw [hb] at hab
        obtain ⟨hd, hw⟩ := Prod.mk.inj hab
        exact hany (List.any_eq_true.mpr ⟨m, hm, by simp [hd, hw]⟩)

theorem Marked.edit (h : s.Marked) {live quiet : Bool} (he : Edit live quiet s s') : s'.Marked := by
  cases he with
  | rest halike hmarks hfacts =>
    unfold Marked
    rcases hmarks with hmarks | ⟨id, home, hmarks⟩
    · rw [hmarks]
      exact h
    · rw [hmarks]
      exact h.homeMark
  | enroll hn => exact h
  | reseat hm hid hpid hquiet => exact h
  | manage hid hcheck => exact h
  | teams hts => exact h
  | retire hid hreports hled => exact h
  | restore hst hup => exact h
  | primary hm => exact h
  | profile => exact h

/-! ## All of it -/

structure Sound (s : Store) : Prop where
  rooted : s.Rooted
  seated : s.Seated
  named : s.Named
  placed : s.Placed
  vacant : s.Vacant
  marked : s.Marked

theorem Sound.edit (h : s.Sound) {live quiet : Bool} (he : Edit live quiet s s') : s'.Sound :=
  ⟨h.rooted.edit he, h.seated.edit he, h.named.edit he, h.placed.edit he,
    h.vacant.edit h.rooted he, h.marked.edit he⟩

theorem Sound.edits (h : s.Sound) {live quiet : Bool} (he : Edits live quiet s s') : s'.Sound := by
  induction he with
  | refl => exact h
  | tail _ hlast ih => exact ih.edit hlast

end Store

end Org
