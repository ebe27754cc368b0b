import Mathlib
import ClaudeManager.Org.Orderly

/-!
# Sessions that are seated automatically

* `Serves`, `Served` — a session that was a main, or works for a member
* `Barred` — no beat seats it
* `Calm` — what leaves facts and seats alone, but for new seats
* `Seats` — what a placement has done
* `perform_spared` — who stays barred under an operation
* `seated_once` — the runs in which a session is seated at most once, and none that has served
-/

namespace Org

open Program

namespace Store

variable {s s' s'' : Store} {pid : Pid}

/-! ## Sessions -/

/-- The session has, or had, a main seat, or works for a member. -/
def Serves (s : Store) (pid : Pid) : Prop :=
  (∃ i ∈ s.incarnations, i.pid = pid) ∨ ∃ f, s.fact pid = some f ∧ f.member ≠ none

/-- It has a seat, or there is no intent to place it that counts. -/
def Barred (s : Store) (pid : Pid) : Prop :=
  s.seated pid = true ∨ ∀ f, s.fact pid = some f → f.member = none → f.autoPlace = false

def OneFact (s : Store) : Prop := (s.facts.map Fact.pid).Nodup

theorem fact_iff (h : s.OneFact) {f : Fact} : s.fact pid = some f ↔ f ∈ s.facts ∧ f.pid = pid := by
  constructor
  · intro hf
    have hpid := List.find?_some hf
    exact ⟨List.mem_of_find?_eq_some hf, by simpa using hpid⟩
  · rintro ⟨hf, rfl⟩
    exact find?_of_mem h hf

/-- Seats are only added, and open. -/
def SeatsGrow (s s' : Store) : Prop :=
  ∃ new, s'.incarnations = s.incarnations ++ new ∧ ∀ i ∈ new, i.open_ = true

namespace SeatsGrow

theorem of_eq (h : s'.incarnations = s.incarnations) : s.SeatsGrow s' := by
  refine ⟨[], ?_, fun i hi => ?_⟩
  · rw [h, List.append_nil]
  · cases hi

theorem trans (h : s.SeatsGrow s') (h' : s'.SeatsGrow s'') : s.SeatsGrow s'' := by
  obtain ⟨new, hnew, hopen⟩ := h
  obtain ⟨new', hnew', hopen'⟩ := h'
  refine ⟨new ++ new', ?_, fun i hi => ?_⟩
  · rw [hnew', hnew, List.append_assoc]
  · rcases List.mem_append.mp hi with hi | hi
    · exact hopen i hi
    · exact hopen' i hi

theorem seated (h : s.SeatsGrow s') (hs : s.seated pid = true) : s'.seated pid = true := by
  obtain ⟨new, hnew, -⟩ := h
  unfold Store.seated at hs ⊢
  rw [hnew, List.any_append, hs, Bool.true_or]

/-- A seat that was not there is open. -/
theorem seat (h : s.SeatsGrow s') {i : Incarnation} (hi : i ∈ s'.incarnations) :
    i ∈ s.incarnations ∨ s'.seated i.pid = true := by
  obtain ⟨new, hnew, hopen⟩ := h
  have hmem := hi
  rw [hnew, List.mem_append] at hmem
  rcases hmem with hold | hadded
  · exact .inl hold
  · refine .inr (List.any_eq_true.mpr ⟨i, hi, ?_⟩)
    simp [hopen i hadded]

end SeatsGrow

/-- What leaves facts alone, and only adds open seats. -/
structure Calm (s s' : Store) : Prop where
  facts : s'.facts = s.facts
  seats : s.SeatsGrow s'

namespace Calm

theorem of_eq (hfacts : s'.facts = s.facts) (hseats : s'.incarnations = s.incarnations) :
    s.Calm s' := ⟨hfacts, .of_eq hseats⟩

theorem trans (h : s.Calm s') (h' : s'.Calm s'') : s.Calm s'' :=
  ⟨h'.facts.trans h.facts, h.seats.trans h'.seats⟩

theorem fact (h : s.Calm s') : s'.fact = s.fact := by
  funext pid
  unfold Store.fact
  rw [h.facts]

theorem barred (h : s.Calm s') (hb : s.Barred pid) : s'.Barred pid := by
  rcases hb with hs | hf
  · exact .inl (h.seats.seated hs)
  · right
    rw [h.fact]
    exact hf

end Calm

theorem calm_edit (he : Edit false true s s') : s.Calm s' := by
  cases he with
  | rest halike hmarks hfacts => exact .of_eq (hfacts rfl) halike.incarnations
  | @enroll n up hn =>
    refine ⟨rfl, (n.pid.map fun pid => Incarnation.mk n.id .main 1 pid true).toList, rfl, ?_⟩
    intro i hi
    obtain ⟨pid, -, rfl⟩ := Option.map_eq_some_iff.mp (Option.mem_toList.mp hi)
    rfl
  | manage hid hcheck => exact .of_eq rfl rfl
  | teams hts => exact .of_eq rfl rfl
  | retire hid hreports hled => exact .of_eq rfl rfl
  | restore hst hup => exact .of_eq rfl rfl
  | reseat hm hid hpid hquiet => cases hquiet
  | primary hm => exact .of_eq rfl rfl
  | profile => exact .of_eq rfl rfl

theorem calm_edits (he : Edits false true s s') : s.Calm s' := by
  induction he with
  | refl => exact .of_eq rfl rfl
  | tail _ hlast ih => exact ih.trans (calm_edit hlast)

/-! ## Facts -/

theorem OneFact.of_facts (h : s.OneFact) (hf : s'.facts = s.facts) : s'.OneFact := by
  unfold OneFact
  rw [hf]
  exact h

theorem OneFact.updateFact (h : s.OneFact) {f : Fact → Fact} (hf : ∀ g, g.pid = pid → (f g).pid = pid) :
    (s.updateFact pid f).OneFact := by
  have hkeys : (s.updateFact pid f).facts.map Fact.pid = s.facts.map Fact.pid := by
    simp only [Store.updateFact, List.map_map]
    refine List.map_congr_left fun g _ => ?_
    by_cases hg : g.pid = pid
    · rw [Function.comp_apply, if_pos hg, hf g hg, hg]
    · rw [Function.comp_apply, if_neg hg]
  unfold OneFact
  rw [hkeys]
  exact h

theorem OneFact.reportFact (h : s.OneFact) {daemon : String} {f : Fact} :
    (s.reportFact daemon f).OneFact := by
  unfold Store.reportFact
  simp only
  by_cases hf : (s.fact (stamped daemon f).pid).isSome = true
  · rw [if_pos hf]
    exact h.updateFact fun _ _ => rfl
  · rw [if_neg hf]
    unfold OneFact
    rw [List.map_append, List.nodup_append]
    refine ⟨h, List.nodup_singleton _, ?_⟩
    intro a ha b hb hab
    rw [List.map_singleton, List.mem_singleton] at hb
    obtain ⟨g, hg, rfl⟩ := List.mem_map.mp ha
    have hfound := (fact_iff h).mpr ⟨hg, hab.trans hb⟩
    rw [hfound] at hf
    exact hf rfl

/-- A fact that is reported is merged into the one there is. -/
theorem fact_reportFact {daemon : String} {f : Fact} {p : Pid} :
    (s.reportFact daemon f).fact p = if p = f.pid then
      some (((s.fact p).map (mergeFact (stamped daemon f))).getD (stamped daemon f)) else s.fact p := by
  unfold reportFact
  simp only
  have hpid : (stamped daemon f).pid = f.pid := rfl
  rw [hpid]
  cases hf : s.fact f.pid with
  | some old =>
    have hsome : (some old).isSome = true := rfl
    have hkeep : ∀ g, g.pid = f.pid → (mergeFact (stamped daemon f) g).pid = f.pid := fun _ _ => rfl
    have hupdate : (s.updateFact f.pid (mergeFact (stamped daemon f))).fact p =
        if p = f.pid then (s.fact f.pid).map (mergeFact (stamped daemon f)) else s.fact p := by
      unfold updateFact fact
      exact find?_update hkeep
    rw [if_pos hsome, hupdate]
    by_cases hp : p = f.pid
    · rw [if_pos hp, if_pos hp, hp, hf]
      rfl
    · rw [if_neg hp, if_neg hp]
  | none =>
    have happend : ({ s with facts := s.facts ++ [stamped daemon f] } : Store).fact p =
        (s.fact p).or ([stamped daemon f].find? fun g => g.pid = p) := by
      simp only [fact, List.find?_append]
    have hnone : ¬ (none : Option Fact).isSome = true := Bool.false_ne_true
    rw [if_neg hnone, happend]
    by_cases hp : p = f.pid
    · rw [if_pos hp, hp, hf]
      simp [hpid]
    · have hne : ¬ f.pid = p := fun he => hp he.symm
      rw [if_neg hp]
      simp [hpid, hne]

/-- A stamp of a member, or an end of the intent, keeps a session barred. -/
theorem barred_updateFact {p : Pid} {f : Fact → Fact} (hf : ∀ g, (f g).pid = g.pid)
    (hkeep : ∀ g, (f g).member = none → g.member = none ∧ ((f g).autoPlace = true → g.autoPlace = true))
    (h : s.Barred p) : (s.updateFact pid f).Barred p := by
  rcases h with hs | hb
  · exact .inl hs
  · right
    intro g hg hnone
    rw [fact_updateFact hf] at hg
    by_cases hp : p = pid
    · subst hp
      rw [if_pos rfl] at hg
      obtain ⟨g₀, hg₀, rfl⟩ := Option.map_eq_some_iff.mp hg
      obtain ⟨hnone₀, hauto⟩ := hkeep g₀ hnone
      have hoff := hb g₀ hg₀ hnone₀
      by_contra hon
      rw [hauto (by simpa using hon)] at hoff
      cases hoff
    · rw [if_neg hp] at hg
      exact hb g hg hnone

/-- A session that is seated, or whose fact names a member: no intent counts for it. -/
def Exempt (s : Store) (pid : Pid) : Prop :=
  s.seated pid = true ∨ ∃ f, s.fact pid = some f ∧ f.member ≠ none

/-- The daemon reports an intent to place, and no member for which the session works. -/
def Intends (daemon : String) (f : Fact) : Prop :=
  (stamped daemon f).autoPlace = true ∧ (stamped daemon f).member = none

theorem Exempt.barred (h : s.Exempt pid) : s.Barred pid := by
  rcases h with hs | ⟨f, hf, hmember⟩
  · exact .inl hs
  · right
    intro g hg hnone
    rw [hf] at hg
    obtain rfl := Option.some.inj hg
    exact absurd hnone hmember

theorem incarnations_reportFact {daemon : String} {f : Fact} :
    (s.reportFact daemon f).incarnations = s.incarnations := by
  unfold reportFact
  simp only
  split <;> rfl

theorem Exempt.reportFact (h : s.Exempt pid) {daemon : String} {f : Fact} :
    (s.reportFact daemon f).Exempt pid := by
  rcases h with hs | ⟨g, hg, hmember⟩
  · left
    unfold seated
    rw [incarnations_reportFact]
    exact hs
  · right
    rw [fact_reportFact]
    by_cases hp : pid = f.pid
    · refine ⟨_, if_pos hp, ?_⟩
      rw [hg, Option.map_some, Option.getD_some]
      intro hnone
      have hor : ((stamped daemon f).member <|> g.member) = none := hnone
      cases hm : (stamped daemon f).member with
      | some m =>
        rw [hm] at hor
        cases hor
      | none =>
        rw [hm] at hor
        exact hmember hor
    · exact ⟨g, by rw [if_neg hp]; exact hg, hmember⟩

theorem barred_reportFact {daemon : String} {f : Fact} (h : s.Barred pid)
    (hfresh : f.pid = pid → Intends daemon f → s.Exempt pid) : (s.reportFact daemon f).Barred pid := by
  by_cases hexempt : s.Exempt pid
  · exact hexempt.reportFact.barred
  · rcases h with hs | hb
    · exact absurd (.inl hs) hexempt
    · right
      intro g hg hnone
      rw [fact_reportFact] at hg
      by_cases hp : pid = f.pid
      · have hidle : ¬ Intends daemon f := fun hi => hexempt (hfresh hp.symm hi)
        rw [if_pos hp] at hg
        obtain rfl := Option.some.inj hg
        cases hold : s.fact pid with
        | none =>
          rw [hold] at hnone
          rw [Option.map_none, Option.getD_none] at hnone ⊢
          by_contra hon
          exact hidle ⟨by simpa using hon, hnone⟩
        | some old =>
          rw [hold, Option.map_some, Option.getD_some] at hnone
          rw [Option.map_some, Option.getD_some]
          have hor : ((stamped daemon f).member <|> old.member) = none := hnone
          cases hm : (stamped daemon f).member with
          | some m =>
            rw [hm] at hor
            cases hor
          | none =>
            rw [hm] at hor
            have hoff : (stamped daemon f).autoPlace = false := by
              by_contra hon
              exact hidle ⟨by simpa using hon, hm⟩
            have hold' := hb old hold hor
            simp [mergeFact, hoff, hold']
      · rw [if_neg hp] at hg
        exact hb g hg hnone

/-- The reports of sessions of the daemon. -/
def owned (daemon : String) (facts : List Fact) : List Fact :=
  facts.filter fun f => f.pid.startsWith ("agent:" ++ daemon ++ ":")

/-- The facts after those of a beat are merged. -/
def merged (s : Store) (daemon : String) (facts : List Fact) : Store :=
  (owned daemon facts).foldl (fun s f => s.reportFact daemon f) s

theorem Exempt.reports {daemon : String} (h : s.Exempt pid) (facts : List Fact) :
    (facts.foldl (fun s f => s.reportFact daemon f) s).Exempt pid := by
  induction facts generalizing s with
  | nil => exact h
  | cons f facts ih => exact ih h.reportFact

theorem barred_reports {daemon : String} (facts : List Fact) (h : s.Barred pid)
    (hfresh : ∀ f ∈ facts, f.pid = pid → Intends daemon f → s.Exempt pid) :
    (facts.foldl (fun s f => s.reportFact daemon f) s).Barred pid := by
  induction facts generalizing s with
  | nil => exact h
  | cons f facts ih =>
    refine ih (barred_reportFact h (hfresh f List.mem_cons_self)) fun g hg hpid hi => ?_
    exact (hfresh g (List.mem_cons_of_mem _ hg) hpid hi).reportFact

theorem incarnations_reports {daemon : String} (facts : List Fact) :
    (facts.foldl (fun s f => s.reportFact daemon f) s).incarnations = s.incarnations := by
  induction facts generalizing s with
  | nil => rfl
  | cons f facts ih => exact ih.trans incarnations_reportFact

theorem OneFact.reports {daemon : String} (h : s.OneFact) (facts : List Fact) :
    (facts.foldl (fun s f => s.reportFact daemon f) s).OneFact := by
  induction facts generalizing s with
  | nil => exact h
  | cons f facts ih => exact ih h.reportFact

/-! ## Placement -/

theorem resolve_owner : s.resolve ((some ownerPid).getD ownerPid) = some ownerId := by
  have hne : ownerPid ≠ "" := by decide
  rw [Option.getD_some, resolve, if_neg hne, if_pos rfl]

/-- The member for which a beat seats a session. -/
def seatOf (newId : Pid → MemberId) (x : Session) : Incarnation := ⟨newId x.pid, .main, 1, x.pid, true⟩

/-- What a placement has done: new seats under Owner, for sessions that had none. -/
structure Seats (s s' : Store) (newId : Pid → MemberId) (xs : List Session) : Prop where
  seats : s'.incarnations = s.incarnations ++ xs.map (seatOf newId)
  unseated : ∀ x ∈ xs, s.seated x.pid = false
  once : (xs.map Session.pid).Nodup
  under : ∀ x ∈ xs, s'.manager (newId x.pid) = some ownerId
  members : ∀ id m, s.member id = some m → s'.member id = some m
  oneFact : s.OneFact → s'.OneFact
  barred : ∀ pid, s.Barred pid → s'.Barred pid

theorem seats_nil {newId : Pid → MemberId} : s.Seats s newId [] :=
  ⟨(List.append_nil _).symm, fun _ hx => absurd hx List.not_mem_nil, List.nodup_nil,
    fun _ hx => absurd hx List.not_mem_nil, fun _ _ hm => hm, fun h => h, fun _ h => h⟩

theorem Seats.trans {newId : Pid → MemberId} {x : Session} {xs : List Session}
    (h : s.Seats s' newId [x]) (h' : s'.Seats s'' newId xs) : s.Seats s'' newId (x :: xs) := by
  have hx : x ∈ [x] := List.mem_singleton.mpr rfl
  have hseated : ∀ pid, s'.seated pid = (s.seated pid || decide (x.pid = pid)) := by
    intro pid
    unfold Store.seated
    rw [h.seats, List.any_append]
    simp [seatOf]
  have hrest : ∀ y ∈ xs, s.seated y.pid = false ∧ x.pid ≠ y.pid := by
    intro y hy
    have hfree := h'.unseated y hy
    rw [hseated, Bool.or_eq_false_iff, decide_eq_false_iff_not] at hfree
    exact hfree
  refine ⟨?_, ?_, ?_, ?_, fun id m hm => h'.members id m (h.members id m hm),
    fun hone => h'.oneFact (h.oneFact hone), fun pid hb => h'.barred pid (h.barred pid hb)⟩
  · rw [h'.seats, h.seats, List.append_assoc]
    rfl
  · intro y hy
    rcases List.mem_cons.mp hy with rfl | hy
    · exact h.unseated y hx
    · exact (hrest y hy).1
  · rw [List.map_cons, List.nodup_cons]
    refine ⟨fun hmem => ?_, h'.once⟩
    obtain ⟨y, hy, hpid⟩ := List.mem_map.mp hmem
    exact (hrest y hy).2 hpid.symm
  · intro y hy
    rcases List.mem_cons.mp hy with rfl | hy
    · -- later members leave the row of this one as it is
      obtain ⟨m, hm, hup⟩ := Option.bind_eq_some_iff.mp (h.under y hx)
      unfold manager
      rw [h'.members _ m hm]
      exact hup
    · exact h'.under y hy

/-- One session is seated, and its fact names its member. -/
theorem seats_create {newId : Pid → MemberId} {x : Session} {handle title : String}
    {home : Option Home} (h : s.createMember ⟨newId x.pid, handle, .agent, title, "", some ownerPid,
      none, some x.pid, home, [], none⟩ = .ok s') :
    s.Seats (s'.updateFact x.pid fun f =>
      if f.member = none then
        { f with member := some (newId x.pid), actingAs := some .main, autoPlace := false }
      else f) newId [x] := by
  unfold createMember at h
  have hcalm : s.Calm s' := calm_edits (edits_createUnder h).1
  obtain ⟨up, hup, hn, rfl⟩ := createUnder_ok h
  rw [resolve_owner] at hup
  obtain rfl := Option.some.inj hup
  have hmember : ∀ id, ((s.enroll ⟨newId x.pid, handle, .agent, title, "", some ownerPid,
      none, some x.pid, home, [], none⟩ ownerId).homeMark (newId x.pid) home).member id =
      if id = newId x.pid then some (rowOf ⟨newId x.pid, handle, .agent, title, "", some ownerPid,
        none, some x.pid, home, [], none⟩ ownerId) else s.member id := by
    intro id
    rw [member_of_alike alike_homeMark, member_enroll hn.fresh]
  have hstamp : ∀ g : Fact, (if g.member = none then
      { g with member := some (newId x.pid), actingAs := some ActingAs.main, autoPlace := false }
      else g).pid = g.pid := by
    intro g
    split <;> rfl
  refine ⟨?_, ?_, List.nodup_singleton _, ?_, ?_, ?_, ?_⟩
  · exact (alike_homeMark (s := s.enroll _ ownerId)).incarnations
  · intro y hy
    rw [List.mem_singleton] at hy
    rw [hy]
    exact hn.pid x.pid rfl
  · intro y hy
    rw [List.mem_singleton] at hy
    have hrow := hmember (newId x.pid)
    rw [if_pos rfl] at hrow
    rw [hy]
    exact congrArg (fun m => Option.bind m Member.manager) hrow
  · intro id m hm
    refine (hmember id).trans ?_
    have hne : id ≠ newId x.pid := by
      rintro rfl
      rw [hn.fresh] at hm
      cases hm
    rw [if_neg hne, hm]
  · intro hone
    exact (hone.of_facts hcalm.facts).updateFact fun g hg => (hstamp g).trans hg
  · intro pid hb
    refine barred_updateFact hstamp ?_ (hcalm.barred hb)
    intro g hg
    by_cases hnone : g.member = none
    · rw [if_pos hnone] at hg
      cases hg
    · rw [if_neg hnone] at hg
      exact absurd hg hnone

theorem seats_place {newId : Pid → MemberId} : ∀ {xs : List Session} {taken : List String}
    {s s' : Store}, place newId s taken xs = .ok s' → s.Seats s' newId xs
  | [], _, s, s', h => by
    obtain rfl := Except.ok.inj h
    exact seats_nil
  | x :: xs, taken, s, s', h => by
    rw [place] at h
    split at h
    · cases h
    · simp only at h
      split at h
      · cases h
      · rename_i hcreate
        exact (seats_create hcreate).trans (seats_place h)

/-- What a beat commits: merged facts, the seats of its candidates, and facts that are kept. -/
theorem heartbeat_ok {newId : Pid → MemberId} {daemon : String} {facts : List Fact} {marked : Bool}
    {old : List Pid} (h : s.heartbeat newId daemon facts marked old = .ok s') :
    ∃ s₁ keep xs, (s.merged daemon facts).Seats s₁ newId xs ∧
      (∀ x ∈ xs, x ∈ (s.merged daemon facts).candidates daemon) ∧
      s' = { s₁ with facts := s₁.facts.filter keep } := by
  unfold heartbeat at h
  simp only at h
  split at h
  · obtain ⟨s₁, hplace, h⟩ := except_bind_ok.mp h
    obtain rfl := except_pure_ok.mp h
    exact ⟨s₁, _, _, seats_place hplace, fun x hx => hx, rfl⟩
  · obtain ⟨s₁, hsame, h⟩ := except_bind_ok.mp h
    obtain rfl := Except.ok.inj hsame
    obtain rfl := except_pure_ok.mp h
    exact ⟨_, _, [], seats_nil, fun x hx => absurd hx List.not_mem_nil, rfl⟩

/-! ## Operations -/

/-- What is kept of the sessions that have served. -/
structure Spared (s s' : Store) (P : Pid → Prop) : Prop where
  oneFact : s'.OneFact
  rows : ∀ i ∈ s'.incarnations, (∃ j ∈ s.incarnations, j.pid = i.pid) ∨ s'.seated i.pid = true
  barred : ∀ pid, P pid → s.Barred pid → s'.Barred pid

namespace Spared

variable {P : Pid → Prop}

theorem calm (hone : s.OneFact) (h : s.Calm s') : s.Spared s' P := by
  refine ⟨hone.of_facts h.facts, fun i hi => ?_, fun pid _ hb => h.barred hb⟩
  rcases h.seats.seat hi with hold | hopen
  · exact .inl ⟨i, hold, rfl⟩
  · exact .inr hopen

theorem edits (hone : s.OneFact) (h : Edits false true s s') : s.Spared s' P :=
  calm hone (calm_edits h)

theorem updateFact (h : s.Spared s' P) {p : Pid} {f : Fact → Fact} (hf : ∀ g, (f g).pid = g.pid)
    (hkeep : ∀ g, (f g).member = none → g.member = none ∧ ((f g).autoPlace = true → g.autoPlace = true)) :
    s.Spared (s'.updateFact p f) P :=
  ⟨h.oneFact.updateFact fun g hg => (hf g).trans hg, h.rows,
    fun pid hp hb => barred_updateFact hf hkeep (h.barred pid hp hb)⟩

end Spared

/-- The seats of other sessions stay open where a main is replaced. -/
theorem seated_replaceMain (h : s.Sound) {id : MemberId} {old : Incarnation} (hold : s.main id = some old)
    {p : Pid} {generation : Nat} (hne : pid ≠ old.pid) (hs : s.seated pid = true) :
    (s.replaceMain id p generation).seated pid = true := by
  obtain ⟨i, hi, hc⟩ := List.any_eq_true.mp hs
  simp only [Bool.and_eq_true, decide_eq_true_eq] at hc
  have hkept : (i.member = id && i.role = .main && i.open_) = false := by
    by_contra hmain
    rw [Bool.not_eq_false] at hmain
    have heq : i = old := eq_of_countP (h.seated.mains id) hi (List.mem_of_find?_eq_some hold) hmain
      (List.find?_some (p := fun i : Incarnation => i.member = id && i.role = .main && i.open_) hold)
    exact hne (by rw [← hc.1, heq])
  refine List.any_eq_true.mpr ⟨i, List.mem_append_left _ (List.mem_map.mpr ⟨i, hi, ?_⟩), ?_⟩
  · rw [hkept]
    rfl
  · simp [hc.1, hc.2]

theorem rows_replaceMain {id : MemberId} {p : Pid} {generation : Nat} {i : Incarnation}
    (hi : i ∈ (s.replaceMain id p generation).incarnations) :
    (∃ j ∈ s.incarnations, j.pid = i.pid) ∨ (s.replaceMain id p generation).seated i.pid = true := by
  have hmem := hi
  rcases List.mem_append.mp hi with hold | hnew
  · obtain ⟨j, hj, rfl⟩ := List.mem_map.mp hold
    refine .inl ⟨j, hj, ?_⟩
    split <;> rfl
  · rw [List.mem_singleton] at hnew
    refine .inr (List.any_eq_true.mpr ⟨i, hmem, ?_⟩)
    rw [hnew]
    simp

/-- Another session becomes the main: the old one is barred by its fact. -/
theorem spared_rebind (h : s.Sound) (hone : s.OneFact) {actor : Pid} {ref : String} {p : Pid}
    {refused : Hold → Bool} (hp : s.rebindMain actor ref p refused = .ok s') :
    s.Spared s' fun pid => ∀ id old, s.resolve ref = some id → s.main id = some old → old.pid = pid →
      ∀ f, s.fact pid = some f → f.member = none → f.autoPlace = false := by
  obtain ⟨id, m, old, acting, hid, -, -, -, -, -, hold, rfl⟩ := rebindMain_ok hp
  have hinc : (s.handBack old.pid (some p) refused).incarnations = s.incarnations :=
    alike_handBack.incarnations
  have hback : Edits false true s (s.handBack old.pid (some p) refused) :=
    alike_handBack.edits marks_handBack fun _ => facts_handBack
  have hsound : (s.handBack old.pid (some p) refused).Sound := h.edits hback
  have hfacts : ((s.handBack old.pid (some p) refused).replaceMain id p (m.generation + 1)).fact =
      s.fact := by
    funext q
    exact congrArg (fun l => l.find? fun f : Fact => f.pid = q) facts_handBack
  have hmain : (s.handBack old.pid (some p) refused).main id = some old := by
    unfold main
    rw [hinc]
    exact hold
  have hseat : s.Spared ((s.handBack old.pid (some p) refused).replaceMain id p (m.generation + 1))
      fun pid => ∀ id old, s.resolve ref = some id → s.main id = some old → old.pid = pid →
        ∀ f, s.fact pid = some f → f.member = none → f.autoPlace = false := by
    refine ⟨hone.of_facts facts_handBack, fun i hi => ?_, fun pid hspare hb => ?_⟩
    · rw [← hinc]
      exact rows_replaceMain hi
    · by_cases hpid : pid = old.pid
      · right
        rw [hfacts]
        exact hspare id old hid hold hpid.symm
      · rcases hb with hs | hb
        · left
          refine seated_replaceMain hsound hmain hpid ?_
          rw [seated_of_alike alike_handBack]
          exact hs
        · right
          rw [hfacts]
          exact hb
  have hclosed : s.Spared (((s.handBack old.pid (some p) refused).replaceMain id p
      (m.generation + 1)).updateFact old.pid fun f => { f with actingAs := some .closed }) _ :=
    hseat.updateFact (fun _ => rfl) fun g hg => ⟨hg, fun hauto => hauto⟩
  refine hclosed.updateFact (fun _ => rfl) fun g hg => ?_
  have hsome : some id = none := hg
  cases hsome

theorem spared_close (hone : s.OneFact) {P : Pid → Prop} {actor p : Pid} {id : MemberId} {killed : Bool}
    {refused : Hold → Bool} (hp : s.closeAssistant actor p id killed refused = .ok s') :
    s.Spared s' P := by
  obtain ⟨f, -, -, -, -, rfl⟩ := closeAssistant_ok hp
  have hcalm : s.Calm (s.handBack p ((s.main id).map Incarnation.pid) refused) :=
    .of_eq facts_handBack alike_handBack.incarnations
  exact (Spared.calm hone hcalm).updateFact (fun _ => rfl) fun g hg => ⟨hg, fun hauto => hauto⟩

theorem spared_promote (hone : s.OneFact) {P : Pid → Prop} {actor : Pid} {id : MemberId} {p : Pid}
    {handle title : String} {team : Option TeamId} {manager : Option String} {refusedHome : Bool}
    (hp : s.promote actor id p handle title team manager refusedHome = .ok s') : s.Spared s' P := by
  obtain ⟨x, f, boss, acting, up, given, s₁, -, -, -, -, -, -, -, -, hcreate, rfl⟩ := promote_ok hp
  exact (Spared.edits hone (edits_createUnder hcreate).1).updateFact (fun _ => rfl)
    fun g hg => ⟨hg, fun hauto => hauto⟩

/-- A beat seats and reports: a session is barred as before, unless an intent is reported for it. -/
theorem spared_heartbeat (hone : s.OneFact) {newId : Pid → MemberId} {daemon : String}
    {facts : List Fact} {marked : Bool} {old : List Pid}
    (hp : s.heartbeat newId daemon facts marked old = .ok s') :
    s.Spared s' fun pid => ∀ f ∈ owned daemon facts, f.pid = pid → Intends daemon f → s.Exempt pid := by
  obtain ⟨s₁, keep, xs, hseats, -, rfl⟩ := heartbeat_ok hp
  have hone₁ : s₁.OneFact := hseats.oneFact (hone.reports _)
  have hinc : s₁.incarnations = s.incarnations ++ xs.map (seatOf newId) := by
    rw [hseats.seats]
    exact congrArg (· ++ xs.map (seatOf newId)) (incarnations_reports _)
  refine ⟨?_, fun i hi => ?_, fun pid hfresh hb => ?_⟩
  · exact hone₁.sublist (List.Sublist.map _ List.filter_sublist)
  · have hmem : i ∈ s.incarnations ++ xs.map (seatOf newId) := by
      rw [← hinc]
      exact hi
    rcases List.mem_append.mp hmem with hold | hnew
    · exact .inl ⟨i, hold, rfl⟩
    · obtain ⟨x, hx, rfl⟩ := List.mem_map.mp hnew
      refine .inr (List.any_eq_true.mpr ⟨_, hi, ?_⟩)
      simp [seatOf]
  · rcases hseats.barred pid (barred_reports _ hb hfresh) with hs | hb
    · exact .inl hs
    · refine .inr fun f hf => hb f ?_
      -- a fact that is kept was there before
      have hmem := List.mem_of_find?_eq_some hf
      have hpid := List.find?_some hf
      exact (fact_iff hone₁).mpr ⟨(List.mem_filter.mp hmem).1, by simpa using hpid⟩

end Store

/-- What leaves a session barred that was: no intent is reported for it, and it is not replaced as
a main while its fact still carries one. -/
def Op.Spares (s : Store) (pid : Pid) : Op → Prop
  | .heartbeat _ daemon facts _ _ =>
    ∀ f ∈ Store.owned daemon facts, f.pid = pid → Store.Intends daemon f → s.Exempt pid
  | .rebind _ ref _ _ => ∀ id old, s.resolve ref = some id → s.main id = some old → old.pid = pid →
      ∀ f, s.fact pid = some f → f.member = none → f.autoPlace = false
  | _ => True

namespace Store

variable {s s' : Store} {pid : Pid}

theorem perform_spared (h : s.Sound) (hone : s.OneFact) {o : Op} (hp : s.perform o = .ok s') :
    s.Spared s' fun pid => o.Spares s pid := by
  cases o with
  | roster actor newTeam id p row =>
    obtain ⟨_, -, hp⟩ := except_bind_ok.mp hp
    obtain ⟨-, hp⟩ := refuse_bind.mp hp
    exact .edits hone (edits_applyProposal (fun hlive => absurd hlive Bool.false_ne_true) hp)
  | adopt actor id pid handle title kind team manager home => exact .edits hone (edits_adopt hp)
  | hire actor id handle title mandate manager team => exact .edits hone (edits_hire hp)
  | teamCreate actor authorized id n lead => exact .edits hone (edits_teamCreate hp)
  | teamUpdate actor id c => exact .edits hone (edits_teamUpdate h hp)
  | rebind actor ref pid refused => exact spared_rebind h hone hp
  | close actor pid id killed refused => exact spared_close hone hp
  | promote actor id pid handle title team manager refusedHome => exact spared_promote hone hp
  | move actor ref manager team => exact .edits hone (edits_move hp)
  | retire actor ref refused => exact .edits hone (edits_retire h hp)
  | reinstate actor ref => exact .edits hone (edits_reinstate h hp)
  | profile actor ref title mandate => exact .edits hone (edits_updateProfile hp)
  | heartbeat newId daemon facts marked old => exact spared_heartbeat hone hp
  | sessions rows =>
    obtain rfl := Except.ok.inj hp
    exact .calm hone (.of_eq rfl rfl)
  | work tasks holds =>
    obtain rfl := Except.ok.inj hp
    exact .calm hone (.of_eq rfl rfl)

theorem step_spared (h : s.Sound) (hone : s.OneFact) {o : Op} :
    s.Spared (s.step o) fun pid => o.Spares s pid := by
  unfold step
  cases hp : s.perform o with
  | ok s' => exact perform_spared h hone hp
  | error e => exact .calm hone (.of_eq rfl rfl)

/-! ## Runs -/

/-- The sessions that a beat gives a seat. -/
def autoPlaced (s : Store) : Op → List Pid
  | .heartbeat newId daemon facts marked old =>
    ((s.step (.heartbeat newId daemon facts marked old)).incarnations.drop
      s.incarnations.length).map Incarnation.pid
  | _ => []

/-- All of them, over a run. -/
def placements : Store → List Op → List Pid
  | _, [] => []
  | s, o :: ops => s.autoPlaced o ++ placements (s.step o) ops

/-- After the reports of the beat, the session carries the intent and no tag. -/
def Wanted (s : Store) (pid : Pid) : Op → Prop
  | .heartbeat _ daemon facts _ _ => ∃ f, (s.merged daemon facts).fact pid = some f ∧
      f.autoPlace = true ∧ f.managedBy = none ∧ f.continuousTask = none ∧ f.workflowRun = none
  | _ => False

/-- The session is the main of a member whose manager is Owner. -/
def UnderOwner (s : Store) (pid : Pid) : Prop :=
  ∃ i ∈ s.incarnations, i.pid = pid ∧ i.role = .main ∧ i.open_ = true ∧
    s.manager i.member = some ownerId

/-- In the run, the session was a main, or worked for a member. -/
def Served (ops : List Op) (pid : Pid) : Prop :=
  ∃ before after, ops = before ++ after ∧ (before.foldl Store.step seed).Serves pid

theorem candidates_spec {daemon : String} {x : Session} (hx : x ∈ s.candidates daemon) :
    ∃ f, s.fact x.pid = some f ∧ f.autoPlace = true ∧ f.member = none ∧ f.managedBy = none ∧
      f.continuousTask = none ∧ f.workflowRun = none ∧ s.seated x.pid = false := by
  unfold candidates at hx
  rw [List.mem_mergeSort, List.mem_filter] at hx
  obtain ⟨-, hx⟩ := hx
  cases hf : s.fact x.pid with
  | none => simp [hf] at hx
  | some f =>
    simp only [hf, Option.any_some, Bool.and_eq_true, Option.isNone_iff_eq_none,
      Bool.not_eq_true'] at hx
    obtain ⟨⟨-, ⟨⟨⟨hauto, hmember⟩, hmanaged⟩, hcontinuous⟩, hworkflow⟩, hseated⟩ := hx
    exact ⟨f, rfl, hauto, hmember, hmanaged, hcontinuous, hworkflow, hseated⟩

/-- Whom a beat seats. -/
theorem autoPlaced_spec (s : Store) (o : Op) : (s.autoPlaced o).Nodup ∧
    ∀ pid ∈ s.autoPlaced o, s.Wanted pid o ∧ (s.step o).UnderOwner pid ∧
      (o.Spares s pid → ¬ s.Barred pid) := by
  cases o with
  | heartbeat newId daemon facts marked old =>
    cases hp : s.heartbeat newId daemon facts marked old with
    | error e =>
      have hstep : s.step (.heartbeat newId daemon facts marked old) = s := by
        simp only [step, perform, hp]
      have hnone : s.autoPlaced (.heartbeat newId daemon facts marked old) = [] := by
        rw [autoPlaced, hstep, List.drop_length, List.map_nil]
      rw [hnone]
      exact ⟨List.nodup_nil, fun pid hpid => absurd hpid List.not_mem_nil⟩
    | ok s' =>
      obtain ⟨s₁, keep, xs, hseats, hxs, rfl⟩ := heartbeat_ok hp
      have hstep : s.step (.heartbeat newId daemon facts marked old) =
          { s₁ with facts := s₁.facts.filter keep } := by
        simp only [step, perform, hp]
      have hinc : s₁.incarnations = s.incarnations ++ xs.map (seatOf newId) := by
        rw [hseats.seats]
        exact congrArg (· ++ xs.map (seatOf newId)) (incarnations_reports _)
      have hplaced : s.autoPlaced (.heartbeat newId daemon facts marked old) = xs.map Session.pid := by
        rw [autoPlaced, hstep]
        simp only [hinc, List.drop_left, List.map_map]
        rfl
      rw [hplaced, hstep]
      refine ⟨hseats.once, fun pid hpid => ?_⟩
      obtain ⟨x, hx, rfl⟩ := List.mem_map.mp hpid
      obtain ⟨f, hf, hauto, hmember, hmanaged, hcontinuous, hworkflow, hseated⟩ :=
        candidates_spec (hxs x hx)
      refine ⟨⟨f, hf, hauto, hmanaged, hcontinuous, hworkflow⟩, ?_, fun hspare hb => ?_⟩
      · refine ⟨seatOf newId x, ?_, rfl, rfl, rfl, hseats.under x hx⟩
        have hmem : seatOf newId x ∈ s₁.incarnations := by
          rw [hinc]
          exact List.mem_append_right _ (List.mem_map_of_mem hx)
        exact hmem
      · have hbarred : (s.merged daemon facts).Barred x.pid := barred_reports _ hb hspare
        rcases hbarred with hs | hb
        · rw [hseated] at hs
          cases hs
        · rw [hb f hf hmember] at hauto
          cases hauto
  | _ => exact ⟨List.nodup_nil, fun pid hpid => absurd hpid List.not_mem_nil⟩

theorem placements_append (o : Op) : ∀ (ops : List Op) (s : Store),
    placements s (ops ++ [o]) = placements s ops ++ (ops.foldl Store.step s).autoPlaced o
  | [], s => List.append_nil _
  | first :: ops, s => by
    have hrest := placements_append o ops (s.step first)
    rw [List.cons_append, placements, placements, hrest, List.append_assoc]
    rfl

end Store

/-- No operation makes a session that has served a candidate again. -/
def Op.Fresh (before : List Op) (o : Op) : Prop :=
  ∀ pid, Store.Served before pid → o.Spares (before.foldl Store.step seed) pid

namespace Store

/-- Whoever serves after one more step served before, or serves now. -/
theorem served_append {ops : List Op} {o : Op} (h : Served (ops ++ [o]) pid) :
    Served ops pid ∨ ((ops.foldl Store.step seed).step o).Serves pid := by
  obtain ⟨before, after, heq, hs⟩ := h
  rcases List.eq_nil_or_concat after with rfl | ⟨after, last, rfl⟩
  · rw [List.append_nil] at heq
    rw [← heq, List.foldl_append] at hs
    exact .inr hs
  · rw [List.concat_eq_append, ← List.append_assoc] at heq
    exact .inl ⟨before, after, (List.append_inj' heq rfl).1, hs⟩

/-- Every session that has served in a run is barred at its end, and so is not seated again. -/
theorem barred_run {ops : List Op} (h : ∀ before o after, ops = before ++ o :: after → o.Fresh before) :
    (ops.foldl Store.step seed).OneFact ∧
      (∀ pid, Served ops pid → (ops.foldl Store.step seed).Barred pid) ∧
      (seed.placements ops).Nodup ∧ ∀ pid ∈ seed.placements ops, Served ops pid := by
  induction ops using List.reverseRecOn with
  | nil =>
    refine ⟨List.nodup_nil, fun pid _ => ?_, List.nodup_nil, fun pid hpid => absurd hpid List.not_mem_nil⟩
    exact .inr fun f hf => by cases hf
  | append_singleton ops o ih =>
    have hgoes : ∀ before o' after, ops = before ++ o' :: after → o'.Fresh before := by
      rintro before o' after rfl
      refine h before o' (after ++ [o]) ?_
      rw [List.append_assoc, List.cons_append]
    obtain ⟨hone, hbarred, hnodup, hserved⟩ := ih hgoes
    have hfresh : o.Fresh ops := h ops o [] rfl
    have hsound : (ops.foldl Store.step seed).Sound := sound_run ops sound_seed
    have hspared := step_spared hsound hone (o := o)
    have hrun : (ops ++ [o]).foldl Store.step seed = (ops.foldl Store.step seed).step o := by
      rw [List.foldl_append]
      rfl
    have hmore : ∀ pid, Served ops pid → Served (ops ++ [o]) pid := by
      rintro pid ⟨before, after, rfl, hs⟩
      exact ⟨before, after ++ [o], List.append_assoc _ _ _, hs⟩
    obtain ⟨hplaced, hwhom⟩ := autoPlaced_spec (ops.foldl Store.step seed) o
    have hnew : ∀ pid ∈ (ops.foldl Store.step seed).autoPlaced o, ¬ Served ops pid :=
      fun pid hpid hs => (hwhom pid hpid).2.2 (hfresh pid hs) (hbarred pid hs)
    rw [hrun, placements_append]
    refine ⟨hspared.oneFact, fun pid hs => ?_, ?_, fun pid hpid => ?_⟩
    · by_cases hold : Served ops pid
      · exact hspared.barred pid (hfresh pid hold) (hbarred pid hold)
      · -- it serves since the last step
        rcases (served_append hs).resolve_left hold with ⟨i, hi, rfl⟩ | ⟨f, hf, hmember⟩
        · rcases hspared.rows i hi with hrow | hopen
          · exact absurd ⟨ops, [], (List.append_nil _).symm, .inl hrow⟩ hold
          · exact .inl hopen
        · refine .inr fun g hg hnone => ?_
          rw [hf] at hg
          obtain rfl := Option.some.inj hg
          exact absurd hnone hmember
    · refine List.nodup_append.mpr ⟨hnodup, hplaced, ?_⟩
      rintro p hp q hq rfl
      exact hnew p hq (hserved p hp)
    · rcases List.mem_append.mp hpid with hpid | hpid
      · exact hmore pid (hserved pid hpid)
      · obtain ⟨-, ⟨i, hi, rfl, -⟩, -⟩ := hwhom pid hpid
        refine ⟨ops ++ [o], [], (List.append_nil _).symm, .inl ⟨i, ?_, rfl⟩⟩
        rw [hrun]
        exact hi

/-- No session is seated automatically twice; each carries its intent and no tag, becomes a main
under Owner, and has not served before. -/
structure SeatedOnce (ops : List Op) : Prop where
  once : (seed.placements ops).Nodup
  fresh : ∀ before o after, ops = before ++ o :: after →
    ∀ pid ∈ (before.foldl Store.step seed).autoPlaced o,
      (before.foldl Store.step seed).Wanted pid o ∧
        ((before.foldl Store.step seed).step o).UnderOwner pid ∧ ¬ Served before pid

/-- In a run whose steps make no session that has served a candidate again, sessions are seated
automatically at most once. -/
theorem seated_once {ops : List Op} (h : ∀ before o after, ops = before ++ o :: after → o.Fresh before) :
    SeatedOnce ops := by
  refine ⟨(barred_run h).2.2.1, ?_⟩
  rintro before o after rfl pid hpid
  have hgoes : ∀ first o' rest, before = first ++ o' :: rest → o'.Fresh first := by
    rintro first o' rest rfl
    refine h first o' (rest ++ o :: after) ?_
    rw [List.append_assoc, List.cons_append]
  obtain ⟨hwanted, hunder, hbarred⟩ := (autoPlaced_spec _ o).2 pid hpid
  refine ⟨hwanted, hunder, fun hs => ?_⟩
  exact hbarred (h before o after rfl pid hs) ((barred_run hgoes).2.1 pid hs)

/-- A new session of the operator, and its daemon's report. -/
def arrived : Op := .sessions [⟨"agent:d:1", "d", "one", none, some "claude", true⟩,
  ⟨"agent:d:2", "d", "two", none, some "claude", true⟩]

def beat (intent : Bool) : Op := .heartbeat (fun _ => "mem_2") "d"
  [⟨"agent:d:1", "d", none, none, none, none, none, none, none, intent⟩] false []

/-- It is seated by its first beat, and not by the second one, which reports the intent again. -/
theorem seated_once_beats : SeatedOnce [arrived, beat true, beat true] := by
  refine seated_once ?_
  intro before o after heq pid hs
  rcases before with _ | ⟨o₁, _ | ⟨o₂, _ | ⟨o₃, before⟩⟩⟩
  · obtain ⟨rfl, -⟩ := List.cons.inj heq
    trivial
  · obtain ⟨rfl, heq₁⟩ := List.cons.inj heq
    obtain ⟨rfl, -⟩ := List.cons.inj heq₁
    rintro f hf rfl -
    have hpid : f.pid = "agent:d:1" := by
      rw [List.mem_singleton.mp (List.mem_of_mem_filter hf)]
    rw [hpid] at hs
    have hfirst : Served ([] ++ [arrived]) "agent:d:1" := hs
    rcases served_append hfirst with ⟨before, after, hnil, hs⟩ | ⟨i, hi, -⟩ | ⟨g, hg, -⟩
    · obtain ⟨rfl, -⟩ := List.append_eq_nil_iff.mp hnil.symm
      rcases hs with ⟨i, hi, -⟩ | ⟨g, hg, -⟩
      · cases hi
      · cases hg
    · cases hi
    · cases hg
  · obtain ⟨rfl, heq₁⟩ := List.cons.inj heq
    obtain ⟨rfl, heq₂⟩ := List.cons.inj heq₁
    obtain ⟨rfl, -⟩ := List.cons.inj heq₂
    rintro f hf rfl -
    have hpid : f.pid = "agent:d:1" := by
      rw [List.mem_singleton.mp (List.mem_of_mem_filter hf)]
    rw [hpid]
    left
    decide +kernel
  · have hlen := congrArg List.length heq
    simp at hlen

/-- Ada is adopted before the beat that reports her session's intent, and replaced after it. -/
def replaced : List Op := [arrived, .adopt ownerPid "mem_1" "agent:d:1" "ada" "" .agent none none none,
  beat true, .rebind ownerPid "mem_1" "agent:d:2" fun _ => false]

/-- The session that was replaced gets a seat of its own. -/
theorem replaced_main_seated : ¬ SeatedOnce (replaced ++ [beat false]) := by
  intro h
  have hseated : "agent:d:1" ∈ (replaced.foldl Store.step seed).autoPlaced (beat false) := by
    decide +kernel
  have hrow : ∃ i ∈ (replaced.foldl Store.step seed).incarnations, i.pid = "agent:d:1" := by
    decide +kernel
  exact (h.fresh replaced (beat false) [] rfl _ hseated).2.2
    ⟨replaced, [], (List.append_nil _).symm, .inl hrow⟩

end Store

end Org
