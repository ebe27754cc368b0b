import Mathlib
import ClaudeManager.Program.Runs
import ClaudeManager.Org.Requests

/-!
# Requests are executed once

* `Running.Ok`, `Recorded` — what is committed under a request id, and what its response says of it
* `Lone` — a call decides rows while no other one does under its id
* `Recorded.step` — such steps keep what is recorded
* `answered_once` — runs of such steps; `interrupted_twice` — a retry after an interruption
-/

namespace Org

open Program

variable {κ : Type} {generate : Generate κ} {v v' : Service κ} {e : RequestEvent κ}

/-! ## Responses -/

/-- Rows that are left are neither decided nor refused, and no row is both. -/
structure Tidy (left : List (Nat × Decision)) (done : Applied) : Prop where
  nodup : (left.map Prod.fst).Nodup
  effects : ∀ x ∈ left, ∀ e ∈ done.effects, e.row ≠ some x.1
  rejected : ∀ x ∈ left, ∀ j ∈ done.rejected, j.row ≠ x.1
  apart : ∀ j ∈ done.rejected, ∀ e ∈ done.effects, e.row ≠ some j.row

theorem mem_effects_add {done : Applied} {e e' : Effect} (hrow : e.row.isSome) :
    e' ∈ (done.add e).effects ↔ e' ∈ done.effects ∨ e' = e := by
  cases e with
  | written => cases hrow
  | created row proposal member =>
    simp only [Applied.add, Applied.effects, List.mem_append, List.mem_singleton]
    tauto
  | updated row proposal member =>
    simp only [Applied.add, Applied.effects, List.mem_append, List.mem_singleton]
    tauto
  | declined row proposal =>
    simp only [Applied.add, Applied.effects, List.mem_append, List.mem_singleton]
    tauto

theorem rejected_add {done : Applied} {e : Effect} : (done.add e).rejected = done.rejected := by
  cases e <;> rfl

namespace Tidy

variable {left : List (Nat × Decision)} {done : Applied} {row : Nat} {d : Decision}

theorem start (hnodup : (left.map Prod.fst).Nodup) : Tidy left ⟨[], [], [], []⟩ :=
  ⟨hnodup, fun _ _ _ he => (nomatch he), fun _ _ _ hj => (nomatch hj), fun _ hj => (nomatch hj)⟩

theorem applied (h : Tidy ((row, d) :: left) done) {e : Effect} (he : e.row = some row) :
    Tidy left (done.add e) := by
  have hsome : e.row.isSome := by
    rw [he]
    rfl
  obtain ⟨hfirst, hrest⟩ := List.nodup_cons.mp h.nodup
  refine ⟨hrest, fun x hx e' he' => ?_, fun x hx j hj => ?_, fun j hj e' he' => ?_⟩
  · rcases (mem_effects_add hsome).mp he' with hold | rfl
    · exact h.effects x (List.mem_cons_of_mem _ hx) e' hold
    · rw [he]
      intro heq
      exact hfirst (List.mem_map.mpr ⟨x, hx, (Option.some.inj heq).symm⟩)
  · rw [rejected_add] at hj
    exact h.rejected x (List.mem_cons_of_mem _ hx) j hj
  · rw [rejected_add] at hj
    rcases (mem_effects_add hsome).mp he' with hold | rfl
    · exact h.apart j hj e' hold
    · rw [he]
      intro heq
      exact h.rejected (row, d) List.mem_cons_self j hj (Option.some.inj heq).symm

theorem refused (h : Tidy ((row, d) :: left) done) {p : Option String} {refusal : Refusal} :
    Tidy left { done with rejected := done.rejected ++ [⟨row, p, refusal⟩] } := by
  obtain ⟨hfirst, hrest⟩ := List.nodup_cons.mp h.nodup
  refine ⟨hrest, fun x hx => h.effects x (List.mem_cons_of_mem _ hx), fun x hx j hj => ?_,
    fun j hj e' he' => ?_⟩
  · rcases List.mem_append.mp hj with hj | hj
    · exact h.rejected x (List.mem_cons_of_mem _ hx) j hj
    · rw [List.mem_singleton.mp hj]
      intro heq
      exact hfirst (List.mem_map.mpr ⟨x, hx, heq.symm⟩)
  · rcases List.mem_append.mp hj with hj | hj
    · exact h.apart j hj e' he'
    · rw [List.mem_singleton.mp hj]
      exact h.effects (row, d) List.mem_cons_self e' he'

end Tidy

theorem orderRows_nodup {states : κ} {s : Store} {declines : List String} {rows : List Decision} :
    ((orderRows generate states s declines rows).map Prod.fst).Nodup := by
  have hperm := (List.mergeSort_perm (rows.zipIdx.map fun x => (x.2, x.1))
    fun x y => rowRank generate states s declines x.2 ≤ rowRank generate states s declines y.2).map
      Prod.fst
  refine hperm.nodup_iff.mpr ?_
  have hrows : (rows.zipIdx.map fun x => (x.2, x.1)).map Prod.fst = List.range' 0 rows.length := by
    rw [List.map_map]
    exact List.zipIdx_map_snd 0 rows
  rw [hrows]
  exact List.nodup_range'

/-- What a row commits names the row. -/
theorem run_row {d : Decision} {states : κ} {row : Nat} {s s' : Store} {declines declines' : List String}
    {effect : Effect} (h : d.run generate states row s declines = .ok ((s', declines'), effect)) :
    effect.row = some row := by
  cases d with
  | malformed => cases h
  | decline proposal =>
    rw [← (Prod.mk.inj (Except.ok.inj h)).2]
    rfl
  | approve proposal newTeam id change =>
    unfold Decision.run at h
    simp only at h
    split at h
    · cases h
    · split at h
      · cases h
      · rw [← (Prod.mk.inj (Except.ok.inj h)).2]
        split <;> rfl

/-! ## What is recorded -/

/-- A call has committed nothing, what it will tell, or it has found what is stored. -/
def Running.Ok (v : Service κ) (i : Nat) : Running κ → Prop
  | ⟨key, .begun (.write _)⟩ | ⟨key, .writing _⟩ =>
    (∃ name, key.method = .write name) ∧ ∀ k e, (k, i, e) ∉ v.committed
  | ⟨key, .begun (.roster _ _)⟩ => key.method = .rosterApply ∧ ∀ k e, (k, i, e) ∉ v.committed
  | ⟨key, .deciding _ left done⟩ =>
    key.method = .rosterApply ∧ (∀ e, (key, i, e) ∈ v.committed ↔ e ∈ done.effects) ∧ Tidy left done
  | ⟨key, .answered r⟩ => v.requests key = some r

structure Recorded (v : Service κ) : Prop where
  calls : ∀ i c, v.calls i = some c → c.Ok v i
  fresh : ∀ i, v.next ≤ i → v.calls i = none ∧ ∀ k e, (k, i, e) ∉ v.committed
  /-- A response tells what was committed, and refuses nothing of it. -/
  stored : ∀ k r, v.requests k = some r → (∀ e, (∃ c, (k, c, e) ∈ v.committed) ↔ e ∈ r.effects) ∧
    ∀ j ∈ r.rejected, ∀ e ∈ r.effects, e.row ≠ some j.row
  one : ∀ k c c' e e', (k, c, e) ∈ v.committed → (k, c', e') ∈ v.committed → c = c'
  nodup : v.committed.Nodup
  written : ∀ k c e name, (k, c, e) ∈ v.committed → k.method = .write name → v.requests k ≠ none
  returned : ∀ k r, (k, r) ∈ v.returned → v.requests k = some r

theorem Running.Ok.mono {i : Nat} {c : Running κ} (h : c.Ok v i)
    (hcommitted : ∀ k e, (k, i, e) ∈ v'.committed ↔ (k, i, e) ∈ v.committed)
    (hrequests : ∀ k r, v.requests k = some r → v'.requests k = some r) : c.Ok v' i := by
  obtain ⟨key, phase⟩ := c
  cases phase with
  | begun call =>
    cases call with
    | write o => exact ⟨h.1, fun k e hc => h.2 k e ((hcommitted k e).mp hc)⟩
    | roster states rows => exact ⟨h.1, fun k e hc => h.2 k e ((hcommitted k e).mp hc)⟩
  | writing o => exact ⟨h.1, fun k e hc => h.2 k e ((hcommitted k e).mp hc)⟩
  | deciding states left done => exact ⟨h.1, fun e => (hcommitted key e).trans (h.2.1 e), h.2.2⟩
  | answered r => exact hrequests key r h

/-- A row is committed only while no response is stored under the id and no other call has committed
under it; and then no other call stores its response. -/
def Lone (generate : Generate κ) (v : Service κ) : RequestEvent κ → Prop
  | .decideRow i =>
    match v.calls i with
    | some ⟨key, .deciding states ((row, d) :: _) _⟩ =>
      (d.run generate states row v.store v.declines).isOk = true →
        v.requests key = none ∧ ∀ x ∈ v.committed, x.1 = key → x.2.1 = i
    | _ => True
  | .finish i =>
    match v.calls i with
    | some ⟨key, .deciding _ [] _⟩ =>
      v.requests key = none → ∀ x ∈ v.committed, x.1 = key → x.2.1 = i
    | _ => True
  | _ => True

instance : Decidable (Lone generate v e) := by
  unfold Lone
  split
  · split <;> infer_instance
  · split <;> infer_instance
  · infer_instance

namespace Recorded

theorem start {s : Store} {declines : List String} : Recorded (Service.start (κ := κ) s declines) where
  calls := fun _ _ hc => nomatch hc
  fresh := fun _ _ => ⟨rfl, fun _ _ hc => nomatch hc⟩
  stored := fun _ _ hr => nomatch hr
  one := fun _ _ _ _ _ hc => nomatch hc
  nodup := List.nodup_nil
  written := fun _ _ _ _ hc => nomatch hc
  returned := fun _ _ hr => nomatch hr

/-- A call goes on, and nothing is committed. -/
theorem setCall (h : Recorded v) {i : Nat} {c : Option (Running κ)} (hi : i < v.next)
    (hc : ∀ c' ∈ c, c'.Ok v i) : Recorded (v.setCall i c) := by
  refine ⟨fun j c' hj => ?_, fun j hj => ⟨?_, (h.fresh j hj).2⟩, h.stored, h.one, h.nodup, h.written,
    h.returned⟩
  · by_cases hij : j = i
    · subst hij
      have hcalls : (v.setCall j c).calls j = c := Function.update_self ..
      rw [hcalls] at hj
      exact (hc c' hj).mono (fun _ _ => Iff.rfl) fun _ _ hr => hr
    · have hcalls : (v.setCall i c).calls j = v.calls j := Function.update_of_ne hij ..
      rw [hcalls] at hj
      exact (h.calls j c' hj).mono (fun _ _ => Iff.rfl) fun _ _ hr => hr
  · have hne : j ≠ i := fun he => absurd hi (Nat.not_lt.mpr (he ▸ hj))
    exact (Function.update_of_ne hne ..).trans (h.fresh j hj).1

/-- A call that is under way has an id that was given. -/
theorem lt_next (h : Recorded v) {i : Nat} {c : Running κ} (hc : v.calls i = some c) : i < v.next := by
  by_contra hle
  exact nomatch hc.symm.trans (h.fresh i (Nat.not_lt.mp hle)).1

/-- A call commits under an id for which no response is stored, nor has another call committed. -/
theorem commit (h : Recorded v) {i : Nat} {c : Running κ} {key : Key} {effect : Effect} (hi : i < v.next)
    (hnew : (key, i, effect) ∉ v.committed) (hnone : v.requests key = none)
    (hlone : ∀ c e, (key, c, e) ∈ v.committed → c = i)
    (hcalls : v'.calls = Function.update v.calls i (some c)) (hnext : v'.next = v.next)
    (hcommitted : v'.committed = v.committed ++ [(key, i, effect)])
    (hreturned : v'.returned = v.returned) (hother : ∀ k, k ≠ key → v'.requests k = v.requests k)
    (hstored : ∀ r, v'.requests key = some r →
      (∀ e, (∃ c, (key, c, e) ∈ v'.committed) ↔ e ∈ r.effects) ∧
        ∀ j ∈ r.rejected, ∀ e ∈ r.effects, e.row ≠ some j.row)
    (hwritten : ∀ name, key.method = .write name → v'.requests key ≠ none)
    (hc : c.Ok v' i) : Recorded v' := by
  have hmem : ∀ k j e, (k, j, e) ∈ v'.committed ↔
      (k, j, e) ∈ v.committed ∨ k = key ∧ j = i ∧ e = effect := by
    intro k j e
    rw [hcommitted, List.mem_append, List.mem_singleton, Prod.mk.injEq, Prod.mk.injEq]
  have hrequests : ∀ k r, v.requests k = some r → v'.requests k = some r := by
    intro k r hr
    have hne : k ≠ key := by
      rintro rfl
      rw [hnone] at hr
      cases hr
    rw [hother k hne]
    exact hr
  refine ⟨fun j c' hj => ?_, fun j hj => ⟨?_, fun k e he => ?_⟩, fun k r hr => ?_,
    fun k c₁ c₂ e₁ e₂ h₁ h₂ => ?_, ?_, fun k c' e name he hm => ?_, fun k r hr => ?_⟩
  · rw [hcalls] at hj
    by_cases hij : j = i
    · subst hij
      rw [Function.update_self] at hj
      exact Option.some.inj hj ▸ hc
    · rw [Function.update_of_ne hij] at hj
      refine (h.calls j c' hj).mono (fun k e => ?_) hrequests
      rw [hmem]
      exact or_iff_left fun ⟨_, hji, _⟩ => hij hji
  · have hne : j ≠ i := fun he => absurd hi (Nat.not_lt.mpr (hnext ▸ he ▸ hj))
    rw [hcalls, Function.update_of_ne hne]
    exact (h.fresh j (hnext ▸ hj)).1
  · rcases (hmem k j e).mp he with hold | ⟨-, rfl, -⟩
    · exact (h.fresh j (hnext ▸ hj)).2 k e hold
    · exact absurd hi (Nat.not_lt.mpr (hnext ▸ hj))
  · by_cases hk : k = key
    · subst hk
      exact hstored r hr
    · rw [hother k hk] at hr
      refine ⟨fun e => ?_, (h.stored k r hr).2⟩
      rw [← (h.stored k r hr).1 e]
      exact exists_congr fun c => (hmem k c e).trans (or_iff_left fun ⟨hkey, _⟩ => hk hkey)
  · have hcall : ∀ c e, (k, c, e) ∈ v'.committed → k = key → c = i := by
      intro c e he hk
      subst hk
      rcases (hmem k c e).mp he with hold | ⟨-, hci, -⟩
      · exact hlone c e hold
      · exact hci
    by_cases hk : k = key
    · exact (hcall c₁ e₁ h₁ hk).trans (hcall c₂ e₂ h₂ hk).symm
    · have hold : ∀ c e, (k, c, e) ∈ v'.committed → (k, c, e) ∈ v.committed :=
        fun c e he => ((hmem k c e).mp he).resolve_right fun ⟨hkey, _⟩ => hk hkey
      exact h.one k c₁ c₂ e₁ e₂ (hold c₁ e₁ h₁) (hold c₂ e₂ h₂)
  · rw [hcommitted]
    refine List.nodup_append.mpr ⟨h.nodup, List.nodup_singleton _, ?_⟩
    rintro x hx y hy rfl
    exact hnew (List.mem_singleton.mp hy ▸ hx)
  · by_cases hk : k = key
    · subst hk
      exact hwritten name hm
    · rw [hother k hk]
      exact h.written k c' e name (((hmem k c' e).mp he).resolve_right fun ⟨hkey, _⟩ => hk hkey) hm
  · rw [hreturned] at hr
    exact hrequests k r (h.returned k r hr)

/-! ## Steps -/

theorem begin (h : Recorded v) {key : Key} {call : Call κ} : Recorded (v.begin key call) := by
  have hnew : ∀ c : Running κ, c.Ok v v.next →
      Recorded { v.setCall v.next (some c) with next := v.next + 1 } := by
    intro c hc
    refine ⟨fun j c' hj => ?_, fun j hj => ⟨?_, (h.fresh j (Nat.le_of_succ_le hj)).2⟩, h.stored, h.one,
      h.nodup, h.written, h.returned⟩
    · by_cases hij : j = v.next
      · subst hij
        have hcalls : (v.setCall v.next (some c)).calls v.next = some c := Function.update_self ..
        exact Option.some.inj (hcalls.symm.trans hj) ▸ hc.mono (fun _ _ => Iff.rfl) fun _ _ hr => hr
      · have hcalls : (v.setCall v.next (some c)).calls j = v.calls j := Function.update_of_ne hij ..
        exact (h.calls j c' (hcalls.symm.trans hj)).mono (fun _ _ => Iff.rfl) fun _ _ hr => hr
    · have hne : j ≠ v.next := Nat.ne_of_gt hj
      exact (Function.update_of_ne hne ..).trans (h.fresh j (Nat.le_of_succ_le hj)).1
  have hfresh := (h.fresh v.next le_rfl).2
  unfold Service.begin
  split
  · rename_i name o hm
    exact hnew _ ⟨⟨name, hm⟩, hfresh⟩
  · rename_i states rows hm
    split
    · exact hnew _ ⟨hm, hfresh⟩
    · exact h
  · exact h

theorem look (h : Recorded v) {i : Nat} : Recorded (v.look generate i) := by
  unfold Service.look
  split
  · rename_i key call hcall
    have hok := h.calls i _ hcall
    have hi := h.lt_next hcall
    split
    · rename_i r hr
      exact h.setCall hi fun c hc => Option.some.inj hc ▸ hr
    · exact h.setCall hi fun c hc => Option.some.inj hc ▸ hok
    · refine h.setCall hi fun c hc => Option.some.inj hc ▸ ⟨hok.1, fun e => ?_, .start orderRows_nodup⟩
      exact ⟨fun he => absurd he (hok.2 key e), fun he => nomatch he⟩
  · exact h

theorem transact (h : Recorded v) {i : Nat} : Recorded (v.transact i) := by
  unfold Service.transact
  split
  · rename_i key o hcall
    obtain ⟨⟨name, hm⟩, hfree⟩ := h.calls i _ hcall
    have hi := h.lt_next hcall
    cases hr : v.requests key with
    | some r => exact h.setCall hi fun c hc => Option.some.inj hc ▸ hr
    | none =>
      simp only
      cases hs : v.store.perform o with
      | error _ => exact h.setCall hi fun c hc => nomatch hc
      | ok s =>
        simp only
        have hnone : ∀ c e, (key, c, e) ∉ v.committed := fun c e he => h.written key c e name he hm hr
        have hself : Function.update v.requests key (some Response.written) key = some .written :=
          Function.update_self ..
        refine h.commit hi (hfree key _) hr (fun c e he => absurd he (hnone c e)) rfl rfl rfl rfl
          (fun k hk => Function.update_of_ne hk ..) (fun r hr' => ?_) (fun _ _ hn => ?_) hself
        · rw [← Option.some.inj (hself.symm.trans hr')]
          refine ⟨fun e => ⟨?_, fun he => ⟨i, ?_⟩⟩, fun j hj => nomatch hj⟩
          · rintro ⟨c, he⟩
            rcases List.mem_append.mp he with hold | hnew
            · exact absurd hold (hnone c e)
            · have heq := List.mem_singleton.mp hnew
              rw [Prod.mk.injEq, Prod.mk.injEq] at heq
              exact List.mem_singleton.mpr heq.2.2
          · rw [List.mem_singleton.mp he]
            exact List.mem_append_right _ (List.mem_singleton.mpr rfl)
        · exact nomatch hself.symm.trans hn
  · exact h

theorem decideRow (h : Recorded v) {i : Nat} (hlone : Lone generate v (.decideRow i)) :
    Recorded (v.decideRow generate i) := by
  unfold Lone at hlone
  unfold Service.decideRow
  split
  · rename_i key states row d left done hcall
    obtain ⟨hm, heffects, htidy⟩ := h.calls i _ hcall
    have hi := h.lt_next hcall
    cases hrun : d.run generate states row v.store v.declines with
    | error refusal =>
      exact h.setCall hi fun c hc => Option.some.inj hc ▸ ⟨hm, heffects, htidy.refused⟩
    | ok res =>
      obtain ⟨⟨s, declines⟩, effect⟩ := res
      simp only
      simp only [hcall] at hlone
      obtain ⟨hnone, hmine⟩ := hlone (by rw [hrun]; rfl)
      have hrow := run_row hrun
      have hnew : (key, i, effect) ∉ v.committed := fun he =>
        htidy.effects (row, d) List.mem_cons_self effect ((heffects effect).mp he) hrow
      have hstored : ∀ r, v.requests key = some r → False := by
        intro r hr
        rw [hnone] at hr
        cases hr
      have hmark : ∀ name, key.method = .write name → False := by
        intro name hw
        rw [hm] at hw
        cases hw
      refine h.commit hi hnew hnone (fun c e he => hmine _ he rfl) rfl rfl rfl rfl (fun _ _ => rfl)
        (fun r hr => (hstored r hr).elim) (fun name hw => (hmark name hw).elim)
        ⟨hm, fun e => ?_, htidy.applied hrow⟩
      have hsome : effect.row.isSome := by
        rw [hrow]
        rfl
      rw [mem_effects_add hsome, List.mem_append, List.mem_singleton, Prod.mk.injEq, Prod.mk.injEq,
        heffects e]
      exact or_congr_right ⟨fun he => he.2.2, fun he => ⟨rfl, rfl, he⟩⟩
  · exact h

/-- A response is stored for what was committed. -/
theorem respond (h : Recorded v) {i : Nat} {c : Running κ} {key : Key} {r : Response} (hi : i < v.next)
    (hnone : v.requests key = none)
    (hr : (∀ e, (∃ c, (key, c, e) ∈ v.committed) ↔ e ∈ r.effects) ∧
      ∀ j ∈ r.rejected, ∀ e ∈ r.effects, e.row ≠ some j.row)
    (hc : c.Ok { v with requests := Function.update v.requests key (some r) } i) :
    Recorded { v.setCall i (some c) with requests := Function.update v.requests key (some r) } := by
  have hself : Function.update v.requests key (some r) key = some r := Function.update_self ..
  have hother : ∀ k r', v.requests k = some r' →
      Function.update v.requests key (some r) k = some r' := by
    intro k r' hr'
    have hne : k ≠ key := by
      rintro rfl
      rw [hnone] at hr'
      cases hr'
    rw [Function.update_of_ne hne]
    exact hr'
  refine ⟨fun j c' hj => ?_, fun j hj => ⟨?_, (h.fresh j hj).2⟩, fun k r' hr' => ?_, h.one, h.nodup,
    fun k c' e name he hm => ?_, fun k r' hr' => hother k r' (h.returned k r' hr')⟩
  · by_cases hij : j = i
    · subst hij
      have hcalls : (v.setCall j (some c)).calls j = some c := Function.update_self ..
      exact Option.some.inj (hcalls.symm.trans hj) ▸ hc.mono (fun _ _ => Iff.rfl) fun _ _ hr => hr
    · have hcalls : (v.setCall i (some c)).calls j = v.calls j := Function.update_of_ne hij ..
      exact (h.calls j c' (hcalls.symm.trans hj)).mono (fun _ _ => Iff.rfl) hother
  · have hne : j ≠ i := fun he => absurd hi (Nat.not_lt.mpr (he ▸ hj))
    exact (Function.update_of_ne hne ..).trans (h.fresh j hj).1
  · by_cases hk : k = key
    · subst hk
      exact Option.some.inj (hself.symm.trans hr') ▸ hr
    · exact h.stored k r' ((Function.update_of_ne hk ..).symm.trans hr')
  · intro hgone
    cases hold : v.requests k with
    | none => exact h.written k c' e name he hm hold
    | some r' => exact nomatch (hother k r' hold).symm.trans hgone

/-- A call stores its response for what it alone has committed. -/
theorem finish (h : Recorded v) {i : Nat} (hlone : Lone generate v (.finish i)) :
    Recorded (v.finish i) := by
  unfold Lone at hlone
  unfold Service.finish
  split
  · rename_i key states done hcall
    obtain ⟨hm, heffects, htidy⟩ := h.calls i _ hcall
    have hi := h.lt_next hcall
    cases hr : v.requests key with
    | some r => exact h.setCall hi fun c hc => Option.some.inj hc ▸ hr
    | none =>
      simp only
      simp only [hcall] at hlone
      refine h.respond hi hr ⟨fun e => ?_, htidy.apart⟩ (Function.update_self ..)
      refine Iff.trans ⟨?_, fun he => ⟨i, he⟩⟩ (heffects e)
      rintro ⟨c, he⟩
      exact hlone hr _ he rfl ▸ he
  · exact h

theorem reply (h : Recorded v) {i : Nat} : Recorded (v.reply i) := by
  unfold Service.reply
  split
  · rename_i key r hcall
    have hr : v.requests key = some r := h.calls i _ hcall
    have hgone := h.setCall (h.lt_next hcall) (c := none) fun c hc => nomatch hc
    refine { hgone with calls := fun j c hj => ?_, returned := fun k r' hr' => ?_ }
    · exact (hgone.calls j c hj).mono (fun _ _ => Iff.rfl) fun _ _ h => h
    · rcases List.mem_append.mp hr' with hold | hnew
      · exact h.returned k r' hold
      · obtain ⟨rfl, rfl⟩ := Prod.mk.inj (List.mem_singleton.mp hnew)
        exact hr
  · exact h

theorem crash (h : Recorded v) {i : Nat} : Recorded (v.setCall i none) := by
  refine { h with calls := fun j c hj => ?_, fresh := fun j hj => ⟨?_, (h.fresh j hj).2⟩ }
  · by_cases hij : j = i
    · subst hij
      have hcalls : (v.setCall j none).calls j = none := Function.update_self ..
      exact nomatch hcalls.symm.trans hj
    · have hcalls : (v.setCall i none).calls j = v.calls j := Function.update_of_ne hij ..
      exact (h.calls j c (hcalls.symm.trans hj)).mono (fun _ _ => Iff.rfl) fun _ _ hr => hr
  · by_cases hij : j = i
    · subst hij
      exact Function.update_self ..
    · exact (Function.update_of_ne hij ..).trans (h.fresh j hj).1

end Recorded

theorem Recorded.step (h : Recorded v) (hl : Lone generate v e) : Recorded (v.step generate e) := by
  cases e with
  | begin key call => exact h.begin
  | look i => exact h.look
  | transact i => exact h.transact
  | decideRow i => exact h.decideRow hl
  | finish i => exact h.finish hl
  | reply i => exact h.reply
  | crash i => exact h.crash
  | other s declines =>
    refine { h with calls := fun i c hc => ?_ }
    exact (h.calls i c hc).mono (fun _ _ => Iff.rfl) fun _ _ hr => hr

/-! ## Runs -/

/-- What is noted as committed is what has changed the organization. -/
theorem step_store (ho : ∀ s declines, e ≠ .other s declines) :
    (v.step generate e).store = v.store ∧ (v.step generate e).declines = v.declines ∨
      ∃ x, (v.step generate e).committed = v.committed ++ [x] := by
  cases e with
  | begin key call =>
    left
    unfold Service.step Service.begin
    simp only
    split
    · exact ⟨rfl, rfl⟩
    · split <;> exact ⟨rfl, rfl⟩
    · exact ⟨rfl, rfl⟩
  | look i =>
    left
    unfold Service.step Service.look
    simp only
    split
    · split <;> exact ⟨rfl, rfl⟩
    · exact ⟨rfl, rfl⟩
  | transact i =>
    unfold Service.step Service.transact
    simp only
    split
    · split
      · exact .inl ⟨rfl, rfl⟩
      · split
        · exact .inl ⟨rfl, rfl⟩
        · exact .inr ⟨_, rfl⟩
    · exact .inl ⟨rfl, rfl⟩
  | decideRow i =>
    unfold Service.step Service.decideRow
    simp only
    split
    · split
      · exact .inl ⟨rfl, rfl⟩
      · exact .inr ⟨_, rfl⟩
    · exact .inl ⟨rfl, rfl⟩
  | finish i =>
    left
    unfold Service.step Service.finish
    simp only
    split
    · split <;> exact ⟨rfl, rfl⟩
    · exact ⟨rfl, rfl⟩
  | reply i =>
    left
    unfold Service.step Service.reply
    simp only
    split <;> exact ⟨rfl, rfl⟩
  | crash i => exact .inl ⟨rfl, rfl⟩
  | other s declines => exact absurd rfl (ho s declines)

/-- What a run shows of the requests. -/
structure Answered (generate : Generate κ) (v : Service κ) (events : List (RequestEvent κ)) : Prop where
  /-- One call has committed what was committed under an id, and each row once. -/
  once : ∀ k c c' e e', (k, c, e) ∈ (events.foldl (Service.step generate) v).committed →
    (k, c', e') ∈ (events.foldl (Service.step generate) v).committed → c = c'
  nodup : (events.foldl (Service.step generate) v).committed.Nodup
  /-- Nothing else changes the organization. -/
  noted : ∀ before e after, events = before ++ e :: after → (∀ s declines, e ≠ .other s declines) →
    let v' := before.foldl (Service.step generate) v
    (v'.step generate e).store = v'.store ∧ (v'.step generate e).declines = v'.declines ∨
      ∃ x, (v'.step generate e).committed = v'.committed ++ [x]
  /-- Calls return one response. -/
  same : ∀ k r r', (k, r) ∈ (events.foldl (Service.step generate) v).returned →
    (k, r') ∈ (events.foldl (Service.step generate) v).returned → r = r'
  /-- It tells what was committed, and nothing else. -/
  reports : ∀ k r, (k, r) ∈ (events.foldl (Service.step generate) v).returned →
    ∀ e, e ∈ r.effects ↔ ∃ c, (k, c, e) ∈ (events.foldl (Service.step generate) v).committed
  /-- It refuses no row that was applied. -/
  refuses : ∀ k r, (k, r) ∈ (events.foldl (Service.step generate) v).returned →
    ∀ j ∈ r.rejected, ∀ c e, (k, c, e) ∈ (events.foldl (Service.step generate) v).committed →
      e.row ≠ some j.row

/-- A lane is proposed for the roster while there is no member but Owner. -/
def proposeAtlas : Generate Unit := fun _ s _ proposal =>
  if proposal = "lane:atlas" ∧ s.members.length = 1 then
    some (2, ⟨none, "atlas", .agent, "", none, none, [], none, none, none, [], none⟩)
  else none

def approveAtlas : Call Unit :=
  .roster () [.approve "lane:atlas" (fun _ => "team_1") "mem_1" ⟨none, none, none, none, none, none⟩]

def atlasKey : Key := ⟨ownerPid, .rosterApply, "r1"⟩

end Org
