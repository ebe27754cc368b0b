import Mathlib
import ClaudeManager.Org.Orderly

/-!
# The reporting line

* `Under`, `Below` — the subtree of a member
* `mem_chain` — the managers that are read: those up to 64 above
* `requireChain_ok` — who is accepted
-/

namespace Org

open Relation Program

namespace Store

variable {s s' : Store} {id x a : MemberId} {actor pid : Pid}

/-! ## Subtrees -/

/-- The member is in the subtree of `a`, which is in it itself. -/
def Under (s : Store) (a x : MemberId) : Prop := ReflTransGen (Edge s.manager) x a

/-- The member is a descendant of `a`. -/
def Below (s : Store) (a x : MemberId) : Prop := TransGen (Edge s.manager) x a

theorem Below.under (h : s.Below a x) : s.Under a x := h.to_reflTransGen

/-- The manager of a descendant is in the subtree. -/
theorem Below.manager (h : s.Below a x) : ∃ up, s.manager x = some up ∧ s.Under a up := by
  obtain ⟨up, hup, hreach⟩ := TransGen.head'_iff.mp h
  exact ⟨up, hup, hreach⟩

theorem Under.manager_of (h : s.Under a x) {y : MemberId} (hy : s.manager y = some x) :
    s.Under a y := ReflTransGen.head hy h

/-! ## Who acts -/

/-- The session is the open main of the active member. -/
def ActsFor (s : Store) (actor : Pid) (a : MemberId) : Prop :=
  ∃ i ∈ s.incarnations, i.pid = actor ∧ i.role = .main ∧ i.open_ = true ∧ i.member = a ∧
    ∃ m, s.member a = some m ∧ m.status = .active

/-- A session has one open seat. -/
theorem seat_unique (h : s.Seated) {i j : Incarnation} (hi : i ∈ s.incarnations)
    (hj : j ∈ s.incarnations) (hpid : i.pid = j.pid) (hio : i.open_ = true) (hjo : j.open_ = true) :
    i = j := by
  refine eq_of_countP (h.pids j.pid) hi hj ?_ ?_
  · simp [hpid, hio]
  · simp [hjo]

theorem ActsFor.unique (h : s.Seated) {b : MemberId} (ha : s.ActsFor actor a)
    (hb : s.ActsFor actor b) : a = b := by
  obtain ⟨i, hi, hip, -, hio, rfl, -⟩ := ha
  obtain ⟨j, hj, hjp, -, hjo, rfl, -⟩ := hb
  rw [seat_unique h hi hj (hip.trans hjp.symm) hio hjo]

theorem actorMember_iff (h : s.Seated) : s.actorMember actor = some a ↔ s.ActsFor actor a := by
  constructor
  · intro ha
    obtain ⟨i, hi, rfl⟩ := Option.map_eq_some_iff.mp ha
    have hc := List.find?_some hi
    simp only [Bool.and_eq_true, decide_eq_true_eq] at hc
    obtain ⟨⟨⟨hpid, hrole⟩, hopen⟩, hactive⟩ := hc
    refine ⟨i, List.mem_of_find?_eq_some hi, hpid, hrole, hopen, rfl, ?_⟩
    cases hm : s.member i.member with
    | none =>
      rw [hm] at hactive
      cases hactive
    | some m =>
      rw [hm] at hactive
      exact ⟨m, rfl, of_decide_eq_true hactive⟩
  · rintro ⟨i, hi, hpid, hrole, hopen, rfl, m, hm, hactive⟩
    cases hfind : s.incarnations.find? fun i => i.pid = actor && i.role = .main && i.open_
        && (s.member i.member).any fun m => m.status = .active with
    | none =>
      have hno := List.find?_eq_none.mp hfind i hi
      exact absurd (by simp [hpid, hrole, hopen, hm, hactive]) hno
    | some j =>
      have hc := List.find?_some hfind
      simp only [Bool.and_eq_true, decide_eq_true_eq] at hc
      have hj := seat_unique h (List.mem_of_find?_eq_some hfind) hi (hc.1.1.1.trans hpid.symm) hc.1.2
        hopen
      unfold actorMember
      rw [hfind, hj]
      rfl

/-! ## The managers that are read -/

theorem mem_chainFrom (h : s.Rooted) : ∀ (n : Nat) (seen : List MemberId) (cur : MemberId),
    (∀ y ∈ seen, ReflTransGen (Edge s.manager) y cur) →
    (a ∈ s.chainFrom n seen cur ↔ ∃ k < n, climb s.manager (k + 1) cur = some a)
  | 0, seen, cur, _ => by
    constructor
    · intro ha
      cases ha
    · rintro ⟨k, hk, -⟩
      cases hk
  | n + 1, seen, cur, hseen => by
    unfold chainFrom
    cases hup : s.manager cur with
    | none =>
      simp only [climb, hup, Option.bind_none]
      constructor
      · intro ha
        cases ha
      · rintro ⟨k, -, hk⟩
        cases hk
    | some up =>
      have hedge : Edge s.manager cur up := hup
      -- a member seen before would close a loop
      have hnew : up ∉ seen := fun hmem =>
        h.acyclic up (TransGen.tail' (hseen up hmem) hedge)
      obtain ⟨m, hm⟩ := Option.isSome_iff_exists.mp (h.manager_known hup)
      have hrest := mem_chainFrom h n (up :: seen) up (by
        intro y hy
        rcases List.mem_cons.mp hy with rfl | hy
        · exact .refl
        · exact (hseen y hy).tail hedge)
      simp only [if_neg hnew, hm, List.mem_cons]
      rw [hrest]
      constructor
      · rintro (rfl | ⟨k, hk, hclimb⟩)
        · refine ⟨0, Nat.succ_pos n, ?_⟩
          simp [climb, hup]
        · refine ⟨k + 1, Nat.succ_lt_succ hk, ?_⟩
          rw [climb, hup, Option.bind_some]
          exact hclimb
      · rintro ⟨k, hk, hclimb⟩
        rw [climb, hup, Option.bind_some] at hclimb
        cases k with
        | zero => exact .inl (Option.some.inj hclimb).symm
        | succ k => exact .inr ⟨k, Nat.lt_of_succ_lt_succ hk, hclimb⟩

theorem mem_chain (h : s.Rooted) :
    a ∈ s.chain x ↔ ∃ k < 64, climb s.manager (k + 1) x = some a := by
  refine mem_chainFrom h 64 [x] x ?_
  intro y hy
  rw [List.mem_singleton.mp hy]

theorem below_of_chain (h : s.Rooted) (ha : a ∈ s.chain x) : s.Below a x := by
  obtain ⟨k, -, hk⟩ := (mem_chain h).mp ha
  obtain ⟨c, hc, hk⟩ := Option.bind_eq_some_iff.mp hk
  exact TransGen.head' hc (reaches_iff_climb.mpr ⟨k, hk⟩)

/-! ## Who is accepted -/

/-- The acting member may act on this one. -/
def Leads (s : Store) (a id : MemberId) (selfOk : Bool) : Prop :=
  s.Below a id ∨ selfOk = true ∧ id = a

theorem Leads.under {selfOk : Bool} (h : s.Leads a id selfOk) : s.Under a id := by
  rcases h with h | ⟨-, rfl⟩
  · exact h.under
  · exact .refl

theorem requireChain_ok (h : s.Sound) (hactor : actor ≠ ownerPid) {selfOk : Bool}
    {acting : Option MemberId} :
    s.requireChain actor id selfOk = .ok acting ↔ ∃ a, acting = some a ∧ s.ActsFor actor a ∧
      (selfOk = true ∧ id = a ∨ ∃ k < 64, climb s.manager (k + 1) id = some a) := by
  unfold requireChain
  rw [if_neg hactor]
  cases ha : s.actorMember actor with
  | none =>
    constructor
    · intro hok
      cases hok
    · rintro ⟨a, -, hacts, -⟩
      rw [(actorMember_iff h.seated).mpr hacts] at ha
      cases ha
  | some a =>
    have hacts := (actorMember_iff h.seated).mp ha
    have hcond : ((selfOk && decide (a = id)) = true ∨ a ∈ s.chain id) ↔
        (selfOk = true ∧ id = a ∨ ∃ k < 64, climb s.manager (k + 1) id = some a) := by
      rw [mem_chain h.rooted, Bool.and_eq_true, decide_eq_true_eq, eq_comm (a := a)]
    by_cases hc : (selfOk && decide (a = id)) = true ∨ a ∈ s.chain id
    · simp only [if_pos hc]
      constructor
      · intro hok
        exact ⟨a, (Except.ok.inj hok).symm, hacts, hcond.mp hc⟩
      · rintro ⟨b, rfl, hb, -⟩
        rw [hacts.unique h.seated hb]
    · simp only [if_neg hc]
      constructor
      · intro hok
        cases hok
      · rintro ⟨b, -, hb, hbc⟩
        obtain rfl := hacts.unique h.seated hb
        exact absurd (hcond.mpr hbc) hc

theorem leads_of_requireChain (h : s.Sound) (hactor : actor ≠ ownerPid) {selfOk : Bool}
    {acting : Option MemberId} (hok : s.requireChain actor id selfOk = .ok acting) :
    ∃ a, acting = some a ∧ s.ActsFor actor a ∧ s.Leads a id selfOk := by
  obtain ⟨a, rfl, hacts, hself | ⟨k, hk, hclimb⟩⟩ := (requireChain_ok h hactor).mp hok
  · exact ⟨a, rfl, hacts, .inr hself⟩
  · exact ⟨a, rfl, hacts, .inl (below_of_chain h.rooted ((mem_chain h.rooted).mpr ⟨k, hk, hclimb⟩))⟩

theorem under_of_destination (h : s.Rooted) {up : MemberId}
    (hok : s.requireDestination (some a) up = .ok ()) : s.Under a up := by
  unfold requireDestination at hok
  rcases not_not.mp (refuse_ok.mp hok) with rfl | hup
  · exact .refl
  · exact (below_of_chain h hup).under

end Store

end Org
