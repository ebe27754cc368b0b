import Mathlib
import ClaudeManager.Program.Mirrors
import ClaudeManager.Alerts.Relay

/-!
# What a host does to its alerts

* `has` — keys and ids of alerts
* `Changes` — alerts go, and those that come are new
* `Source.Ordered` — snapshots follow each other, and what is gone does not return
* `acknowledge_spec` — what an acknowledgement clears
-/

namespace Alerts

open Containers Program

/-- Keys and ids. -/
def has (m : Map Alert) : Set (String × Nat) := {x | ∃ a, m[x.1]? = some a ∧ a.id = x.2}

variable {s s' s'' : Source}

/-! ## The queue -/

/-- Snapshots stay; alerts go, and those that come are new. -/
structure Changes (s s' : Source) : Prop where
  snapshot : s'.snapshot = s.snapshot
  taken : s'.taken = s.taken
  generation : s'.nextGeneration = s.nextGeneration
  next : s.nextId ≤ s'.nextId
  has : ∀ x ∈ has s'.alerts, x ∈ has s.alerts ∨ s.nextId ≤ x.2 ∧ x.2 < s'.nextId

namespace Changes

theorem refl : Changes s s := ⟨rfl, rfl, rfl, Nat.le_refl _, fun _ hx => .inl hx⟩

theorem trans (h : Changes s s') (h' : Changes s' s'') : Changes s s'' := by
  refine ⟨h'.snapshot.trans h.snapshot, h'.taken.trans h.taken, h'.generation.trans h.generation,
    h.next.trans h'.next, fun x hx => ?_⟩
  rcases h'.has x hx with hold | ⟨hlow, hhigh⟩
  · rcases h.has x hold with hold | ⟨hlow, hhigh⟩
    · exact .inl hold
    · exact .inr ⟨hlow, hhigh.trans_le h'.next⟩
  · exact .inr ⟨h.next.trans hlow, hhigh⟩

theorem deliver {key : String} {a : Alert} {replace : Bool} : Changes s (s.deliver key a replace) := by
  unfold Source.deliver
  split
  · exact refl
  · split
    · exact refl
    · refine ⟨rfl, rfl, rfl, Nat.le_succ _, fun x hx => ?_⟩
      obtain ⟨b, hb, hid⟩ := hx
      rw [getElem?_insert_map] at hb
      by_cases hk : x.1 = key
      · rw [if_pos hk] at hb
        rw [← hid, ← Option.some.inj hb]
        exact .inr ⟨Nat.le_refl _, Nat.lt_succ_self _⟩
      · rw [if_neg hk] at hb
        exact .inl ⟨b, hb, hid⟩

theorem notify {key : String} {a : Alert} : Changes s (s.notify key a) := by
  unfold Source.notify
  split
  · exact refl
  · exact deliver

theorem withdraw {key : String} {id : Nat} : Changes s (s.withdraw key id) := by
  unfold Source.withdraw
  split
  · refine ⟨rfl, rfl, rfl, Nat.le_refl _, fun x hx => ?_⟩
    obtain ⟨b, hb, hid⟩ := hx
    rw [getElem?_erase_map] at hb
    split at hb
    · cases hb
    · exact .inl ⟨b, hb, hid⟩
  · exact refl

theorem update {key : String} {id : Nat} {message : String} : Changes s (s.update key id message) := by
  unfold Source.update
  cases ha : s.alerts[key]? with
  | none => exact refl
  | some a =>
    simp only
    split
    · refine ⟨rfl, rfl, rfl, Nat.le_refl _, fun x hx => ?_⟩
      obtain ⟨b, hb, hid⟩ := hx
      rw [getElem?_insert_map] at hb
      by_cases hk : x.1 = key
      · -- the alert keeps its id
        rw [if_pos hk] at hb
        rw [← Option.some.inj hb] at hid
        rw [← hk] at ha
        exact .inl ⟨a, ha, hid⟩
      · rw [if_neg hk] at hb
        exact .inl ⟨b, hb, hid⟩
    · exact refl

theorem acknowledge (ids : List (String × Nat)) : Changes s (s.acknowledge ids) := by
  induction ids generalizing s with
  | nil => exact refl
  | cons x ids ih => exact withdraw.trans ih

end Changes

theorem withdraw_spec {key k : String} {id : Nat} {a : Alert} :
    (s.withdraw k id).alerts[key]? = some a ↔ s.alerts[key]? = some a ∧ (key, a.id) ≠ (k, id) := by
  unfold Source.withdraw Source.pending
  split
  · rename_i hpending
    obtain ⟨b, hb, hid⟩ := (Option.any_eq_true _ _).mp hpending
    rw [getElem?_erase_map]
    by_cases hk : key = k
    · rw [if_pos hk]
      constructor
      · intro h
        cases h
      · rintro ⟨ha, hne⟩
        rw [hk, hb] at ha
        obtain rfl := Option.some.inj ha
        exact absurd (Prod.ext hk (by simpa using hid)) hne
    · rw [if_neg hk]
      exact ⟨fun h => ⟨h, fun he => hk (congrArg Prod.fst he)⟩, And.left⟩
  · rename_i hpending
    refine ⟨fun h => ⟨h, fun he => hpending ?_⟩, And.left⟩
    obtain ⟨rfl, rfl⟩ := Prod.mk.inj he
    rw [h]
    simp

/-- An acknowledgement clears the alerts with exactly its keys and ids. -/
theorem acknowledge_spec (ids : List (String × Nat)) {key : String} {a : Alert} :
    (s.acknowledge ids).alerts[key]? = some a ↔ s.alerts[key]? = some a ∧ (key, a.id) ∉ ids := by
  induction ids generalizing s with
  | nil => exact ⟨fun h => ⟨h, List.not_mem_nil⟩, And.left⟩
  | cons x ids ih =>
    have hstep : s.acknowledge (x :: ids) = (s.withdraw x.1 x.2).acknowledge ids := rfl
    rw [hstep, ih, withdraw_spec, List.mem_cons, not_or, and_assoc]

/-! ## Snapshots -/

namespace Snapshot

variable {x y z : Snapshot}

theorem Before.asymm : ∀ x y : Snapshot, x.Before y → ¬ y.Before x := by
  unfold Before
  intro x y h h'
  omega

theorem Before.trans (h : x.Before y) (h' : y.Before z) : x.Before z := by
  unfold Before at *
  omega

theorem Before.ne (h : x.Before y) : x ≠ y := by
  rintro rfl
  exact Before.asymm x x h h

end Snapshot

theorem has_capped (s : Source) : has s.capped = has s.alerts := by
  ext x
  unfold has Source.capped
  simp only [Set.mem_ofPred_eq, Std.ExtTreeMap.getElem?_map, Option.map_eq_some_iff]
  constructor
  · rintro ⟨_, ⟨a, ha, rfl⟩, hid⟩
    exact ⟨a, ha, hid⟩
  · rintro ⟨a, ha, hid⟩
    exact ⟨_, ⟨a, ha, rfl⟩, hid⟩

/-- Snapshots follow each other, ids are new, and what is gone does not return. -/
structure Source.Ordered (s : Source) : Prop where
  sorted : s.taken.Pairwise Snapshot.Before
  last : ∀ x ∈ s.taken, ∃ y, s.snapshot = some y ∧ (x = y ∨ x.Before y)
  generation : ∀ y, s.snapshot = some y → y.generation < s.nextGeneration
  ids : ∀ x ∈ has s.alerts, x.2 < s.nextId
  takenIds : ∀ y ∈ s.taken, ∀ x ∈ has y.alerts, x.2 < s.nextId
  gone : NoReturn Snapshot.Before (fun y => has y.alerts) s.taken (has s.alerts)

namespace Source.Ordered

variable {fits : Snapshot → Bool}

theorem change (h : s.Ordered) (hc : Changes s s') : s'.Ordered := by
  refine ⟨?_, ?_, ?_, fun x hx => ?_, ?_, ?_⟩
  · rw [hc.taken]
    exact h.sorted
  · rw [hc.taken, hc.snapshot]
    exact h.last
  · rw [hc.snapshot, hc.generation]
    exact h.generation
  · rcases hc.has x hx with hold | ⟨-, hhigh⟩
    · exact (h.ids x hold).trans_le hc.next
    · exact hhigh
  · rw [hc.taken]
    exact fun y hy x hx => (h.takenIds y hy x hx).trans_le hc.next
  · rw [hc.taken]
    refine h.gone.change fun x hx => ?_
    rcases hc.has x hx with hold | ⟨hlow, -⟩
    · exact .inl hold
    · exact .inr fun y hy hmem => absurd (h.takenIds y hy x hmem) (Nat.not_lt.mpr hlow)

theorem remint (h : s.Ordered) (expected : Nat) : (s.remint expected).Ordered := by
  unfold Source.remint
  cases hs : s.snapshot with
  | none => exact h
  | some y =>
    simp only
    split
    · refine ⟨h.sorted, fun x hx => ⟨_, rfl, .inr (.inl ?_)⟩, fun z hz => ?_, h.ids, h.takenIds, h.gone⟩
      · obtain ⟨y', hy', hx⟩ := h.last x hx
        have hgen := h.generation y' hy'
        rcases hx with rfl | hbefore
        · exact hgen
        · exact (hbefore.elim Nat.le_of_lt fun he => he.1.le).trans_lt hgen
      · rw [← Option.some.inj hz]
        exact Nat.lt_succ_self _
    · exact h

/-- A snapshot of what the host has is returned, which the others precede. -/
theorem record (h : s.Ordered) {y : Snapshot} (hy : s.snapshot = some y)
    (hhas : has y.alerts = has s.alerts) : (s.record y).Ordered := by
  unfold Source.record
  by_cases hmem : y ∈ s.taken
  · rw [if_pos hmem]
    exact h
  · rw [if_neg hmem]
    have hbefore : ∀ x ∈ s.taken, x.Before y := by
      intro x hx
      obtain ⟨y', hy', hx'⟩ := h.last x hx
      rw [hy] at hy'
      obtain rfl := Option.some.inj hy'
      rcases hx' with rfl | hlt
      · exact absurd hx hmem
      · exact hlt
    refine ⟨?_, fun x hx => ?_, h.generation, h.ids, fun z hz x hx => ?_, ?_⟩
    · rw [List.pairwise_append]
      refine ⟨h.sorted, List.pairwise_singleton _ _, fun x hx z hz => ?_⟩
      rw [List.mem_singleton.mp hz]
      exact hbefore x hx
    · rcases List.mem_append.mp hx with hx | hx
      · exact h.last x hx
      · exact ⟨y, hy, .inl (List.mem_singleton.mp hx)⟩
    · rcases List.mem_append.mp hz with hz | hz
      · exact h.takenIds z hz x hx
      · rw [List.mem_singleton.mp hz, hhas] at hx
        exact h.ids x hx
    · exact h.gone.take Snapshot.Before.asymm hbefore hhas

theorem store (h : s.Ordered) {y : Snapshot} {n : Nat} (hhas : has y.alerts = has s.alerts)
    (hlast : ∀ z, s.snapshot = some z → z.Before y) (hgen : y.generation < n) :
    (s.store fits y n).Ordered := by
  unfold Source.store
  split
  · have hstored : Source.Ordered { s with snapshot := some y, nextGeneration := n } := by
      refine ⟨h.sorted, fun x hx => ⟨y, rfl, .inr ?_⟩, fun z hz => ?_, h.ids, h.takenIds, h.gone⟩
      · obtain ⟨z, hz, hx⟩ := h.last x hx
        rcases hx with rfl | hbefore
        · exact hlast x hz
        · exact hbefore.trans (hlast z hz)
      · rw [← Option.some.inj hz]
        exact hgen
    exact hstored.record rfl hhas
  · exact h

theorem take (h : s.Ordered) (hostLabel : String) : (s.take fits hostLabel).Ordered := by
  unfold Source.take
  cases hs : s.snapshot with
  | none =>
    refine h.store (has_capped s) (fun z hz => ?_) (Nat.lt_succ_self _)
    rw [hs] at hz
    cases hz
  | some y =>
    simp only
    split
    · rename_i hsame
      refine h.record hs ?_
      rw [hsame.2, has_capped]
    · split
      · refine h.store (has_capped s) (fun z hz => ?_) (h.generation y hs)
        rw [hs] at hz
        rw [← Option.some.inj hz]
        exact .inr ⟨rfl, Nat.lt_succ_self _⟩
      · exact h

end Source.Ordered

end Alerts
