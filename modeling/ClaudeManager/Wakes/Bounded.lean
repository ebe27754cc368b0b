import Mathlib
import ClaudeManager.Program.Runs
import ClaudeManager.Wakes.Holds

/-!
# What holds keep, over runs

* `Kept` — who has placed the hold that is in force, and how long it and due holds last
* `Undisturbed` — no hold is placed over another one, or over what is remembered of a due hold
* `Kept.step` — undisturbed steps keep it
* `holds_bounded` — runs of such steps; `spent_forgotten` — a rotation forgets a spent episode
-/

namespace Wakes

open Program

variable {w : Session} {o : HoldOwner} {e : Event}

theorem dueHoldCapSecs_pos : 0 < dueHoldCapSecs := by norm_num [dueHoldCapSecs]

theorem dueHoldRestSecs_pos : 0 < dueHoldRestSecs := by norm_num [dueHoldRestSecs]

theorem dueHoldCapSecs_lt : dueHoldCapSecs < holdSecs := by norm_num [dueHoldCapSecs, holdSecs]

/-- How long a hold lasts that is not renewed. -/
def lasts (o : HoldOwner) : ℚ := if o = .due then dueHoldCapSecs else holdSecs

theorem lasts_due : lasts .due = dueHoldCapSecs := rfl

theorem lasts_of_ne (ho : o ≠ .due) : lasts o = holdSecs := if_neg ho

/-! ## The invariant -/

structure Kept (w : Session) : Prop where
  started : ∀ h, w.hold = some h → h.episodeStart ≤ w.now
  /-- The file is that of the hold; that of a spent due episode may be gone. -/
  file : ∀ h, w.hold = some h → w.file = some (h.episodeStart + lasts h.owner) ∨
    w.file = none ∧ h.owner = .due ∧ h.episodeStart + dueHoldCapSecs ≤ w.now
  ends : ∀ u, w.file = some u → u ≤ w.noted.lastPlaced + holdSecs
  /-- What an owner has not released, and has not ended, is the hold in force. -/
  placed : ∀ o u, w.noted.placed o = some u → w.now < u →
    ∃ h, w.hold = some h ∧ h.owner = o ∧ u = h.episodeStart + lasts o
  running : ∀ o u, o ≠ .due → w.running o = true → w.noted.placed o = some u → w.now < u
  booting : w.phase = .booting → w.hold = none
  /-- A due hold of the previous daemon is in force until the start has lifted it. -/
  stretch : ∀ t, w.noted.stretch = some t → w.now < t + dueHoldCapSecs ∧
    w.file = some (t + dueHoldCapSecs) ∧ (w.hold = some ⟨.due, t⟩ ∨ w.phase = .booting)
  due : ∀ h, w.hold = some h → h.owner = .due → w.now < h.episodeStart + dueHoldCapSecs →
    w.noted.stretch = some h.episodeStart
  spentPast : ∀ u, w.noted.spent = some u → u ≤ w.now
  /-- A spent episode is remembered while new ones are to rest. -/
  spent : ∀ u, w.noted.spent = some u → u + dueHoldRestSecs ≤ w.now ∨
    ∃ h, w.hold = some h ∧ h.owner = .due ∧ h.episodeStart + dueHoldCapSecs = u
  rest : ∀ t u, w.noted.stretch = some t → w.noted.spent = some u → u + dueHoldRestSecs ≤ t

/-- A rotation's, handoff's or recovery's hold is placed over none that has not ended, nor over what
is remembered of a due hold. -/
def Clear (w : Session) : Prop :=
  ∀ h, w.hold = some h →
    if h.owner = .due then
      h.episodeStart + dueHoldCapSecs + dueHoldRestSecs ≤ w.now ∨
        w.noted.placed .due = none ∧ w.now < h.episodeStart + dueHoldCapSecs
    else h.episodeStart + holdSecs ≤ w.now

namespace Kept

theorem start {now : ℚ} {engine : Engine} : Kept (Session.start now engine) where
  started := fun _ hh => nomatch hh
  file := fun _ hh => nomatch hh
  ends := fun _ hu => nomatch hu
  placed := fun _ _ hp => nomatch hp
  running := fun _ _ _ hr => nomatch hr
  booting := fun hb => nomatch hb
  stretch := fun _ ht => nomatch ht
  due := fun _ hh => nomatch hh
  spentPast := fun _ hu => nomatch hu
  spent := fun _ hu => nomatch hu
  rest := fun _ _ ht => nomatch ht

/-- An owner that releases its hold has placed none. -/
theorem released (h : Kept w) : Kept (w.released o) := by
  have hplaced : ∀ o' u, (w.released o).noted.placed o' = some u → w.noted.placed o' = some u := by
    intro o' u hp
    by_cases ho : o' = o
    · subst ho
      unfold Session.released at hp
      simp only [Function.update_self] at hp
      cases hp
    · unfold Session.released at hp
      simp only [Function.update_of_ne ho] at hp
      exact hp
  exact { h with
    placed := fun o' u hp => h.placed o' u (hplaced o' u hp)
    running := fun o' u hne hr hp => h.running o' u hne hr (hplaced o' u hp) }

theorem run_off (h : Kept w) : Kept (w.run o false) := by
  refine { h with running := fun o' u hne hr hp => ?_ }
  by_cases ho : o' = o
  · subst ho
    unfold Session.run at hr
    simp only [Function.update_self] at hr
    cases hr
  · unfold Session.run at hr
    simp only [Function.update_of_ne ho] at hr
    exact h.running o' u hne hr hp

/-- What begins to run has placed nothing, or its hold lasts. -/
theorem run_on (h : Kept w) (hp : ∀ u, w.noted.placed o = some u → w.now < u) (on : Bool) :
    Kept (w.run o on) := by
  refine { h with running := fun o' u hne hr hp' => ?_ }
  by_cases ho : o' = o
  · subst ho
    exact hp u hp'
  · unfold Session.run at hr
    simp only [Function.update_of_ne ho] at hr
    exact h.running o' u hne hr hp'

theorem begin (h : Kept w) : Kept (w.begin o) := by
  have hr := h.released (o := o)
  refine Kept.run_on (w := w.released o) hr (fun u hp => ?_) true
  unfold Session.released at hp
  simp only [Function.update_self] at hp
  cases hp

/-- Over a clear session, no owner has a hold that has not ended. -/
theorem ended (h : Kept w) (hclear : Clear w) {u : ℚ} (hp : w.noted.placed o = some u) : u ≤ w.now := by
  by_contra hlt
  obtain ⟨e, he, rfl, rfl⟩ := h.placed o u hp (not_le.mp hlt)
  have hc := hclear e he
  by_cases hdue : e.owner = .due
  · rw [if_pos hdue] at hc
    rcases hc with hrest | ⟨hnone, -⟩
    · rw [hdue, lasts_due] at hlt
      exact hlt (by linarith [dueHoldRestSecs_pos])
    · rw [hdue, hnone] at hp
      cases hp
  · rw [if_neg hdue] at hc
    rw [lasts_of_ne hdue] at hlt
    exact hlt hc

theorem store (h : Kept w) (hphase : w.phase ≠ .booting) (ho : o ≠ .due) (hclear : Clear w) :
    Kept (w.store o w.now (w.now + holdSecs)) := by
  have hsecs : 0 < holdSecs := dueHoldCapSecs_pos.trans dueHoldCapSecs_lt
  have hother : ∀ o' u, (w.store o w.now (w.now + holdSecs)).noted.placed o' = some u →
      o' = o ∧ u = w.now + holdSecs ∨ w.noted.placed o' = some u := by
    intro o' u hp
    unfold Session.store at hp
    by_cases ho' : o' = o
    · subst ho'
      simp only [Function.update_self] at hp
      exact .inl ⟨rfl, (Option.some.inj hp).symm⟩
    · simp only [Function.update_of_ne ho'] at hp
      exact .inr hp
  refine ⟨fun h' hh => ?_, fun h' hh => ?_, fun u hu => ?_, fun o' u hp hlt => ?_,
    fun o' u hne hr hp => ?_, fun hb => absurd hb hphase, fun t ht => ?_, fun h' hh hdue => ?_,
    h.spentPast, fun u hu => ?_, fun t u ht => ?_⟩
  · rw [← Option.some.inj hh]
    exact le_rfl
  · rw [← Option.some.inj hh, lasts_of_ne ho]
    exact .inl rfl
  · rw [← Option.some.inj hu]
    exact le_rfl
  · rcases hother o' u hp with ⟨rfl, rfl⟩ | hp
    · exact ⟨_, rfl, rfl, by rw [lasts_of_ne ho]⟩
    · exact absurd (h.ended hclear hp) (not_le.mpr hlt)
  · rcases hother o' u hp with ⟨rfl, rfl⟩ | hp
    · exact lt_add_of_pos_right _ hsecs
    · exact h.running o' u hne hr hp
  · unfold Session.store at ht
    rw [if_neg ho] at ht
    cases ht
  · rw [← Option.some.inj hh] at hdue
    exact absurd hdue ho
  · left
    rcases h.spent u hu with hleft | ⟨e, he, hdue, rfl⟩
    · exact hleft
    · have hc := hclear e he
      rw [if_pos hdue] at hc
      rcases hc with hrest | ⟨-, hlt⟩
      · exact hrest
      · exact absurd (h.spentPast _ hu) (not_le.mpr hlt)
  · unfold Session.store at ht
    rw [if_neg ho] at ht
    cases ht

/-- A due hold is placed, or renewed. -/
theorem store_due (h : Kept w) (hphase : w.phase ≠ .booting) {s : ℚ} (hs : s ≤ w.now)
    (hcap : w.now < s + dueHoldCapSecs) (hstretch : w.noted.stretch.getD w.now = s)
    (hold : ∀ e, w.hold = some e → e.owner = .due ∧
      (e.episodeStart + dueHoldCapSecs + dueHoldRestSecs ≤ w.now ∨ e.episodeStart = s)) :
    Kept (w.store .due s (s + dueHoldCapSecs)) := by
  have hother : ∀ o' u, (w.store .due s (s + dueHoldCapSecs)).noted.placed o' = some u →
      o' = .due ∧ u = s + dueHoldCapSecs ∨ o' ≠ .due ∧ w.noted.placed o' = some u := by
    intro o' u hp
    unfold Session.store at hp
    by_cases ho' : o' = .due
    · subst ho'
      simp only [Function.update_self] at hp
      exact .inl ⟨rfl, (Option.some.inj hp).symm⟩
    · simp only [Function.update_of_ne ho'] at hp
      exact .inr ⟨ho', hp⟩
  have hspent : ∀ u, w.noted.spent = some u → u + dueHoldRestSecs ≤ w.now ∨ s + dueHoldCapSecs = u := by
    intro u hu
    rcases h.spent u hu with hleft | ⟨e, he, -, rfl⟩
    · exact .inl hleft
    · rcases (hold e he).2 with hrest | rfl
      · exact .inl hrest
      · exact .inr rfl
  refine ⟨fun h' hh => ?_, fun h' hh => ?_, fun u hu => ?_, fun o' u hp hlt => ?_,
    fun o' u hne hr hp => ?_, fun hb => absurd hb hphase, fun t ht => ?_, fun h' hh _ _ => ?_,
    h.spentPast, fun u hu => ?_, fun t u ht hu => ?_⟩
  · rw [← Option.some.inj hh]
    exact hs
  · rw [← Option.some.inj hh]
    exact .inl rfl
  · rw [← Option.some.inj hu]
    exact add_le_add hs dueHoldCapSecs_lt.le
  · rcases hother o' u hp with ⟨rfl, rfl⟩ | ⟨hne, hp⟩
    · exact ⟨_, rfl, rfl, rfl⟩
    · obtain ⟨e, he, howner, -⟩ := h.placed o' u hp hlt
      exact absurd ((howner.symm.trans (hold e he).1)) hne
  · rcases hother o' u hp with ⟨rfl, -⟩ | ⟨-, hp⟩
    · exact absurd rfl hne
    · exact h.running o' u hne hr hp
  · have hts : s = t := hstretch ▸ Option.some.inj ht
    rw [← hts]
    exact ⟨hcap, rfl, .inl rfl⟩
  · rw [← Option.some.inj hh]
    exact congrArg some hstretch
  · exact (hspent u hu).imp_right fun hu => ⟨_, rfl, rfl, hu⟩
  · have hts : s = t := hstretch ▸ Option.some.inj ht
    rw [← hts]
    cases hold' : w.noted.stretch with
    | some t' =>
      rw [hold', Option.getD_some] at hstretch
      rw [← hstretch]
      exact h.rest t' u hold' hu
    | none =>
      rw [hold', Option.getD_none] at hstretch
      rcases hspent u hu with hleft | rfl
      · exact hstretch ▸ hleft
      · exact absurd (h.spentPast _ hu) (not_le.mpr hcap)

/-! ## Operations -/

/-- The hold of an owner other than due ones lasts from now on. -/
theorem place (h : Kept w) (ho : o ≠ .due) (stored : Bool)
    (hclear : stored = true → w.phase ≠ .booting ∧ Clear w) : Kept (w.placeHold o stored).1 := by
  have hnext : w.nextHold o = .inr (w.now, w.now + holdSecs) := by
    unfold Session.nextHold
    cases o <;> first | rfl | exact absurd rfl ho
  unfold Session.placeHold
  rw [hnext]
  cases stored with
  | true => exact Kept.store (w := { w with root := true }) { h with } (hclear rfl).1 ho (hclear rfl).2
  | false => exact { h with }

/-- A due hold begins when there is none, or after a rest, and is renewed in between. -/
theorem place_due (h : Kept w) {stored : Bool} (hphase : stored = true → w.phase ≠ .booting) :
    Kept (w.placeHold .due stored).1 := by
  have hroot : Kept { w with root := true } := { h with }
  cases stored with
  | false =>
    unfold Session.placeHold
    split <;> exact hroot
  | true =>
  have hstretch : ∀ t, w.noted.stretch = some t → w.hold = some ⟨.due, t⟩ ∧ w.now < t + dueHoldCapSecs := by
    intro t ht
    obtain ⟨hlt, -, hhold | hbooting⟩ := h.stretch t ht
    · exact ⟨hhold, hlt⟩
    · exact absurd hbooting (hphase rfl)
  have hplace : ∀ s, s ≤ w.now → w.now < s + dueHoldCapSecs → w.noted.stretch.getD w.now = s →
      (∀ e, w.hold = some e → e.owner = .due ∧
        (e.episodeStart + dueHoldCapSecs + dueHoldRestSecs ≤ w.now ∨ e.episodeStart = s)) →
      w.nextHold .due = .inr (s, s + dueHoldCapSecs) → Kept (w.placeHold .due true).1 := by
    intro s hs hcap hsince hold hnext
    unfold Session.placeHold
    rw [hnext]
    exact hroot.store_due (hphase rfl) hs hcap hsince hold
  have hkeep : ∀ b, w.nextHold .due = .inl b → Kept (w.placeHold .due true).1 := by
    intro b hnext
    unfold Session.placeHold
    rw [hnext]
    exact hroot
  cases hh : w.hold with
  | none =>
    refine hplace w.now le_rfl (lt_add_of_pos_right _ dueHoldCapSecs_pos) ?_ (fun e he => ?_) ?_
    · cases hs : w.noted.stretch with
      | none => rfl
      | some t =>
        have hold := (hstretch t hs).1
        rw [hh] at hold
        cases hold
    · rw [hh] at he
      cases he
    · unfold Session.nextHold
      rw [hh]
  | some e =>
    by_cases hdue : e.owner = .due
    · have hold : ∀ (P : Hold → Prop), P e → ∀ e', w.hold = some e' → P e' := by
        intro P hP e' he'
        rw [hh] at he'
        exact Option.some.inj he' ▸ hP
      by_cases hrest : dueHoldCapSecs + dueHoldRestSecs ≤ w.now - e.episodeStart
      · refine hplace w.now le_rfl (lt_add_of_pos_right _ dueHoldCapSecs_pos) ?_
          (hold _ ⟨hdue, .inl (by linarith)⟩) ?_
        · cases hs : w.noted.stretch with
          | none => rfl
          | some t =>
            obtain ⟨hold, hlt⟩ := hstretch t hs
            rw [hh] at hold
            have ht : e.episodeStart = t := congrArg Hold.episodeStart (Option.some.inj hold)
            linarith [dueHoldRestSecs_pos]
        · unfold Session.nextHold
          simp only [hh]
          rw [if_neg (not_not.mpr hdue), if_pos hrest]
      · by_cases hcap : dueHoldCapSecs ≤ w.now - e.episodeStart
        · refine hkeep false ?_
          unfold Session.nextHold
          simp only [hh]
          rw [if_neg (not_not.mpr hdue), if_neg hrest, if_pos hcap]
        · have hlt : w.now < e.episodeStart + dueHoldCapSecs := by linarith
          refine hplace e.episodeStart (h.started e hh) hlt ?_ (hold _ ⟨hdue, .inr rfl⟩) ?_
          · rw [h.due e hh hdue hlt]
            rfl
          · unfold Session.nextHold
            simp only [hh]
            rw [if_neg (not_not.mpr hdue), if_neg hrest, if_neg hcap]
    · refine hkeep true ?_
      unfold Session.nextHold
      simp only [hh]
      rw [if_pos hdue]

/-- No owner but the one of the hold in memory has a hold that has not ended. -/
theorem other_ended (h : Kept w) {u : ℚ} (hp : w.noted.placed o = some u)
    (hne : ∀ e, w.hold = some e → e.owner ≠ o) : u ≤ w.now := by
  by_contra hlt
  obtain ⟨e, he, howner, -⟩ := h.placed o u hp (not_le.mp hlt)
  exact hne e he howner

theorem clear_none (h : Kept w) (hh : w.hold = none) : Kept w.clearHold where
  started := h.started
  file := fun _ he => nomatch hh.symm.trans he
  ends := fun _ hu => nomatch hu
  placed := h.placed
  running := h.running
  booting := h.booting
  stretch := fun _ ht => nomatch ht
  due := fun _ he => nomatch hh.symm.trans he
  spentPast := h.spentPast
  spent := h.spent
  rest := fun _ _ ht => nomatch ht

/-- A spent due episode keeps its record. -/
theorem clear_spent (h : Kept w) {e : Hold} (hh : w.hold = some e) (hdue : e.owner = .due)
    (hcap : dueHoldCapSecs ≤ w.now - e.episodeStart) : Kept w.clearHold where
  started := h.started
  file := fun e' he => .inr ⟨rfl, by
    obtain rfl := Option.some.inj (hh.symm.trans he)
    have hpast : e.episodeStart + dueHoldCapSecs ≤ w.now := by linarith
    exact ⟨hdue, hpast⟩⟩
  ends := fun _ hu => nomatch hu
  placed := h.placed
  running := h.running
  booting := h.booting
  stretch := fun _ ht => nomatch ht
  due := fun e' he hd hlt => by
    obtain rfl := Option.some.inj (hh.symm.trans he)
    have hpast : e.episodeStart + dueHoldCapSecs ≤ w.now := by linarith
    exact absurd hlt (not_lt.mpr hpast)
  spentPast := h.spentPast
  spent := h.spent
  rest := fun _ _ ht => nomatch ht

/-- A hold that its owner has released is forgotten, unless it is a spent due episode. -/
theorem forget (h : Kept w) {e : Hold} (hh : w.hold = some e)
    (hnone : w.noted.placed e.owner = none)
    (hcap : e.owner = .due → w.now < e.episodeStart + dueHoldCapSecs) :
    Kept { w.clearHold with hold := none } where
  started := fun _ he => nomatch he
  file := fun _ he => nomatch he
  ends := fun _ hu => nomatch hu
  placed := fun o u hp hlt => by
    obtain ⟨e', he', rfl, -⟩ := h.placed o u hp hlt
    rw [hh] at he'
    obtain rfl := Option.some.inj he'
    exact nomatch hnone.symm.trans hp
  running := h.running
  booting := fun _ => rfl
  stretch := fun _ ht => nomatch ht
  due := fun _ he => nomatch he
  spentPast := h.spentPast
  spent := fun u hu => by
    left
    rcases h.spent u hu with hleft | ⟨e', he', hdue, rfl⟩
    · exact hleft
    · rw [hh] at he'
      obtain rfl := Option.some.inj he'
      exact absurd (h.spentPast _ hu) (not_le.mpr (hcap hdue))
  rest := fun _ _ ht => nomatch ht

theorem placed_released : (w.released o).noted.placed o = none := by
  unfold Session.released
  simp only [Function.update_self]

theorem unhold (h : Kept w) : Kept (w.unhold o) := by
  have hr := h.released (o := o)
  unfold Session.unhold
  cases hh : w.hold with
  | none =>
    simp only
    split
    · exact hr.clear_none hh
    · exact hr
  | some e =>
    simp only
    by_cases hne : e.owner = o
    · rw [if_neg (not_not.mpr hne)]
      subst hne
      split
      · rename_i hspent
        exact hr.clear_spent hh hspent.1 hspent.2
      · rename_i hspent
        refine hr.forget hh placed_released fun hdue => ?_
        have hlt : ¬ dueHoldCapSecs ≤ w.now - e.episodeStart := fun hle => hspent ⟨hdue, hle⟩
        show w.now < e.episodeStart + dueHoldCapSecs
        linarith
    · rw [if_pos hne]
      exact hr

/-- Time passes while the hold of what runs lasts; the start of a daemon comes before a due hold
ends by itself. -/
theorem wait (h : Kept w) {t : ℚ}
    (hboot : w.phase = .booting → ∀ s, w.noted.stretch = some s → max w.now t < s + dueHoldCapSecs)
    (hlasts : ∀ e, w.hold = some e → e.owner ≠ .due → w.running e.owner = true →
      max w.now t < e.episodeStart + holdSecs) : Kept (w.wait t) := by
  have hnow : w.now ≤ max w.now t := le_max_left _ _
  have hfile : ∀ e, w.hold = some e → w.file = some (e.episodeStart + lasts e.owner) ∨
      w.file = none ∧ e.owner = .due ∧ e.episodeStart + dueHoldCapSecs ≤ max w.now t :=
    fun e he => (h.file e he).imp_right fun hr => ⟨hr.1, hr.2.1, hr.2.2.trans hnow⟩
  have hplaced : ∀ o u, w.noted.placed o = some u → max w.now t < u →
      ∃ e, w.hold = some e ∧ e.owner = o ∧ u = e.episodeStart + lasts o :=
    fun o u hp hlt => h.placed o u hp (hnow.trans_lt hlt)
  have hrunning : ∀ o u, o ≠ .due → w.running o = true → w.noted.placed o = some u →
      max w.now t < u := by
    intro o u ho hr hp
    obtain ⟨e, he, rfl, rfl⟩ := h.placed o u hp (h.running o u ho hr hp)
    rw [lasts_of_ne ho]
    exact hlasts e he ho hr
  have hspent : ∀ u, w.noted.spent = some u → u + dueHoldRestSecs ≤ max w.now t ∨
      ∃ e, w.hold = some e ∧ e.owner = .due ∧ e.episodeStart + dueHoldCapSecs = u :=
    fun u hu => (h.spent u hu).imp_left fun hl => hl.trans hnow
  have hstay : (∀ s u, w.noted.stretch = some s → w.file = some u → max w.now t < u) →
      Kept { w with now := max w.now t } := by
    intro hlt
    refine ⟨fun e he => (h.started e he).trans hnow, hfile, h.ends, hplaced, hrunning, h.booting,
      fun s hs => ?_, fun e he hd hl => h.due e he hd (hnow.trans_lt hl),
      fun u hu => (h.spentPast u hu).trans hnow, hspent, h.rest⟩
    obtain ⟨-, hf, hhold⟩ := h.stretch s hs
    exact ⟨hlt s _ hs hf, hf, hhold⟩
  unfold Session.wait
  split
  · rename_i s u hs hu
    obtain ⟨-, hf, hor⟩ := h.stretch s hs
    have hus : u = s + dueHoldCapSecs := Option.some.inj (hu.symm.trans hf)
    split
    · -- the due hold ends by itself
      rename_i hpast
      have hhold : w.hold = some ⟨.due, s⟩ := by
        rcases hor with hhold | hbooting
        · exact hhold
        · exact absurd (hus ▸ hpast) (not_le.mpr (hboot hbooting s hs))
      refine ⟨fun e he => (h.started e he).trans hnow, hfile, h.ends, hplaced, hrunning, h.booting,
        fun _ hs' => (nomatch hs'), fun e he hd hl => ?_, fun v hv => ?_, fun v hv => ?_,
        fun _ _ hs' => (nomatch hs')⟩
      · have hstart := h.due e he hd (hnow.trans_lt hl)
        rw [hs] at hstart
        rw [← Option.some.inj hstart, ← hus] at hl
        exact absurd hl (not_lt.mpr hpast)
      · split at hv
        · exact Option.some.inj hv ▸ hpast
        · exact (h.spentPast v hv).trans hnow
      · split at hv
        · exact .inr ⟨_, hhold, rfl, hus.symm.trans (Option.some.inj hv)⟩
        · exact hspent v hv
    · rename_i hlt
      refine hstay fun s' u' _ hu' => ?_
      rw [hu] at hu'
      exact Option.some.inj hu' ▸ not_le.mp hlt
  · rename_i hnone
    exact hstay fun s u hs hu => absurd hu (hnone s u hs)

/-- A daemon restarts while no spent episode is to be remembered. -/
theorem restart (h : Kept w) (hrest : ∀ e, w.hold = some e → e.owner = .due →
    e.episodeStart + dueHoldCapSecs + dueHoldRestSecs ≤ w.now ∨
      w.now < e.episodeStart + dueHoldCapSecs) : Kept w.restart := by
  refine ⟨fun _ he => (nomatch he), fun _ he => (nomatch he), h.ends, fun _ _ hp => (nomatch hp),
    fun _ _ _ hr => (nomatch hr), fun _ => rfl, fun t ht => ?_, fun _ he => (nomatch he), h.spentPast,
    fun u hu => .inl ?_, h.rest⟩
  · obtain ⟨hlt, hf, -⟩ := h.stretch t ht
    exact ⟨hlt, hf, .inr rfl⟩
  · rcases h.spent u hu with hleft | ⟨e, he, hdue, rfl⟩
    · exact hleft
    · rcases hrest e he hdue with hover | hlt
      · exact hover
      · exact absurd (h.spentPast _ hu) (not_le.mpr hlt)

/-- After the start, a due hold in force is this daemon's. -/
theorem toPhase (h : Kept w) (hphase : w.phase ≠ .booting) {p : Phase} (hp : p ≠ .booting) :
    Kept { w with phase := p } := by
  refine { h with booting := fun hb => absurd hb hp, stretch := fun t ht => ?_ }
  obtain ⟨hlt, hf, hhold | hbooting⟩ := h.stretch t ht
  · exact ⟨hlt, hf, .inl hhold⟩
  · exact absurd hbooting hphase

theorem boot (h : Kept w) : Kept w.boot := by
  unfold Session.boot
  split
  · rename_i hphase
    have hclear := h.clear_none (h.booting hphase)
    exact { hclear with booting := fun hb => (nomatch hb), stretch := fun _ ht => (nomatch ht) }
  · exact h

end Kept

/-! ## Undisturbed steps -/

/-- The hold in memory has ended, and no due episode is to be remembered. -/
def Settled (w : Session) : Prop :=
  ∀ h ∈ w.hold,
    if h.owner = .due then h.episodeStart + dueHoldCapSecs + dueHoldRestSecs ≤ w.now
    else h.episodeStart + holdSecs ≤ w.now

/-- A rotation may also take over a due hold that is not spent. -/
def TakenOver (w : Session) : Prop :=
  ∀ h ∈ w.hold,
    if h.owner = .due then
      h.episodeStart + dueHoldCapSecs + dueHoldRestSecs ≤ w.now ∨
        w.now < h.episodeStart + dueHoldCapSecs
    else h.episodeStart + holdSecs ≤ w.now

/-- Holds are placed where none is, and not before the start of the daemon has lifted the old ones;
what runs ends before its hold; and a daemon does not restart while it remembers a spent episode,
nor does its start come so late that a due hold has ended by itself. -/
def Undisturbed (w : Session) : Event → Prop
  | .arm stored | .refused .raced stored => stored = true → w.phase ≠ .booting
  | .startRotation stored => stored = true → w.free = true → w.phase ≠ .booting ∧ TakenOver w
  | .startHandoff stored => stored = true → w.free = true → w.phase ≠ .booting ∧ Settled w
  | .holdCodex stored => stored = true → w.running .codexRecovery = true ∧ w.permit = false →
      w.phase ≠ .booting ∧ Settled w
  | .beginClaude stored => stored = true → w.engine = .claude ∧ w.free = true →
      w.phase ≠ .booting ∧ Settled w
  | .completeRotation stored => stored = true →
      w.phase = .recovering ∧ w.running .rotation = false → Settled w
  | .recoverHandoff stored _ => stored = true → w.phase = .recovering → Settled w
  | .restart => ∀ h ∈ w.hold, h.owner = .due →
      h.episodeStart + dueHoldCapSecs + dueHoldRestSecs ≤ w.now ∨
        w.now < h.episodeStart + dueHoldCapSecs
  | .wait t => (w.phase = .booting → ∀ s ∈ w.noted.stretch, max w.now t < s + dueHoldCapSecs) ∧
      ∀ h ∈ w.hold, h.owner ≠ .due → w.running h.owner = true →
        max w.now t < h.episodeStart + holdSecs
  | _ => True

instance : Decidable (Settled w) := by
  unfold Settled
  infer_instance

instance : Decidable (TakenOver w) := by
  unfold TakenOver
  infer_instance

instance : Decidable (Undisturbed w e) := by
  cases e with
  | refused r stored => cases r <;> (unfold Undisturbed; infer_instance)
  | _ => unfold Undisturbed; infer_instance

theorem Settled.clear (h : Settled w) : Clear w := by
  intro e he
  have hs := h e he
  split
  · rename_i hdue
    rw [if_pos hdue] at hs
    exact .inl hs
  · rename_i hdue
    rw [if_neg hdue] at hs
    exact hs

/-- The rotation takes the due hold over, so it has been released. -/
theorem TakenOver.clear (h : TakenOver w) : Clear ((w.begin .rotation).released .due) := by
  intro e he
  have hs := h e he
  split
  · rename_i hdue
    rw [if_pos hdue] at hs
    exact hs.imp_right fun hlt => ⟨Kept.placed_released, hlt⟩
  · rename_i hdue
    rw [if_neg hdue] at hs
    exact hs

theorem running_placeHold {stored : Bool} : (w.placeHold o stored).1.running = w.running := by
  unfold Session.placeHold
  split
  · rfl
  · split <;> rfl

theorem phase_placeHold {stored : Bool} : (w.placeHold o stored).1.phase = w.phase := by
  unfold Session.placeHold
  split
  · rfl
  · split <;> rfl

theorem Kept.step (h : Kept w) (hu : Undisturbed w e) : Kept (w.step e) := by
  cases e with
  | wait t => exact h.wait hu.1 hu.2
  | arm stored => exact Kept.place_due (w := { w with armed := true }) { h with } hu
  | refused r stored =>
    cases r with
    | permanent => exact Kept.unhold (w := { w with armed := false }) { h with }
    | raced => exact h.place_due hu
    | lasting => exact h.unhold
  | expire => exact Kept.unhold (w := { w with armed := false }) { h with }
  | exit =>
    unfold Session.step Session.exit
    simp only
    split
    · exact h
    · exact Kept.unhold (w := { w with armed := false }) { h with }
  | startRotation stored =>
    unfold Session.step Session.startRotation
    simp only
    split
    · rename_i hfree
      have hplaced := (h.begin (o := .rotation)).released (o := .due) |>.place (o := .rotation)
        (by decide) stored fun hs => ⟨(hu hs hfree).1, (hu hs hfree).2.clear⟩
      exact { hplaced with }
    · exact h
  | finishRotation =>
    unfold Session.step Session.finishRotation
    simp only
    split
    · exact h.unhold.run_off
    · exact h
  | startHandoff stored =>
    unfold Session.step Session.startHandoff
    simp only
    split
    · rename_i hfree
      exact (h.begin (o := .handoff)).place (by decide) stored
        fun hs => ⟨(hu hs hfree).1, (hu hs hfree).2.clear⟩
    · exact h
  | finishHandoff engine =>
    have hoff := (h.unhold (o := .handoff)).run_off (o := .handoff)
    exact { hoff with }
  | reserveCodex =>
    unfold Session.step Session.reserveCodex
    simp only
    split
    · exact h.begin
    · exact h
  | holdCodex stored =>
    unfold Session.step Session.holdCodex
    simp only
    split
    · rename_i hrun
      have hplaced := h.place (o := .codexRecovery) (by decide) stored
        fun hs => ⟨(hu hs hrun).1, (hu hs hrun).2.clear⟩
      exact { hplaced with }
    · exact h
  | dropCodex =>
    unfold Session.step Session.dropCodex
    simp only
    split
    · split
      · have hoff := (h.unhold (o := .codexRecovery)).run_off (o := .codexRecovery)
        exact { hoff with }
      · have hoff := h.run_off (o := .codexRecovery)
        exact { hoff with }
    · exact h
  | beginClaude stored =>
    unfold Session.step Session.beginClaude
    simp only
    split
    · rename_i hguard
      have hplaced := h.place (o := .claudeAccountRecovery) (by decide) stored
        fun hs => ⟨(hu hs hguard).1, (hu hs hguard).2.clear⟩
      cases stored with
      | true =>
        refine hplaced.run_on (fun u hp => ?_) true
        have hu : w.now + holdSecs = u := Option.some.inj hp
        rw [← hu]
        exact lt_add_of_pos_right _ (dueHoldCapSecs_pos.trans dueHoldCapSecs_lt)
      | false => exact hplaced
    · exact h
  | endClaude =>
    unfold Session.step Session.endClaude
    simp only
    split
    · exact h.unhold.run_off
    · exact h
  | restart => exact h.restart hu
  | boot => exact h.boot
  | completeRotation stored =>
    unfold Session.step Session.completeRotation
    simp only
    split
    · rename_i hrun
      have hphase : w.phase ≠ .booting := by
        rw [hrun.1]
        decide
      have hplaced := (h.begin (o := .rotation)).place (o := .rotation) (by decide) stored
        fun hs => ⟨hphase, (hu hs hrun).clear⟩
      refine hplaced.toPhase ?_ (by decide)
      rw [phase_placeHold]
      exact hphase
    · exact h
  | recoverHandoff stored spawned =>
    unfold Session.step Session.recoverHandoff
    simp only
    split
    · rename_i hrecovering
      have hphase : w.phase ≠ .booting := by
        rw [hrecovering]
        decide
      have hplaced := (h.begin (o := .handoff)).place (o := .handoff) (by decide) stored
        fun hs => ⟨hphase, (hu hs hrecovering).clear⟩
      have hrun := hplaced.run_on (o := .handoff)
        (fun u hp => hplaced.running .handoff u (by decide) ?_ hp) spawned
      · refine hrun.toPhase ?_ (by decide)
        show ((w.begin .handoff).placeHold .handoff stored).1.phase ≠ .booting
        rw [phase_placeHold]
        exact hphase
      · rw [running_placeHold]
        exact Function.update_self HoldOwner.handoff true w.running
    · exact h
  | recovered =>
    unfold Session.step Session.recovered
    simp only
    split
    · rename_i hphase
      refine h.toPhase ?_ (by decide)
      rw [hphase]
      decide
    · exact h

/-! ## Runs -/

/-- Whose hold an event lifts. -/
def Event.lifts : Event → Option HoldOwner
  | .refused .permanent _ | .refused .lasting _ | .expire | .exit => some .due
  | .finishRotation => some .rotation
  | .finishHandoff _ => some .handoff
  | .dropCodex => some .codexRecovery
  | .endClaude => some .claudeAccountRecovery
  | _ => none

/-- The file goes only when the hold in memory is the owner's, or there is none. -/
theorem unhold_file (hfile : (w.unhold o).file ≠ w.file) : ∀ h, w.hold = some h → h.owner = o := by
  intro h hh
  by_contra hne
  refine hfile ?_
  unfold Session.unhold
  simp only [hh]
  rw [if_pos hne]
  rfl

theorem lifts_file (hl : e.lifts = some o) (hfile : (w.step e).file ≠ w.file) :
    ∀ h, w.hold = some h → h.owner = o := by
  have hunarmed : ({ w with armed := false }.unhold .due).file ≠ w.file →
      ∀ h, w.hold = some h → h.owner = .due :=
    fun hne => unhold_file (w := { w with armed := false }) hne
  cases e with
  | refused r stored =>
    cases r with
    | permanent =>
      rw [← Option.some.inj hl]
      exact hunarmed hfile
    | raced => cases hl
    | lasting =>
      rw [← Option.some.inj hl]
      exact unhold_file hfile
  | expire =>
    rw [← Option.some.inj hl]
    exact hunarmed hfile
  | exit =>
    rw [← Option.some.inj hl]
    unfold Session.step Session.exit at hfile
    simp only at hfile
    split at hfile
    · exact absurd rfl hfile
    · exact hunarmed hfile
  | finishRotation =>
    rw [← Option.some.inj hl]
    unfold Session.step Session.finishRotation at hfile
    simp only at hfile
    split at hfile
    · exact unhold_file hfile
    · exact absurd rfl hfile
  | finishHandoff engine =>
    rw [← Option.some.inj hl]
    exact unhold_file hfile
  | dropCodex =>
    rw [← Option.some.inj hl]
    unfold Session.step Session.dropCodex at hfile
    simp only at hfile
    split at hfile
    · split at hfile
      · exact unhold_file hfile
      · exact absurd rfl hfile
    · exact absurd rfl hfile
  | endClaude =>
    rw [← Option.some.inj hl]
    unfold Session.step Session.endClaude at hfile
    simp only at hfile
    split at hfile
    · exact unhold_file hfile
    · exact absurd rfl hfile
  | _ => cases hl

/-- What a run shows. -/
structure Bounded (s : Session) (events : List Event) : Prop where
  /-- Nobody lifts a hold that another owner has placed, and neither released nor outlived. -/
  own : ∀ before e after, events = before ++ e :: after → ∀ o, e.lifts = some o →
    ((before.foldl Session.step s).step e).file ≠ (before.foldl Session.step s).file →
    ∀ o' u, o' ≠ o → (before.foldl Session.step s).noted.placed o' = some u →
      u ≤ (before.foldl Session.step s).now
  /-- Wakes are held while what has placed a hold runs. -/
  held : ∀ o u, o ≠ .due → (events.foldl Session.step s).running o = true →
    (events.foldl Session.step s).noted.placed o = some u → (events.foldl Session.step s).held = true
  /-- Due holds alone do not keep wakes waiting for longer than they may. -/
  capped : ∀ t, (events.foldl Session.step s).noted.stretch = some t →
    (events.foldl Session.step s).now ≤ t + dueHoldCapSecs
  /-- Nor do they begin to, before the rest after a stretch that lasted as long as it may. -/
  rest : ∀ t u, (events.foldl Session.step s).noted.stretch = some t →
    (events.foldl Session.step s).noted.spent = some u → u + dueHoldRestSecs ≤ t
  /-- A hold ends. -/
  ends : ∀ u, (events.foldl Session.step s).file = some u →
    u ≤ (events.foldl Session.step s).noted.lastPlaced + holdSecs

variable {now : ℚ} {engine : Engine} {events : List Event}

theorem kept_run (h : Meets Session.step Undisturbed (.start now engine) events) :
    Kept (events.foldl Session.step (.start now engine)) :=
  h.invariant (fun _ _ hk hu => hk.step hu) Kept.start

/-- What has placed a hold that has not ended has wakes held. -/
theorem Kept.held (h : Kept w) {u : ℚ} (ho : o ≠ .due) (hr : w.running o = true)
    (hp : w.noted.placed o = some u) : w.held = true := by
  have hlt := h.running o u ho hr hp
  obtain ⟨e, he, rfl, rfl⟩ := h.placed o u hp hlt
  rcases h.file e he with hfile | ⟨-, hdue, -⟩
  · unfold Session.held
    rw [hfile, Option.any_some, decide_eq_true_eq]
    exact hlt
  · exact absurd hdue ho

/-- In undisturbed runs, holds are owned and bounded. -/
theorem holds_bounded (h : Meets Session.step Undisturbed (.start now engine) events) :
    Bounded (.start now engine) events := by
  have hkept := kept_run h
  refine ⟨fun before e after hsplit o hl hfile o' u hne hp => ?_, fun o u ho hr hp => hkept.held ho hr hp,
    fun t ht => (hkept.stretch t ht).1.le, hkept.rest, hkept.ends⟩
  rw [hsplit] at h
  refine (kept_run h.of_append.1).other_ended hp fun h' hh => ?_
  rw [lifts_file hl hfile h' hh]
  exact hne.symm

/-- A due hold is taken over by a rotation, which fails; another one begins, and ends by itself. -/
theorem holds_bounded_rotation : Bounded (.start 0 .claude)
    [.arm true, .wait 300, .startRotation true, .wait 1500, .finishRotation, .arm true, .wait 2200,
      .refused .raced true, .wait 6000, .arm true] :=
  holds_bounded ⟨by decide, by decide +kernel, by decide +kernel, by decide +kernel, trivial,
    by decide +kernel, by decide +kernel, by decide +kernel, by decide +kernel, by decide +kernel,
    trivial⟩

/-- A rotation that is attempted after a spent episode forgets it. -/
theorem spent_forgotten : ¬ Bounded (.start 0 .claude)
    [.arm true, .wait 600, .startRotation true, .finishRotation, .arm true] := by
  intro h
  have hrest := h.rest 600 600 (by decide +kernel) (by decide +kernel)
  revert hrest
  decide +kernel

end Wakes
