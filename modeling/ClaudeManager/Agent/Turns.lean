import Mathlib
import ClaudeManager.Agent.Cell

/-!
# Counting turns

* `apply_refused` — a report that is not accepted changes nothing
* `apply_turns` — what an accepted report counts: its starts, less those awaited
* `turns_run` — every run counts the starts that were not counted as inputs before
* `credit_hides_turn` — an input that started nothing hides a later turn
-/

namespace Agent

open StateCell

variable {uuid : String → Option String} {c : StateCell} {r : Report} {now : Time}

/-- The report was taken in. -/
def accepted (result : Except String Applied) : Bool :=
  match result with
  | .ok applied => applied.accepted
  | .error _ => false

/-! ## Reports that are not accepted -/

theorem applySnapshot_refused {epoch : String} {seq : Nat} {s : RelaySnapshot}
    (h : accepted (c.applySnapshot epoch seq s now).2 = false) :
    (c.applySnapshot epoch seq s now).1 = c := by
  unfold applySnapshot at h ⊢
  split at h
  · next hstale => rw [if_pos hstale]
  · next hfresh =>
    rw [if_neg hfresh]
    cases hcheck : c.checkSnapshot epoch s now with
    | error e => rfl
    | ok u =>
      rw [hcheck] at h
      cases h

theorem applyHook_refused {event : HookEvent} {p : HookPayload}
    (h : accepted (c.applyHook event p now).2 = false) : (c.applyHook event p now).1 = c := by
  unfold applyHook at h ⊢
  simp only at h ⊢
  cases htime : validateTime (some (p.observedAt.getD now)) (some now) with
  | error e => rfl
  | ok u =>
    rw [htime] at h
    simp only at h ⊢
    split
    · rfl
    · next hours =>
      rw [if_neg hours] at h
      cases hcheck : checkHook p now with
      | error e => rfl
      | ok u =>
        rw [hcheck] at h
        simp only at h ⊢
        cases hevent : c.applyEvent event p (p.observedAt.getD now) with
        | none => rfl
        | some done =>
          rw [hevent] at h
          cases h

/-- A report that is not accepted changes nothing. -/
theorem apply_refused (h : accepted (c.apply uuid r now).2 = false) :
    (c.apply uuid r now).1 = c := by
  unfold StateCell.apply at h ⊢
  cases hbounds : r.validateBounds with
  | error e => rfl
  | ok u =>
    rw [hbounds] at h
    cases r with
    | snapshot epoch seq s =>
      simp only at h ⊢
      cases huuid : uuid epoch with
      | none => rfl
      | some epoch =>
        rw [huuid] at h
        exact applySnapshot_refused h
    | hook event p => exact applyHook_refused h

/-! ## Starts -/

/-- How many engine starts a report brings, once it is accepted. -/
def Report.starts (uuid : String → Option String) (c : StateCell) (r : Report) (now : Time) : Nat :=
  match r with
  | .snapshot epoch _ s => ((uuid epoch).map fun epoch => s.turnSeq - c.priorTurns epoch).getD 0
  | .hook .userPromptSubmit _ => 1
  | .hook .stop p | .hook .stopFailure p =>
    if p.continuing && !newer c.inputs.latestStart (some (p.observedAt.getD now)) then 1 else 0
  | .hook _ _ => 0

/-- The engine starts that something brings to a cell. -/
def Op.starts (uuid : String → Option String) (c : StateCell) : Op → Nat
  | .report r now => if accepted (c.apply uuid r now).2 then r.starts uuid c now else 0
  | _ => 0

/-- The engine starts of a run. -/
def startsOf (uuid : String → Option String) : StateCell → List Op → Nat
  | _, [] => 0
  | c, o :: os => o.starts uuid c + startsOf uuid (c.step uuid o) os

/-- What counting `n` starts leaves: those that were awaited are not counted again. -/
structure Counts (n : Nat) (c c' : StateCell) : Prop where
  pending : c'.pendingStarts = c.pendingStarts - n
  turns : c'.inputs.turnSeq = satAdd c.inputs.turnSeq (n - c.pendingStarts)

theorem counts_same {c' : StateCell} (hc : c.inputs.turnSeq ≤ u64Max)
    (hpending : c'.pendingStarts = c.pendingStarts)
    (hturns : c'.inputs.turnSeq = c.inputs.turnSeq) : Counts 0 c c' := by
  refine ⟨hpending, ?_⟩
  rw [hturns]
  unfold satAdd
  omega

theorem counts_starts {n : Nat} {t : Time} : Counts n c (c.engineStarts n t) := by
  refine ⟨?_, ?_⟩
  · show c.pendingStarts - min c.pendingStarts n = _
    omega
  · show satAdd c.inputs.turnSeq (n - min c.pendingStarts n) = _
    congr 1
    omega

/-- Nothing else that a report does touches the counters. -/
theorem Counts.of_eq {n : Nat} {c₁ c₂ c' : StateCell} (h : Counts n c₁ c₂)
    (hpending : c₁.pendingStarts = c.pendingStarts)
    (hturns : c₁.inputs.turnSeq = c.inputs.turnSeq) (hpending' : c'.pendingStarts = c₂.pendingStarts)
    (hturns' : c'.inputs.turnSeq = c₂.inputs.turnSeq) : Counts n c c' := by
  refine ⟨?_, ?_⟩
  · rw [hpending', h.pending, hpending]
  · rw [hturns', h.turns, hturns, hpending]

theorem enterEpoch_inputs (c : StateCell) (epoch : String) : (c.enterEpoch epoch).inputs = c.inputs ∧
    (c.enterEpoch epoch).pendingStarts = c.pendingStarts := by
  unfold enterEpoch
  split <;> exact ⟨rfl, rfl⟩

theorem applySnapshot_counts {epoch : String} {seq : Nat} {s : RelaySnapshot}
    (hc : c.inputs.turnSeq ≤ u64Max) (h : accepted (c.applySnapshot epoch seq s now).2 = true) :
    Counts (s.turnSeq - c.priorTurns epoch) c (c.applySnapshot epoch seq s now).1 := by
  unfold applySnapshot at h ⊢
  split at h
  · cases h
  · next hfresh =>
    rw [if_neg hfresh]
    cases hcheck : c.checkSnapshot epoch s now with
    | error e =>
      rw [hcheck] at h
      cases h
    | ok u =>
      simp only
      obtain ⟨hinputs, hpending⟩ := enterEpoch_inputs
        (c.snapshotStarts (s.turnSeq - c.priorTurns epoch) (startOf s now)) epoch
      have hstarts : Counts (s.turnSeq - c.priorTurns epoch) c
          (c.snapshotStarts (s.turnSeq - c.priorTurns epoch) (startOf s now)) := by
        unfold snapshotStarts
        split
        · exact (counts_starts (c := c.roundStart _ _) (t := startOf s now)).of_eq rfl rfl rfl rfl
        · next hzero =>
          have hnone : s.turnSeq - c.priorTurns epoch = 0 := by omega
          rw [hnone]
          exact counts_same hc rfl rfl
      refine hstarts.of_eq rfl rfl hpending ?_
      show (StateCell.enterEpoch _ epoch).inputs.turnSeq = _
      rw [hinputs]

theorem keepBackground_inputs (c : StateCell) (bg : Option Background) (t : Time) :
    (c.keepBackground bg t).pendingStarts = c.pendingStarts ∧
      (c.keepBackground bg t).inputs.turnSeq = c.inputs.turnSeq := by
  unfold keepBackground
  split
  · split <;> exact ⟨rfl, rfl⟩
  · exact ⟨rfl, rfl⟩

theorem rememberPrompt_inputs (c : StateCell) (id : Option String) :
    (c.rememberPrompt id).inputs = c.inputs ∧
      (c.rememberPrompt id).pendingStarts = c.pendingStarts := by
  unfold rememberPrompt
  split <;> exact ⟨rfl, rfl⟩

theorem applyStop_counts {failure : Bool} {p : HookPayload} {t : Time} {done : StateCell × Applied}
    (hc : c.inputs.turnSeq ≤ u64Max) (h : c.applyStop failure p t = some done) :
    Counts (if p.continuing && !newer c.inputs.latestStart (some t) then 1 else 0) c done.1 := by
  unfold applyStop at h
  split at h
  · cases h
  · simp only at h
    have hlatest : ∀ f, (c.setHooks f).inputs.latestStart = c.inputs.latestStart := fun _ => rfl
    rw [hlatest] at h
    split at h
    · next hgoes =>
      obtain rfl := Option.some.inj h
      rw [if_pos hgoes]
      exact (counts_starts (c := c.setHooks _) (t := t + 1 / 1000000)).of_eq rfl rfl rfl rfl
    · next hstops =>
      obtain rfl := Option.some.inj h
      rw [if_neg hstops]
      exact counts_same hc rfl rfl

theorem applyWait_counts {notification : Bool} {p : HookPayload} {t : Time}
    {done : StateCell × Applied} (hc : c.inputs.turnSeq ≤ u64Max)
    (h : c.applyWait notification p t = some done) : Counts 0 c done.1 := by
  unfold applyWait at h
  split at h
  · cases h
  · split at h
    · cases h
    · obtain rfl := Option.some.inj h
      exact counts_same hc rfl rfl

theorem applyEvent_counts {event : HookEvent} {p : HookPayload} {done : StateCell × Applied}
    (hc : c.inputs.turnSeq ≤ u64Max)
    (h : c.applyEvent event p (p.observedAt.getD now) = some done) :
    Counts ((Report.hook event p).starts uuid c now) c done.1 := by
  cases event with
  | userPromptSubmit =>
    simp only [applyEvent, applyPrompt] at h
    split at h
    · cases h
    · obtain rfl := Option.some.inj h
      obtain ⟨hinputs, hpending⟩ := rememberPrompt_inputs c p.promptId
      refine (counts_starts (n := 1) (c := c.rememberPrompt p.promptId)
        (t := p.observedAt.getD now)).of_eq hpending ?_ rfl rfl
      show (c.rememberPrompt p.promptId).inputs.turnSeq = _
      rw [hinputs]
  | stop => exact applyStop_counts hc h
  | stopFailure => exact applyStop_counts hc h
  | permissionRequest => exact applyWait_counts hc h
  | notification => exact applyWait_counts hc h

theorem applyHook_counts {event : HookEvent} {p : HookPayload} (hc : c.inputs.turnSeq ≤ u64Max)
    (h : accepted (c.applyHook event p now).2 = true) :
    Counts ((Report.hook event p).starts uuid c now) c (c.applyHook event p now).1 := by
  unfold applyHook at h ⊢
  simp only at h ⊢
  cases htime : validateTime (some (p.observedAt.getD now)) (some now) with
  | error e =>
    rw [htime] at h
    cases h
  | ok u =>
    rw [htime] at h
    simp only at h ⊢
    split
    · next hforeign =>
      rw [if_pos hforeign] at h
      cases h
    · next hours =>
      rw [if_neg hours] at h
      cases hcheck : checkHook p now with
      | error e =>
        rw [hcheck] at h
        cases h
      | ok u =>
        rw [hcheck] at h
        simp only at h ⊢
        cases hevent : c.applyEvent event p (p.observedAt.getD now) with
        | none =>
          rw [hevent] at h
          cases h
        | some done =>
          obtain ⟨hpending, hturns⟩ := keepBackground_inputs done.1 p.background
            (p.observedAt.getD now)
          exact (applyEvent_counts hc hevent).of_eq rfl rfl hpending hturns

/-- What an accepted report counts. -/
theorem apply_counts (hc : c.inputs.turnSeq ≤ u64Max) :
    Counts ((Op.report r now).starts uuid c) c (c.apply uuid r now).1 := by
  simp only [Op.starts]
  by_cases h : accepted (c.apply uuid r now).2 = true
  · rw [if_pos h]
    unfold StateCell.apply at h ⊢
    cases hbounds : r.validateBounds with
    | error e =>
      rw [hbounds] at h
      cases h
    | ok u =>
      rw [hbounds] at h
      cases r with
      | snapshot epoch seq s =>
        simp only at h ⊢
        cases huuid : uuid epoch with
        | none =>
          rw [huuid] at h
          cases h
        | some epoch' =>
          rw [huuid] at h
          have hstarts : (Report.snapshot epoch seq s).starts uuid c now =
              s.turnSeq - c.priorTurns epoch' := by
            simp [Report.starts, huuid]
          rw [hstarts]
          exact applySnapshot_counts hc h
      | hook event p => exact applyHook_counts hc h
  · rw [if_neg h, apply_refused (by simpa using h)]
    exact counts_same hc rfl rfl

/-! ## Runs -/

/-- An input was accepted. -/
def Op.isInput : Op → Bool
  | .input _ => true
  | _ => false

theorem step_counts (uuid : String → Option String) {o : Op} (hc : c.inputs.turnSeq ≤ u64Max) (ho : o.isInput = false) :
    Counts (o.starts uuid c) c (c.step uuid o) := by
  cases o with
  | input now => cases ho
  | report r now => exact apply_counts hc
  | command now => exact counts_same hc rfl rfl
  | submitted token now => exact counts_same hc rfl rfl
  | observe presence => exact counts_same hc rfl rfl
  | unbind now => exact counts_same hc rfl rfl
  | progress at_ => exact counts_same hc rfl rfl
  | limitMenu record => exact counts_same hc rfl rfl
  | read legacy exited now => exact counts_same hc rfl rfl

theorem satAdd_le {a b : Nat} : satAdd a b ≤ u64Max := Nat.min_le_right ..

theorem le_satAdd {a b : Nat} (h : a ≤ u64Max) : a ≤ satAdd a b := by
  unfold satAdd
  omega

/-- The counter never falls, and never leaves its width. -/
theorem step_turns (uuid : String → Option String) (o : Op) (hc : c.inputs.turnSeq ≤ u64Max) :
    c.inputs.turnSeq ≤ (c.step uuid o).inputs.turnSeq ∧
      (c.step uuid o).inputs.turnSeq ≤ u64Max := by
  by_cases ho : o.isInput = false
  · rw [(step_counts uuid hc ho).turns]
    exact ⟨le_satAdd hc, satAdd_le⟩
  · cases o with
    | input now => exact ⟨le_satAdd hc, satAdd_le⟩
    | _ => exact absurd rfl ho

theorem run_turns {os : List Op} (hc : c.inputs.turnSeq ≤ u64Max) :
    c.inputs.turnSeq ≤ (os.foldl (StateCell.step uuid) c).inputs.turnSeq ∧
      (os.foldl (StateCell.step uuid) c).inputs.turnSeq ≤ u64Max := by
  induction os generalizing c with
  | nil => exact ⟨Nat.le_refl _, hc⟩
  | cons o os ih =>
    obtain ⟨hle, hmax⟩ := step_turns uuid o hc
    exact ⟨hle.trans (ih hmax).1, (ih hmax).2⟩

/-- A run without inputs counts its starts, less those that were awaited. -/
theorem run_counts {os : List Op} (hc : c.inputs.turnSeq ≤ u64Max)
    (hos : ∀ o ∈ os, o.isInput = false) :
    Counts (startsOf uuid c os) c (os.foldl (StateCell.step uuid) c) := by
  induction os generalizing c with
  | nil => exact counts_same hc rfl rfl
  | cons o os ih =>
    have hfirst := step_counts uuid hc (hos o List.mem_cons_self)
    have hrest := ih (step_turns uuid o hc).2
      fun o ho => hos o (List.mem_cons_of_mem _ ho)
    refine ⟨?_, ?_⟩
    · rw [List.foldl_cons, hrest.pending, hfirst.pending]
      show _ = c.pendingStarts - (o.starts uuid c + startsOf uuid (c.step uuid o) os)
      omega
    · rw [List.foldl_cons, hrest.turns, hfirst.turns, hfirst.pending]
      show _ = satAdd c.inputs.turnSeq
        (o.starts uuid c + startsOf uuid (c.step uuid o) os - c.pendingStarts)
      unfold satAdd
      omega

/-! ## The same report again -/

/-- A report that tells when what it reports happened. -/
def Report.timed : Report → Bool
  | .hook _ p => p.observedAt.isSome
  | .snapshot _ _ _ => true

/-- A prompt that would count as a new one. -/
def Report.freshPrompt (c : StateCell) : Report → Bool
  | .hook .userPromptSubmit p => newer p.observedAt c.inputs.hooks.promptAt
    && !p.promptId.any fun id => id ∈ c.promptIds
  | _ => false

/-- Everything up to a snapshot, an end or a wait was seen. -/
structure Past (c c' : StateCell) : Prop where
  snapshots : ∀ epoch seq, c.staleSnapshot epoch seq = true → c'.staleSnapshot epoch seq = true
  ends : ∀ t, newer t c.hookEnd = false → newer t c'.hookEnd = false
  waits : ∀ t, newer t c.inputs.hooks.waitingAt = false →
    newer t c'.inputs.hooks.waitingAt = false

namespace Past

theorem refl (c : StateCell) : Past c c := ⟨fun _ _ h => h, fun _ h => h, fun _ h => h⟩

theorem trans {c₁ c₂ c₃ : StateCell} (h : Past c₁ c₂) (h' : Past c₂ c₃) : Past c₁ c₃ where
  snapshots := fun epoch seq hs => h'.snapshots epoch seq (h.snapshots epoch seq hs)
  ends := fun t ht => h'.ends t (h.ends t ht)
  waits := fun t ht => h'.waits t (h.waits t ht)

/-- Steps that leave epochs and hooks alone. -/
theorem of_eq {c' : StateCell} (hepoch : c'.epoch = c.epoch) (hseq : c'.seq = c.seq)
    (hretired : c'.retiredEpochs = c.retiredEpochs) (hhooks : c'.inputs.hooks = c.inputs.hooks) :
    Past c c' := by
  refine ⟨fun epoch seq h => ?_, fun t h => ?_, fun t h => ?_⟩
  · unfold staleSnapshot sameEpoch at h ⊢
    rw [hepoch, hseq, hretired]
    exact h
  · unfold hookEnd
    rw [hhooks]
    exact h
  · rw [hhooks]
    exact h

end Past

theorem not_newer_maxTime {t a b : Option Time} (h : newer t a = false) :
    newer t (maxTime a b) = false := by
  rw [newer_maxTime, h, Bool.false_and]

/-- What is not later than one time is not later than a later one. -/
theorem not_newer_of_newer {t a b : Option Time} (h : newer t a = false) (hab : newer b a = true) :
    newer t b = false := by
  cases hb : newer t b with
  | false => rfl
  | true =>
    rw [newer_trans hb hab] at h
    cases h

theorem applySnapshot_past {epoch : String} {seq : Nat} {s : RelaySnapshot} :
    Past c (c.applySnapshot epoch seq s now).1 ∧
      (accepted (c.applySnapshot epoch seq s now).2 = true →
        (c.applySnapshot epoch seq s now).1.staleSnapshot epoch seq = true) := by
  unfold applySnapshot
  split
  · exact ⟨.refl c, fun h => by cases h⟩
  · next hfresh =>
    cases hcheck : c.checkSnapshot epoch s now with
    | error e => exact ⟨.refl c, fun h => by cases h⟩
    | ok u =>
      simp only
      obtain ⟨c₁, hc₁⟩ : ∃ c₁, c.snapshotStarts (s.turnSeq - c.priorTurns epoch) (startOf s now) = c₁ :=
        ⟨_, rfl⟩
      have hsame : c₁.epoch = c.epoch ∧ c₁.seq = c.seq ∧ c₁.retiredEpochs = c.retiredEpochs ∧
          c₁.inputs.hooks = c.inputs.hooks := by
        rw [← hc₁]
        unfold snapshotStarts
        split <;> exact ⟨rfl, rfl, rfl, rfl⟩
      obtain ⟨hepoch, hseq, hretired, hhooks⟩ := hsame
      rw [hc₁]
      have hkept : ((c₁.enterEpoch epoch).keepSnapshot seq s now).inputs.hooks = c.inputs.hooks := by
        show (c₁.enterEpoch epoch).inputs.hooks = _
        rw [(enterEpoch_inputs c₁ epoch).1, hhooks]
      have hentered : (c₁.enterEpoch epoch).epoch = some epoch := by
        unfold enterEpoch
        split
        · next hin => exact of_decide_eq_true hin
        · rfl
      refine ⟨⟨fun e k h => ?_, fun t h => ?_, fun t h => ?_⟩, fun _ => ?_⟩
      · unfold staleSnapshot at h ⊢
        rw [Bool.or_eq_true, decide_eq_true_eq, Bool.and_eq_true, decide_eq_true_eq] at h ⊢
        show e ∈ (c₁.enterEpoch epoch).retiredEpochs ∨ (decide ((c₁.enterEpoch epoch).epoch = some e)
          = true ∧ k ≤ seq)
        rw [hentered]
        rcases h with hold | ⟨hcur, hk⟩
        · left
          unfold enterEpoch
          split
          · rw [hretired]
            exact hold
          · simp only
            split
            · split
              · rw [hretired]
                exact hold
              · rw [hretired]
                exact List.mem_append_left _ hold
            · rw [hretired]
              exact hold
        · have hcur' : c.epoch = some e := of_decide_eq_true hcur
          by_cases he : e = epoch
          · subst he
            right
            refine ⟨by simp, ?_⟩
            have hnew : ¬ seq ≤ c.seq := by
              intro hle
              refine hfresh ?_
              unfold staleSnapshot sameEpoch
              simp [hcur', hle]
            omega
          · left
            unfold enterEpoch
            rw [if_neg (by
              unfold sameEpoch
              rw [hepoch, hcur']
              simpa using he)]
            simp only [hepoch, hcur']
            split
            · next hin => exact hin
            · exact List.mem_append_right _ (List.mem_singleton.mpr rfl)
      · unfold hookEnd
        rw [hkept]
        exact h
      · rw [hkept]
        exact h
      · unfold staleSnapshot sameEpoch
        show (decide (epoch ∈ (c₁.enterEpoch epoch).retiredEpochs) ||
          (decide ((c₁.enterEpoch epoch).epoch = some epoch) && decide (seq ≤ seq))) = true
        rw [hentered]
        simp

theorem applyEvent_past {event : HookEvent} {p : HookPayload} {t : Time}
    {done : StateCell × Applied} (h : c.applyEvent event p t = some done) : Past c done.1 ∧
      (event ≠ .userPromptSubmit → done.1.applyEvent event p t = none) := by
  have hstop : ∀ {failure : Bool}, c.applyStop failure p t = some done → Past c done.1 ∧
      newer (some t) done.1.hookEnd = false := by
    intro failure h
    unfold applyStop at h
    split at h
    · cases h
    · next hnew =>
      have hlater : newer (some t) c.hookEnd = true := by simpa using hnew
      have hend : ∀ c' : StateCell,
          c'.hookEnd = (c.setHooks (stopEdges failure p t)).hookEnd → newer (some t) c'.hookEnd = false ∧
            ∀ u, newer u c.hookEnd = false → newer u c'.hookEnd = false := by
        intro c' hc'
        have hself : newer (some t) c'.hookEnd = false := by
          rw [hc']
          unfold hookEnd setHooks stopEdges
          rw [newer_maxTime]
          cases failure <;> simp
        refine ⟨hself, fun u hu => ?_⟩
        cases hcase : newer u c'.hookEnd with
        | false => rfl
        | true =>
          exfalso
          have hge : newer u (some t) = true := by
            rw [hc'] at hcase
            unfold hookEnd setHooks stopEdges at hcase
            rw [newer_maxTime, Bool.and_eq_true] at hcase
            cases failure
            · exact hcase.1
            · exact hcase.2
          rw [newer_trans hge hlater] at hu
          cases hu
      simp only at h
      split at h
      · obtain rfl := Option.some.inj h
        obtain ⟨hself, hmono⟩ := hend _ rfl
        exact ⟨⟨fun _ _ hs => hs, hmono, by cases failure <;> exact fun _ hw => hw⟩, hself⟩
      · obtain rfl := Option.some.inj h
        obtain ⟨hself, hmono⟩ := hend _ rfl
        exact ⟨⟨fun _ _ hs => hs, hmono, by cases failure <;> exact fun _ hw => hw⟩, hself⟩
  have hwait : ∀ {notification : Bool}, c.applyWait notification p t = some done →
      Past c done.1 ∧ done.1.applyWait notification p t = none := by
    intro notification h
    unfold applyWait at h
    split at h
    · cases h
    · next hkind =>
      split at h
      · cases h
      · next hnew =>
        have hlater : newer (some t) c.inputs.hooks.waitingAt = true := by simpa using hnew
        obtain rfl := Option.some.inj h
        refine ⟨⟨fun _ _ hs => hs, fun _ he => he, fun u hu => ?_⟩, ?_⟩
        · exact not_newer_of_newer hu hlater
        · unfold applyWait
          rw [if_neg hkind, if_pos]
          simp [setHooks]
  cases event with
  | userPromptSubmit =>
    refine ⟨?_, fun hne => absurd rfl hne⟩
    simp only [applyEvent, applyPrompt] at h
    split at h
    · cases h
    · obtain rfl := Option.some.inj h
      have hhooks : (c.rememberPrompt p.promptId).inputs.hooks = c.inputs.hooks := by
        rw [(rememberPrompt_inputs c p.promptId).1]
      have hepochs : (c.rememberPrompt p.promptId).epoch = c.epoch ∧
          (c.rememberPrompt p.promptId).seq = c.seq ∧
          (c.rememberPrompt p.promptId).retiredEpochs = c.retiredEpochs := by
        unfold rememberPrompt
        split <;> exact ⟨rfl, rfl, rfl⟩
      refine (Past.of_eq hepochs.1 hepochs.2.1 hepochs.2.2 hhooks).trans ?_
      exact ⟨fun _ _ hs => hs, fun _ he => he, fun _ hw => hw⟩
  | stop =>
    obtain ⟨hpast, hself⟩ := hstop h
    refine ⟨hpast, fun _ => ?_⟩
    simp only [applyEvent, applyStop]
    rw [if_pos (by rw [hself]; rfl)]
  | stopFailure =>
    obtain ⟨hpast, hself⟩ := hstop h
    refine ⟨hpast, fun _ => ?_⟩
    simp only [applyEvent, applyStop]
    rw [if_pos (by rw [hself]; rfl)]
  | permissionRequest => exact ⟨(hwait h).1, fun _ => (hwait h).2⟩
  | notification => exact ⟨(hwait h).1, fun _ => (hwait h).2⟩

theorem keepBackground_past {bg : Option Background} {t : Time} :
    Past c (c.keepBackground bg t) := by
  unfold keepBackground
  split
  · split
    · exact .refl c
    · exact Past.of_eq rfl rfl rfl rfl
  · exact .refl c

/-- An event that is refused once its background is kept was refused before. -/
theorem applyEvent_keepBackground {event : HookEvent} {p : HookPayload} {t : Time}
    {bg : Option Background} (h : c.applyEvent event p t = none) :
    (c.keepBackground bg t).applyEvent event p t = none := by
  have hsame : (c.keepBackground bg t).inputs.hooks = c.inputs.hooks ∧
      (c.keepBackground bg t).promptIds = c.promptIds := by
    unfold keepBackground
    split
    · split <;> exact ⟨rfl, rfl⟩
    · exact ⟨rfl, rfl⟩
  obtain ⟨hhooks, hids⟩ := hsame
  have hstop : ∀ {failure : Bool}, c.applyStop failure p t = none →
      (c.keepBackground bg t).applyStop failure p t = none := by
    intro failure h
    unfold applyStop hookEnd at h ⊢
    rw [hhooks]
    split at h
    · next hold => rw [if_pos hold]
    · simp only at h
      split at h <;> cases h
  have hwait : ∀ {notification : Bool}, c.applyWait notification p t = none →
      (c.keepBackground bg t).applyWait notification p t = none := by
    intro notification h
    unfold applyWait at h ⊢
    rw [hhooks]
    split at h
    · next hkind => rw [if_pos hkind]
    · next hkind =>
      rw [if_neg hkind]
      split at h
      · next hold => rw [if_pos hold]
      · cases h
  cases event with
  | userPromptSubmit =>
    have hstale : (c.keepBackground bg t).stalePrompt p t = c.stalePrompt p t := by
      unfold stalePrompt
      rw [hhooks, hids]
    simp only [applyEvent, applyPrompt] at h ⊢
    split at h
    · next hold => rw [if_pos (hstale.trans hold)]
    · cases h
  | stop => exact hstop h
  | stopFailure => exact hstop h
  | permissionRequest => exact hwait h
  | notification => exact hwait h

/-- An end, a wait or a snapshot that was seen is not taken in again. -/
theorem applyEvent_again {event : HookEvent} {p : HookPayload} {t : Time} {c' : StateCell}
    (hpast : Past c c') (hne : event ≠ .userPromptSubmit) (h : c.applyEvent event p t = none) :
    c'.applyEvent event p t = none := by
  have hstop : ∀ {failure : Bool}, c.applyStop failure p t = none →
      c'.applyStop failure p t = none := by
    intro failure h
    unfold applyStop at h ⊢
    split at h
    · next hold =>
      have hend := hpast.ends (some t) (by simpa using hold)
      rw [if_pos (by simpa using hend)]
    · simp only at h
      split at h <;> cases h
  have hwait : ∀ {notification : Bool}, c.applyWait notification p t = none →
      c'.applyWait notification p t = none := by
    intro notification h
    unfold applyWait at h ⊢
    split at h
    · next hkind => rw [if_pos hkind]
    · next hkind =>
      rw [if_neg hkind]
      split at h
      · next hold =>
        have hlate := hpast.waits (some t) (by simpa using hold)
        rw [if_pos (by simpa using hlate)]
      · cases h
  cases event with
  | userPromptSubmit => exact absurd rfl hne
  | stop => exact hstop h
  | stopFailure => exact hstop h
  | permissionRequest => exact hwait h
  | notification => exact hwait h

theorem applyHook_cases (c : StateCell) (event : HookEvent) (p : HookPayload) (now : Time) :
    ((c.applyHook event p now).1 = c ∧ accepted (c.applyHook event p now).2 = false) ∨
      ∃ done, c.applyEvent event p (p.observedAt.getD now) = some done ∧
        (c.applyHook event p now).1 = done.1.keepBackground p.background (p.observedAt.getD now) := by
  unfold applyHook
  simp only
  cases validateTime (some (p.observedAt.getD now)) (some now) with
  | error e => exact .inl ⟨rfl, rfl⟩
  | ok u =>
    simp only
    split
    · exact .inl ⟨rfl, rfl⟩
    · cases checkHook p now with
      | error e => exact .inl ⟨rfl, rfl⟩
      | ok u =>
        simp only
        cases hevent : c.applyEvent event p (p.observedAt.getD now) with
        | none => exact .inl ⟨rfl, rfl⟩
        | some done => exact .inr ⟨done, rfl, rfl⟩

theorem applyHook_past {event : HookEvent} {p : HookPayload} :
    Past c (c.applyHook event p now).1 := by
  rcases applyHook_cases c event p now with
    ⟨hsame, -⟩ | ⟨done, hevent, hkept⟩
  · rw [hsame]
    exact .refl c
  · rw [hkept]
    exact (applyEvent_past hevent).1.trans keepBackground_past

theorem apply_past : Past c (c.apply uuid r now).1 := by
  unfold StateCell.apply
  cases r.validateBounds with
  | error e => exact .refl c
  | ok u =>
    cases r with
    | snapshot epoch seq s =>
      simp only
      cases uuid epoch with
      | none => exact .refl c
      | some epoch => exact applySnapshot_past.1
    | hook event p => exact applyHook_past

theorem run_past {os : List Op} : Past c (os.foldl (StateCell.step uuid) c) := by
  induction os generalizing c with
  | nil => exact .refl c
  | cons o os ih =>
    refine Past.trans ?_ ih
    cases o with
    | report r now => exact apply_past
    | input now => exact Past.of_eq rfl rfl rfl rfl
    | command now => exact Past.of_eq rfl rfl rfl rfl
    | submitted token now => exact Past.of_eq rfl rfl rfl rfl
    | observe presence => exact Past.of_eq rfl rfl rfl rfl
    | unbind now => exact Past.of_eq rfl rfl rfl rfl
    | progress at_ => exact Past.of_eq rfl rfl rfl rfl
    | limitMenu record => exact Past.of_eq rfl rfl rfl rfl
    | read legacy exited now => exact Past.of_eq rfl rfl rfl rfl

/-- A report that was taken in is not taken in again, unless it is a prompt that counts as new. -/
theorem apply_again {now' : Time} {c' : StateCell} (htimed : r.timed = true)
    (h : accepted (c.apply uuid r now).2 = true) (hpast : Past (c.apply uuid r now).1 c')
    (hagain : accepted (c'.apply uuid r now').2 = true) : r.freshPrompt c' = true := by
  unfold StateCell.apply at h hpast hagain
  cases hbounds : r.validateBounds with
  | error e =>
    rw [hbounds] at h
    cases h
  | ok u =>
    rw [hbounds] at h hpast hagain
    cases r with
    | snapshot epoch seq s =>
      simp only at h hpast hagain
      cases huuid : uuid epoch with
      | none =>
        rw [huuid] at h
        cases h
      | some epoch' =>
        rw [huuid] at h hpast hagain
        have hstale := hpast.snapshots epoch' seq (applySnapshot_past.2 h)
        simp only [applySnapshot, hstale, if_true] at hagain
        cases hagain
    | hook event p =>
      simp only at h hpast hagain
      obtain ⟨t, ht⟩ := Option.isSome_iff_exists.mp (show p.observedAt.isSome = true from htimed)
      rcases applyHook_cases c' event p now' with
        ⟨-, hrefused⟩ | ⟨done', hdone', -⟩
      · rw [hrefused] at hagain
        cases hagain
      rcases applyHook_cases c event p now with
        ⟨-, hrefused⟩ | ⟨done, hevent, hkept⟩
      · rw [hrefused] at h
        cases h
      rw [ht] at hdone' hevent hkept
      simp only [Option.getD_some] at hdone' hevent hkept
      rw [hkept] at hpast
      by_cases hprompt : event = .userPromptSubmit
      · subst hprompt
        simp only [applyEvent, applyPrompt] at hdone'
        split at hdone'
        · cases hdone'
        · next hfresh =>
          unfold stalePrompt at hfresh
          unfold Report.freshPrompt
          simp only [ht]
          simpa using hfresh
      · exfalso
        have hnone := applyEvent_again hpast hprompt
          (applyEvent_keepBackground ((applyEvent_past hevent).2 hprompt))
        rw [hnone] at hdone'
        cases hdone'

/-! A check that passed passes later too. -/

theorem refuse_ok {bad : Prop} [Decidable bad] {message : String} {u : Unit} :
    refuse bad message = .ok u ↔ ¬bad := by
  unfold refuse
  split
  · next hbad =>
    refine ⟨fun h => ?_, fun h => absurd hbad h⟩
    cases h
  · next hgood => exact ⟨fun _ => hgood, fun _ => rfl⟩

theorem validateTime_later {t : Option Time} {now' : Time} {u : Unit} (hle : now ≤ now')
    (h : validateTime t (some now) = .ok u) : validateTime t (some now') = .ok u := by
  unfold validateTime at h ⊢
  rw [refuse_ok] at h ⊢
  intro hbad
  refine h ?_
  cases t with
  | none => cases hbad
  | some t =>
    simp only [Option.any_some, Bool.or_eq_true, decide_eq_true_eq] at hbad ⊢
    rcases hbad with hneg | hlate
    · exact .inl hneg
    · right
      linarith

/-- A loop of checks that passed passes with checks that are weaker. -/
theorem forIn_later {α : Type} {f g : α → PUnit → Except String (ForInStep PUnit)} {l : List α}
    {u : PUnit} (hfg : ∀ a s r, f a s = .ok r → g a s = .ok r) (h : forIn l u f = .ok u) :
    forIn l u g = .ok u := by
  induction l with
  | nil => rfl
  | cons a l ih =>
    rw [List.forIn_cons] at h ⊢
    cases hfirst : f a u with
    | error e =>
      rw [hfirst] at h
      cases h
    | ok r =>
      rw [hfirst] at h
      rw [hfg a u r hfirst]
      cases r with
      | done s => exact h
      | yield s => exact ih h

/-- The first of two checks that passed together passed. -/
theorem bind_ok {a : Except String PUnit} {b : Except String PUnit} {u : PUnit}
    (h : (a >>= fun _ => b) = .ok u) : a = .ok u ∧ b = .ok u := by
  cases a with
  | error e => cases h
  | ok v => exact ⟨rfl, h⟩

theorem validateBackground_later {bg : Background} {now' : Time} {u : Unit} (hle : now ≤ now')
    (h : validateBackground bg now = .ok u) : validateBackground bg now' = .ok u := by
  obtain ⟨hjobs, hrest⟩ := bind_ok h
  obtain ⟨hended, -⟩ := bind_ok hrest
  have hjobs' := forIn_later (g := fun job s => do
    validateTime (some job.firstSeenAt) (some now')
    refuse ((job.cpu.any fun cpu => cpu < 0) = true) "cpu must be a nonnegative percentage"
    pure (.yield s)) (fun job s r hjob => ?_) hjobs
  have hended' := forIn_later (g := fun job s => do
    validateTime (some job.endedAt) (some now')
    pure (.yield s)) (fun job s r hjob => ?_) hended
  · unfold validateBackground
    rw [hjobs']
    exact congrArg (fun checked : Except String PUnit => checked >>= fun _ => pure ()) hended'
  · cases htime : validateTime (some job.endedAt) (some now) with
    | error e =>
      rw [htime] at hjob
      cases hjob
    | ok u =>
      rw [htime] at hjob
      rw [validateTime_later hle htime]
      exact hjob
  · cases htime : validateTime (some job.firstSeenAt) (some now) with
    | error e =>
      rw [htime] at hjob
      cases hjob
    | ok u =>
      rw [htime] at hjob
      rw [validateTime_later hle htime]
      exact hjob

theorem checkHook_later {p : HookPayload} {now' : Time} {u : Unit} (hle : now ≤ now')
    (h : checkHook p now = .ok u) : checkHook p now' = .ok u := by
  unfold checkHook at h ⊢
  cases htime : validateTime p.resumesAt none with
  | error e =>
    rw [htime] at h
    cases h
  | ok u =>
    rw [htime] at h
    cases hbg : p.background with
    | none => rfl
    | some bg =>
      rw [hbg] at h
      exact validateBackground_later hle h

/-! What reports leave alone. -/

/-- The incarnation of a cell, and what is not reported. -/
structure Apart (c c' : StateCell) : Prop where
  spawnedAt : c'.inputs.spawnedAt = c.inputs.spawnedAt
  presence : c'.inputs.presence = c.inputs.presence
  lastProgressAt : c'.inputs.lastProgressAt = c.inputs.lastProgressAt

namespace Apart

theorem refl (c : StateCell) : Apart c c := ⟨rfl, rfl, rfl⟩

theorem trans {c₁ c₂ c₃ : StateCell} (h : Apart c₁ c₂) (h' : Apart c₂ c₃) : Apart c₁ c₃ where
  spawnedAt := h'.spawnedAt.trans h.spawnedAt
  presence := h'.presence.trans h.presence
  lastProgressAt := h'.lastProgressAt.trans h.lastProgressAt

theorem of_inputs {c' : StateCell} (h : c'.inputs = c.inputs) : Apart c c' := by
  refine ⟨?_, ?_, ?_⟩ <;> rw [h]

end Apart

theorem applySnapshot_apart {epoch : String} {seq : Nat} {s : RelaySnapshot} :
    Apart c (c.applySnapshot epoch seq s now).1 := by
  unfold applySnapshot
  split
  · exact .refl c
  · cases c.checkSnapshot epoch s now with
    | error e => exact .refl c
    | ok u =>
      have hstarts : Apart c
          (c.snapshotStarts (s.turnSeq - c.priorTurns epoch) (startOf s now)) := by
        unfold snapshotStarts
        split <;> exact ⟨rfl, rfl, rfl⟩
      have hentered := Apart.of_inputs (enterEpoch_inputs
        (c.snapshotStarts (s.turnSeq - c.priorTurns epoch) (startOf s now)) epoch).1
      exact (hstarts.trans hentered).trans ⟨rfl, rfl, rfl⟩

theorem applyEvent_apart {event : HookEvent} {p : HookPayload} {t : Time}
    {done : StateCell × Applied} (h : c.applyEvent event p t = some done) :
    Apart c done.1 ∧ done.1.inputs.relay = c.inputs.relay := by
  have hstop : ∀ {failure : Bool}, c.applyStop failure p t = some done →
      Apart c done.1 ∧ done.1.inputs.relay = c.inputs.relay := by
    intro failure h
    unfold applyStop at h
    split at h
    · cases h
    · simp only at h
      split at h
      · obtain rfl := Option.some.inj h
        exact ⟨⟨rfl, rfl, rfl⟩, rfl⟩
      · obtain rfl := Option.some.inj h
        exact ⟨⟨rfl, rfl, rfl⟩, rfl⟩
  have hwait : ∀ {notification : Bool}, c.applyWait notification p t = some done →
      Apart c done.1 ∧ done.1.inputs.relay = c.inputs.relay := by
    intro notification h
    unfold applyWait at h
    split at h
    · cases h
    · split at h
      · cases h
      · obtain rfl := Option.some.inj h
        exact ⟨⟨rfl, rfl, rfl⟩, rfl⟩
  cases event with
  | userPromptSubmit =>
    simp only [applyEvent, applyPrompt] at h
    split at h
    · cases h
    · obtain rfl := Option.some.inj h
      have hids : (c.rememberPrompt p.promptId).inputs = c.inputs :=
        (rememberPrompt_inputs c p.promptId).1
      refine ⟨(Apart.of_inputs hids).trans ⟨rfl, rfl, rfl⟩, ?_⟩
      show (c.rememberPrompt p.promptId).inputs.relay = _
      rw [hids]
  | stop => exact hstop h
  | stopFailure => exact hstop h
  | permissionRequest => exact hwait h
  | notification => exact hwait h

theorem keepBackground_apart (c : StateCell) (bg : Option Background) (t : Time) :
    Apart c (c.keepBackground bg t) ∧ (c.keepBackground bg t).inputs.relay = c.inputs.relay := by
  unfold keepBackground
  split
  · split <;> exact ⟨⟨rfl, rfl, rfl⟩, rfl⟩
  · exact ⟨.refl c, rfl⟩

theorem applyHook_apart {event : HookEvent} {p : HookPayload} :
    Apart c (c.applyHook event p now).1 ∧
      (c.applyHook event p now).1.inputs.relay = c.inputs.relay := by
  rcases applyHook_cases c event p now with
    ⟨hsame, -⟩ | ⟨done, hevent, hkept⟩
  · rw [hsame]
    exact ⟨.refl c, rfl⟩
  · rw [hkept]
    obtain ⟨hdone, hrelay⟩ := applyEvent_apart hevent
    obtain ⟨hbackground, hrelay'⟩ := keepBackground_apart done.1 p.background
      (p.observedAt.getD now)
    exact ⟨hdone.trans hbackground, hrelay'.trans hrelay⟩

theorem apply_apart : Apart c (c.apply uuid r now).1 := by
  unfold StateCell.apply
  cases r.validateBounds with
  | error e => exact .refl c
  | ok u =>
    cases r with
    | snapshot epoch seq s =>
      simp only
      cases uuid epoch with
      | none => exact .refl c
      | some epoch => exact applySnapshot_apart
    | hook event p => exact applyHook_apart.1

theorem run_spawnedAt {os : List Op} :
    (os.foldl (StateCell.step uuid) c).inputs.spawnedAt = c.inputs.spawnedAt := by
  induction os generalizing c with
  | nil => rfl
  | cons o os ih =>
    refine Eq.trans ih ?_
    cases o with
    | report r now => exact apply_apart.spawnedAt
    | _ => rfl

/-- A prompt that counts as new changes the cell, once its own checks pass. -/
theorem apply_fresh {now' : Time} {c' : StateCell} (htimed : r.timed = true)
    (h : accepted (c.apply uuid r now).2 = true) (hlater : now ≤ now')
    (hspawned : c'.inputs.spawnedAt = c.inputs.spawnedAt) (hfresh : r.freshPrompt c' = true) :
    (c'.apply uuid r now').1 ≠ c' := by
  cases r with
  | snapshot epoch seq s => cases hfresh
  | hook event p =>
    cases event with
    | stop => cases hfresh
    | stopFailure => cases hfresh
    | permissionRequest => cases hfresh
    | notification => cases hfresh
    | userPromptSubmit =>
      obtain ⟨t, ht⟩ := Option.isSome_iff_exists.mp (show p.observedAt.isSome = true from htimed)
      unfold StateCell.apply at h ⊢
      cases hbounds : (Report.hook .userPromptSubmit p).validateBounds with
      | error e =>
        rw [hbounds] at h
        cases h
      | ok u =>
        rw [hbounds] at h
        simp only [applyHook, ht, Option.getD_some] at h ⊢
        cases htime : validateTime (some t) (some now) with
        | error e =>
          rw [htime] at h
          cases h
        | ok u =>
          rw [htime] at h
          rw [validateTime_later hlater htime]
          simp only at h ⊢
          have hforeign : c'.foreignHook p t = c.foreignHook p t := by
            unfold foreignHook
            rw [hspawned]
          cases hours : c.foreignHook p t with
          | true =>
            rw [if_pos hours] at h
            cases h
          | false =>
            rw [if_neg (by simp [hours])] at h
            rw [if_neg (by simp [hforeign, hours])]
            cases hcheck : checkHook p now with
            | error e =>
              rw [hcheck] at h
              cases h
            | ok u =>
              rw [checkHook_later hlater hcheck]
              have hnew : newer (some t) c'.inputs.hooks.promptAt = true
                  ∧ (p.promptId.any fun id => id ∈ c'.promptIds) = false := by
                simpa [Report.freshPrompt, ht] using hfresh
              have hstale : c'.stalePrompt p t = false := by
                unfold stalePrompt
                rw [hnew.1, hnew.2]
                rfl
              simp only [applyEvent, applyPrompt]
              rw [if_neg (by simp [hstale])]
              intro hsame
              -- the prompt is not newer than itself
              have hprompt : c'.inputs.hooks.promptAt = some t := by
                rw [← hsame]
                simp only [keepBackground]
                split
                · split <;> rfl
                · rfl
              rw [hprompt] at hnew
              simp at hnew

/-- A report that was taken in changes nothing when it comes again, unless it is a prompt that
counts as new. -/
theorem apply_duplicate {now' : Time} {os : List Op} (htimed : r.timed = true)
    (h : accepted (c.apply uuid r now).2 = true) (hlater : now ≤ now') :
    let c' := os.foldl (StateCell.step uuid) (c.apply uuid r now).1
    (c'.apply uuid r now').1 = c' ↔ r.freshPrompt c' = false := by
  intro c'
  have hspawned : c'.inputs.spawnedAt = c.inputs.spawnedAt := run_spawnedAt.trans apply_apart.spawnedAt
  refine ⟨fun hsame => ?_, fun hstale => ?_⟩
  · by_contra hfresh
    exact apply_fresh htimed h hlater hspawned (by simpa using hfresh) hsame
  · refine apply_refused ?_
    by_contra hagain
    rw [apply_again htimed h run_past (by simpa using hagain)] at hstale
    cases hstale

/-! ## The counter -/

theorem new_turns {start : Time} {child : Option Nat} {os : List Op} :
    (os.foldl (StateCell.step uuid) (StateCell.new start child)).inputs.turnSeq ≤ u64Max :=
  (run_turns (Nat.zero_le _)).2

/-- The counter never falls, refused reports change nothing, and a report that was taken in changes
something again only where it is a prompt that counts as new. Starts without an input raise the
counter exactly when fewer starts were awaited, and the counter has room. -/
theorem turns_counted (uuid : String → Option String) (start : Time) (child : Option Nat)
    (before : List Op) :
    let c := before.foldl (StateCell.step uuid) (StateCell.new start child)
    (∀ o, c.inputs.turnSeq ≤ (c.step uuid o).inputs.turnSeq) ∧
      (∀ r now, accepted (c.apply uuid r now).2 = false → (c.apply uuid r now).1 = c) ∧
      (∀ r now now' (os : List Op), r.timed = true → accepted (c.apply uuid r now).2 = true → now ≤ now' →
        let c' := os.foldl (StateCell.step uuid) (c.apply uuid r now).1
        (c'.apply uuid r now').1 = c' ↔ r.freshPrompt c' = false) ∧
      ∀ os : List Op, (∀ o ∈ os, o.isInput = false) → 0 < startsOf uuid c os →
        (c.inputs.turnSeq < (os.foldl (StateCell.step uuid) c).inputs.turnSeq ↔
          c.pendingStarts < startsOf uuid c os ∧ c.inputs.turnSeq < u64Max) := by
  intro c
  have hc : c.inputs.turnSeq ≤ u64Max := new_turns
  refine ⟨fun o => (step_turns uuid o hc).1, fun r now h => apply_refused h,
    fun r now now' os htimed h hlater => apply_duplicate htimed h hlater, fun os hos _ => ?_⟩
  rw [(run_counts hc hos).turns]
  unfold satAdd
  omega

/-- A hook of an event at a time, and nothing else. -/
def plainHook (event : HookEvent) (t : Time) : Report :=
  .hook event ⟨some t, none, none, none, none, none, none, none, false, none, none, none, none, none,
    none, none⟩

/-- One turn, then an input that starts nothing, such as a key that closes a menu. -/
def keyPressed : List Op :=
  [.input 10, .report (plainHook .userPromptSubmit 11) 11, .input 12,
    .report (plainHook .stop 20) 20]

theorem turns_counted_sample :
    (keyPressed.foldl (StateCell.step some) (StateCell.new 0 none)).inputs.turnSeq <
        ([Op.report (plainHook .userPromptSubmit 30) 30,
          .report (plainHook .userPromptSubmit 40) 40].foldl (StateCell.step some)
            (keyPressed.foldl (StateCell.step some) (StateCell.new 0 none))).inputs.turnSeq :=
  ((turns_counted some 0 none keyPressed).2.2.2
    [.report (plainHook .userPromptSubmit 30) 30, .report (plainHook .userPromptSubmit 40) 40]
    (by simp [Op.isInput]) (by decide +kernel)).mpr (by decide +kernel)

/-- The key was counted as a turn; the next turn starts without an input, and is not counted: what
was noted about the menu of the turn before still shows. -/
theorem credit_hides_turn :
    let c := keyPressed.foldl (StateCell.step some) (StateCell.new 0 none)
    let marked := c.step some (.limitMenu (some ⟨.needsHuman, 20, 1, c.inputs.turnSeq⟩))
    let start := Op.report (plainHook .userPromptSubmit 30) 30
    start.starts some marked = 1 ∧ (marked.step some start).inputs.turnSeq = c.inputs.turnSeq ∧
      (derive (marked.step some start).inputs 31).detail.limitMenu = some "needs_human" := by
  decide +kernel

end Agent
