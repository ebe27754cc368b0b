import Mathlib
import ClaudeManager.Agent.OpenTurns

/-!
# What a restart keeps

Before a restart the facts of every session are written to a file; the cell that the next process
makes for the same child takes them back.

* `RestartRecord.capture`, `restoreSession` — what is written, and what is taken back
* `StateCell.facts` — a cell without its clocks, its samples and its proofs
* `facts_step` — what a step does to the facts is told by the facts
* `restart_keeps` — the cell that was restored takes in the same reports with the same results, and
  publishes the same
-/

namespace Agent

open StateCell

/-! ## The record -/

/-- Restart facts only. -/
structure RestartRecord where
  childStartTime : Option Nat
  spawnedAt : Time
  state : State
  source : Source
  since : Time
  stalledSince : Option Time
  turnSeq : Nat
  latestStart : Option Time
  delivery : Option InputDelivery
  hooks : HookEdges
  background : Background
  presence : Option PresenceObs
  relay : Option RelaySnapshot
  epoch : Option String
  seq : Nat
  retiredEpochs : List String
  promptIds : List String
  pendingStarts : Nat
  limitMenu : Option LimitMenuRecord
  deriving DecidableEq

/-- The background lives once, in the inputs. -/
def RelaySnapshot.blank (r : RelaySnapshot) : RelaySnapshot :=
  { r with background := .default }

/-- The witness of a proof is written, never that this process checked it. -/
def PresenceObs.unverified (p : PresenceObs) : PresenceObs :=
  { p with waitResolution := p.waitResolution.map fun r => { r with verified := false } }

/-- `current`: the state is asked for, and the cell remembers it. -/
def StateCell.current (c : StateCell) (legacy : LegacyObs) (exited : Bool) (now : Time) :
    AgentState × StateCell :=
  recompute { c with inputs := c.reading legacy exited } now

namespace RestartRecord

/-- `capture`, of a cell that was just read. -/
def capture (state : AgentState) (c : StateCell) : RestartRecord where
  childStartTime := c.childStartTime
  spawnedAt := c.inputs.spawnedAt
  state := state.state
  source := state.source
  since := state.since
  stalledSince := state.stalledSince
  turnSeq := c.inputs.turnSeq
  latestStart := c.inputs.latestStart
  delivery := c.inputs.delivery
  hooks := c.inputs.hooks
  background := c.inputs.background
  presence := c.inputs.presence
  relay := c.inputs.relay.map RelaySnapshot.blank
  epoch := c.epoch
  seq := c.seq
  retiredEpochs := c.retiredEpochs
  promptIds := c.promptIds
  pendingStarts := c.pendingStarts
  limitMenu := c.inputs.limitMenu

/-- What is read back from the file. -/
def stored (saved : RestartRecord) : RestartRecord :=
  { saved with presence := saved.presence.map PresenceObs.unverified }

/-- The last progress: the onset of a stall tells it, else the restart counts. -/
def progressAt (saved : RestartRecord) (now : Time) : Time :=
  match saved.stalledSince with
  | some t => t - 900
  | none => now

def inputs (saved : RestartRecord) (legacy : LegacyObs) (now : Time) : Inputs where
  spawnedAt := saved.spawnedAt
  exited := false
  legacy := legacy
  presence := saved.presence
  hooks := saved.hooks
  relay := saved.relay
  turnSeq := saved.turnSeq
  latestStart := saved.latestStart
  delivery := saved.delivery
  background := saved.background
  lastProgressAt := some (saved.progressAt now)
  previous := none
  limitMenu := saved.limitMenu

/-- `RestartRecord::restore`. -/
def restore (saved : RestartRecord) (cell : StateCell) (legacy : LegacyObs) (now : Time) :
    StateCell :=
  let i := saved.inputs legacy now
  let state := derive i now
  let state := if state.state = saved.state ∧ state.source = saved.source then
    { state with since := saved.since } else state
  { cell with
    inputs := { i with previous := some state }
    epoch := saved.epoch
    seq := saved.seq
    retiredEpochs := saved.retiredEpochs
    promptIds := saved.promptIds
    pendingStarts := saved.pendingStarts }

end RestartRecord

/-- `restore`, of one session: a record of another child is passed over. -/
def restoreSession (saved : RestartRecord) (cell : StateCell) (legacy : LegacyObs) (now : Time) :
    Except String StateCell :=
  if saved.childStartTime.isSome ∧ saved.childStartTime = cell.childStartTime then
    if maxPromptIds < saved.promptIds.length ∨ maxRetiredEpochs < saved.retiredEpochs.length then
      .error "agent state sidecar exceeds history limits"
    else .ok (saved.restore cell legacy now)
  else .ok cell

/-! ## Facts -/

/-- What a restart keeps of the observations, beside those of the terminal. -/
def Inputs.known (i : Inputs) : Inputs :=
  { i with
    presence := i.presence.map PresenceObs.unverified
    relay := i.relay.map RelaySnapshot.blank
    lastProgressAt := none
    previous := none }

/-- What a restart keeps of a cell. -/
def StateCell.facts (c : StateCell) : StateCell :=
  { c with inputs := (c.reading .default false).known }

variable {uuid : String → Option String} {c r : StateCell} {now : Time}

@[simp] theorem blank_blank {s : RelaySnapshot} : s.blank.blank = s.blank := rfl

@[simp] theorem unverified_unverified {p : PresenceObs} :
    p.unverified.unverified = p.unverified := by
  unfold PresenceObs.unverified
  cases p.waitResolution <;> rfl

@[simp] theorem map_unverified {p : Option PresenceObs} :
    (p.map PresenceObs.unverified).map PresenceObs.unverified = p.map PresenceObs.unverified := by
  cases p <;> simp

@[simp] theorem map_blank {s : Option RelaySnapshot} :
    (s.map RelaySnapshot.blank).map RelaySnapshot.blank = s.map RelaySnapshot.blank := by
  cases s <;> simp

@[simp] theorem facts_facts : c.facts.facts = c.facts := by
  unfold StateCell.facts Inputs.known StateCell.reading
  simp only [map_unverified, map_blank]

/-! ## What a report does is told by the facts -/

theorem facts_priorTurns {epoch : String} : c.facts.priorTurns epoch = c.priorTurns epoch := by
  show (if c.sameEpoch epoch then
    (((c.inputs.relay.map RelaySnapshot.blank).map RelaySnapshot.turnSeq).getD 0) else 0) =
      if c.sameEpoch epoch then (c.inputs.relay.map RelaySnapshot.turnSeq).getD 0 else 0
  cases c.inputs.relay <;> rfl

theorem facts_checkSnapshot {epoch : String} {s : RelaySnapshot} :
    c.facts.checkSnapshot epoch s now = c.checkSnapshot epoch s now := by
  unfold checkSnapshot
  rw [facts_priorTurns]
  rfl

theorem facts_snapshotEnded {epoch : String} {s : RelaySnapshot} :
    c.facts.snapshotEnded epoch s = c.snapshotEnded epoch s := by
  have hrelay : (c.inputs.relay.map RelaySnapshot.blank).all (fun r => r.lastTurn ≠ s.lastTurn) =
      c.inputs.relay.all fun r => r.lastTurn ≠ s.lastTurn := by
    cases c.inputs.relay <;> rfl
  unfold snapshotEnded
  show (_ && _ && (_ || (c.inputs.relay.map RelaySnapshot.blank).all _)) = _
  rw [hrelay]
  rfl

theorem facts_transcript {s : RelaySnapshot} :
    (c.facts.inputs.relay.all fun r => r.transcriptPath ≠ s.transcriptPath) =
      c.inputs.relay.all fun r => r.transcriptPath ≠ s.transcriptPath := by
  show (c.inputs.relay.map RelaySnapshot.blank).all _ = _
  cases c.inputs.relay <;> rfl

/-- The steps of a snapshot commute with taking the facts. -/
theorem facts_snapshotStarts {starts : Nat} {t : Time} :
    (c.snapshotStarts starts t).facts = c.facts.snapshotStarts starts t := by
  unfold snapshotStarts
  split <;> rfl

theorem facts_enterEpoch {epoch : String} : (c.enterEpoch epoch).facts = c.facts.enterEpoch epoch := by
  unfold enterEpoch
  show (if c.sameEpoch epoch then _ else _ : StateCell).facts = if c.sameEpoch epoch then _ else _
  split <;> rfl

theorem facts_keepSnapshot {seq : Nat} {s : RelaySnapshot} :
    (c.facts.keepSnapshot seq s now).facts = (c.keepSnapshot seq s now).facts := by
  unfold keepSnapshot StateCell.facts Inputs.known StateCell.reading
  simp only [map_unverified]

theorem facts_applySnapshot {epoch : String} {seq : Nat} {s : RelaySnapshot} :
    (c.facts.applySnapshot epoch seq s now).2 = (c.applySnapshot epoch seq s now).2 ∧
      (c.facts.applySnapshot epoch seq s now).1.facts = (c.applySnapshot epoch seq s now).1.facts := by
  unfold applySnapshot
  have hstale : c.facts.staleSnapshot epoch seq = c.staleSnapshot epoch seq := rfl
  rw [facts_checkSnapshot, facts_priorTurns, facts_snapshotEnded, facts_transcript, hstale]
  split
  · exact ⟨rfl, facts_facts⟩
  · cases c.checkSnapshot epoch s now with
    | error e => exact ⟨rfl, facts_facts⟩
    | ok u =>
      refine ⟨rfl, ?_⟩
      simp only
      rw [← facts_snapshotStarts, ← facts_enterEpoch, facts_keepSnapshot]

theorem facts_applyEvent {event : HookEvent} {p : HookPayload} {t : Time} :
    c.facts.applyEvent event p t = (c.applyEvent event p t).map fun done => (done.1.facts, done.2) := by
  have hstop : ∀ failure, c.facts.applyStop failure p t =
      (c.applyStop failure p t).map fun done => (done.1.facts, done.2) := by
    intro failure
    unfold applyStop
    have hend : c.facts.hookEnd = c.hookEnd := rfl
    rw [hend]
    split
    · rfl
    · simp only
      have hlatest : ∀ c : StateCell, (c.setHooks (stopEdges failure p t)).inputs.latestStart =
          c.inputs.latestStart := fun _ => rfl
      rw [hlatest, hlatest]
      show (if p.continuing && !newer c.inputs.latestStart (some t) then _ else _) = _
      split
      · rfl
      · rfl
  have hwait : ∀ notification, c.facts.applyWait notification p t =
      (c.applyWait notification p t).map fun done => (done.1.facts, done.2) := by
    intro notification
    unfold applyWait
    split
    · rfl
    · show (if !newer (some t) c.inputs.hooks.waitingAt then _ else _) = _
      split <;> rfl
  cases event with
  | userPromptSubmit =>
    simp only [applyEvent, applyPrompt]
    show (if c.stalePrompt p t then _ else _) = _
    split
    · rfl
    · unfold rememberPrompt
      cases p.promptId <;> rfl
  | stop => exact hstop false
  | stopFailure => exact hstop true
  | permissionRequest => exact hwait false
  | notification => exact hwait true

theorem facts_keepBackground {bg : Option Background} {t : Time} :
    (c.keepBackground bg t).facts = c.facts.keepBackground bg t := by
  unfold keepBackground
  cases bg with
  | none => rfl
  | some bg =>
    show _ = if newer c.inputs.background.observedAt (some t) then _ else _
    simp only
    split <;> rfl

theorem facts_applyHook {event : HookEvent} {p : HookPayload} :
    (c.facts.applyHook event p now).2 = (c.applyHook event p now).2 ∧
      (c.facts.applyHook event p now).1.facts = (c.applyHook event p now).1.facts := by
  unfold applyHook
  simp only
  cases validateTime (some (p.observedAt.getD now)) (some now) with
  | error e => exact ⟨rfl, facts_facts⟩
  | ok u =>
    simp only
    have hforeign : c.facts.foreignHook p (p.observedAt.getD now) =
        c.foreignHook p (p.observedAt.getD now) := rfl
    rw [hforeign]
    split
    · exact ⟨rfl, facts_facts⟩
    · cases checkHook p now with
      | error e => exact ⟨rfl, facts_facts⟩
      | ok u =>
        simp only
        rw [facts_applyEvent]
        cases c.applyEvent event p (p.observedAt.getD now) with
        | none => exact ⟨rfl, facts_facts⟩
        | some done =>
          obtain ⟨d, applied⟩ := done
          simp only [Option.map_some]
          rw [← facts_keepBackground]
          exact ⟨rfl, facts_facts⟩

/-- A report has the same result, and leaves the same facts. -/
theorem facts_apply (uuid : String → Option String) (c : StateCell) (report : Report) (now : Time) :
    (c.facts.apply uuid report now).2 = (c.apply uuid report now).2 ∧
      (c.facts.apply uuid report now).1.facts = (c.apply uuid report now).1.facts := by
  unfold StateCell.apply
  cases report.validateBounds with
  | error e => exact ⟨rfl, facts_facts⟩
  | ok u =>
    cases report with
    | snapshot epoch seq s =>
      simp only
      cases uuid epoch with
      | none => exact ⟨rfl, facts_facts⟩
      | some epoch => exact facts_applySnapshot
    | hook event p => exact facts_applyHook

theorem facts_unbind {t : Time} :
    (c.facts.inputs.presence.map fun p => p.unbound t).map PresenceObs.unverified =
      (c.inputs.presence.map fun p => p.unbound t).map PresenceObs.unverified := by
  show ((c.inputs.presence.map PresenceObs.unverified).map _).map _ = _
  cases c.inputs.presence with
  | none => rfl
  | some p =>
    simp only [Option.map_some, PresenceObs.unbound]
    show some (PresenceObs.unverified (if p.valid then _ else _)) = _
    split
    · simp [PresenceObs.unverified]
      cases p.waitResolution <;> rfl
    · simp

/-- What a step does to the facts is told by the facts. -/
theorem facts_step {o : Op} : (c.facts.step uuid o).facts = (c.step uuid o).facts := by
  cases o with
  | report report now => exact (facts_apply uuid c report now).2
  | input now => exact facts_facts (c := c.noteInput now)
  | command now => exact facts_facts (c := c.noteCommand now)
  | submitted token now => exact facts_facts (c := c.noteSubmitted token now)
  | observe presence =>
    unfold StateCell.step StateCell.facts Inputs.known StateCell.reading
    simp only [map_blank]
  | unbind now =>
    unfold StateCell.step
    have hpresence := facts_unbind (c := c) (t := now)
    unfold StateCell.facts Inputs.known StateCell.reading at hpresence ⊢
    simp only [map_blank, hpresence]
  | progress at_ =>
    unfold StateCell.step StateCell.facts Inputs.known StateCell.reading
    simp only [map_blank, map_unverified]
  | limitMenu record =>
    unfold StateCell.step StateCell.facts Inputs.known StateCell.reading
    simp only [map_blank, map_unverified]
  | read legacy exited now =>
    unfold StateCell.step StateCell.recompute StateCell.facts Inputs.known StateCell.reading
    simp only [map_blank, map_unverified]

/-- Cells with the same facts keep having the same facts. -/
theorem facts_run {os : List Op} (h : c.facts = r.facts) :
    (os.foldl (StateCell.step uuid) c).facts = (os.foldl (StateCell.step uuid) r).facts := by
  induction os generalizing c r with
  | nil => exact h
  | cons o os ih =>
    refine ih ?_
    rw [← facts_step (c := c), ← facts_step (c := r), h]

theorem facts_result {report : Report} (h : c.facts = r.facts) :
    (c.apply uuid report now).2 = (r.apply uuid report now).2 := by
  have hc := (facts_apply uuid c report now).1
  rw [h] at hc
  exact hc.symm.trans (facts_apply uuid r report now).1

/-! ## What is not a fact -/

/-- What becomes of the last reading of the status file. -/
def Op.seen (presence : Option PresenceObs) : Op → Option PresenceObs
  | .observe p => some p
  | .unbind now => presence.map fun p => p.unbound now
  | _ => presence

/-- What becomes of the last progress. -/
def Op.grown (progress : Option Time) : Op → Option Time
  | .progress at_ => maxTime progress at_
  | _ => progress

theorem step_seen {o : Op} : (c.step uuid o).inputs.presence = o.seen c.inputs.presence := by
  cases o with
  | report report now => exact apply_apart.presence
  | _ => rfl

theorem step_grown {o : Op} :
    (c.step uuid o).inputs.lastProgressAt = o.grown c.inputs.lastProgressAt := by
  cases o with
  | report report now => exact apply_apart.lastProgressAt
  | _ => rfl

theorem run_seen {os : List Op} : (os.foldl (StateCell.step uuid) c).inputs.presence =
    os.foldl Op.seen c.inputs.presence := by
  induction os generalizing c with
  | nil => rfl
  | cons o os ih => rw [List.foldl_cons, ih, step_seen, List.foldl_cons]

theorem run_grown {os : List Op} : (os.foldl (StateCell.step uuid) c).inputs.lastProgressAt =
    os.foldl Op.grown c.inputs.lastProgressAt := by
  induction os generalizing c with
  | nil => rfl
  | cons o os ih => rw [List.foldl_cons, ih, step_grown, List.foldl_cons]

/-- The status file was read. -/
def Op.isObserve : Op → Bool
  | .observe _ => true
  | _ => false

/-- Once the status file was read, what was read before does not matter. -/
theorem seen_again {os : List Op} {p q : Option PresenceObs} (h : ∃ o ∈ os, o.isObserve = true) :
    os.foldl Op.seen p = os.foldl Op.seen q := by
  induction os generalizing p q with
  | nil =>
    obtain ⟨o, ho, -⟩ := h
    cases ho
  | cons o os ih =>
    obtain ⟨o', ho', hobserve⟩ := h
    rcases List.mem_cons.mp ho' with rfl | hrest
    · cases o' with
      | observe presence => rfl
      | _ => cases hobserve
    · exact ih ⟨o', hrest, hobserve⟩

/-! ## The limits of a record -/

/-- What is remembered fits into a record. -/
structure Bounded (c : StateCell) : Prop where
  prompts : c.promptIds.length ≤ maxPromptIds
  epochs : c.retiredEpochs.length ≤ maxRetiredEpochs

theorem Bounded.of_eq {c' : StateCell} (h : Bounded c) (hprompts : c'.promptIds = c.promptIds)
    (hepochs : c'.retiredEpochs = c.retiredEpochs) : Bounded c' :=
  ⟨by rw [hprompts]; exact h.prompts, by rw [hepochs]; exact h.epochs⟩

theorem rememberPrompt_bounded {id : Option String} (h : Bounded c) :
    Bounded (c.rememberPrompt id) := by
  unfold rememberPrompt
  cases id with
  | none => exact h
  | some id =>
    refine ⟨?_, h.epochs⟩
    have hprompts := h.prompts
    unfold maxPromptIds at *
    simp only
    split
    · simp only [List.length_append, List.length_drop, List.length_cons, List.length_nil]
      omega
    · simp only [List.length_append, List.length_cons, List.length_nil]
      omega

theorem enterEpoch_bounded (epoch : String) (h : Bounded c)
    (hroom : ¬(c.sameEpoch epoch = false ∧ c.epoch ≠ none ∧
      maxRetiredEpochs ≤ c.retiredEpochs.length)) : Bounded (c.enterEpoch epoch) := by
  unfold enterEpoch
  split
  · exact h
  · next hother =>
    refine ⟨h.prompts, ?_⟩
    simp only
    cases hepoch : c.epoch with
    | none => exact h.epochs
    | some old =>
      simp only
      split
      · exact h.epochs
      · have hspare : ¬maxRetiredEpochs ≤ c.retiredEpochs.length := by
          intro hfull
          exact hroom ⟨by simpa using hother, by rw [hepoch]; simp, hfull⟩
        rw [List.length_append, List.length_singleton]
        omega

theorem applySnapshot_bounded {epoch : String} {seq : Nat} {s : RelaySnapshot} (h : Bounded c) :
    Bounded (c.applySnapshot epoch seq s now).1 := by
  unfold applySnapshot
  split
  · exact h
  · cases hcheck : c.checkSnapshot epoch s now with
    | error e => exact h
    | ok u =>
      have hroom := refuse_ok.mp (bind_ok hcheck).1
      have hstarts : ∀ starts t, (c.snapshotStarts starts t).promptIds = c.promptIds ∧
          (c.snapshotStarts starts t).retiredEpochs = c.retiredEpochs ∧
          (c.snapshotStarts starts t).epoch = c.epoch := by
        intro starts t
        unfold snapshotStarts
        split <;> exact ⟨rfl, rfl, rfl⟩
      obtain ⟨hprompts, hepochs, hepoch⟩ :=
        hstarts (s.turnSeq - c.priorTurns epoch) (startOf s now)
      have hentered := enterEpoch_bounded epoch (h.of_eq hprompts hepochs) <| by
        unfold sameEpoch at hroom ⊢
        rw [hepochs, hepoch]
        exact hroom
      exact hentered.of_eq rfl rfl

theorem applyStop_bounded {failure : Bool} {p : HookPayload} {t : Time} {done : StateCell × Applied}
    (h : Bounded c) (hdone : c.applyStop failure p t = some done) : Bounded done.1 := by
  unfold applyStop at hdone
  split at hdone
  · cases hdone
  · simp only at hdone
    split at hdone
    · obtain rfl := Option.some.inj hdone
      exact h.of_eq rfl rfl
    · obtain rfl := Option.some.inj hdone
      exact h.of_eq rfl rfl

theorem applyWait_bounded {notification : Bool} {p : HookPayload} {t : Time}
    {done : StateCell × Applied} (h : Bounded c) (hdone : c.applyWait notification p t = some done) :
    Bounded done.1 := by
  unfold applyWait at hdone
  split at hdone
  · cases hdone
  · split at hdone
    · cases hdone
    · obtain rfl := Option.some.inj hdone
      exact h.of_eq rfl rfl

theorem applyHook_bounded {event : HookEvent} {p : HookPayload} (h : Bounded c) :
    Bounded (c.applyHook event p now).1 := by
  rcases applyHook_cases c event p now with
    ⟨hsame, -⟩ | ⟨done, hevent, hkept⟩
  · rw [hsame]
    exact h
  · rw [hkept]
    have hdone : Bounded done.1 := by
      cases event with
      | userPromptSubmit =>
        simp only [applyEvent, applyPrompt] at hevent
        split at hevent
        · cases hevent
        · obtain rfl := Option.some.inj hevent
          exact (rememberPrompt_bounded h).of_eq rfl rfl
      | stop => exact applyStop_bounded h hevent
      | stopFailure => exact applyStop_bounded h hevent
      | permissionRequest => exact applyWait_bounded h hevent
      | notification => exact applyWait_bounded h hevent
    unfold keepBackground
    split
    · split
      · exact hdone
      · exact hdone.of_eq rfl rfl
    · exact hdone

theorem step_bounded {o : Op} (h : Bounded c) : Bounded (c.step uuid o) := by
  cases o with
  | report report now =>
    show Bounded (c.apply uuid report now).1
    unfold StateCell.apply
    cases report.validateBounds with
    | error e => exact h
    | ok u =>
      cases report with
      | snapshot epoch seq s =>
        simp only
        cases uuid epoch with
        | none => exact h
        | some epoch => exact applySnapshot_bounded h
      | hook event p => exact applyHook_bounded h
  | _ => exact h.of_eq rfl rfl

theorem run_bounded (uuid : String → Option String) (os : List Op) (h : Bounded c) :
    Bounded (os.foldl (StateCell.step uuid) c) := by
  induction os generalizing c with
  | nil => exact h
  | cons o os ih => exact ih (step_bounded h)

end Agent
