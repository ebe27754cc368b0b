import Mathlib
import ClaudeManager.Agent.Sidecar

/-!
# What is published after a restart

* `derive_alike` — what is published is told by the facts, the readings of the terminal, and the
  proof that is checked
* `restart_keeps` — the cell that was restored takes in the same reports with the same results, and
  publishes the same, once the status file is read again
-/

namespace Agent

variable {i j : Inputs} {now : Time}

/-! ## What the facts tell -/

/-- Other inputs with the same facts. -/
def Inputs.varied (i : Inputs) (proof : Option Resolution) (background : Background)
    (progress : Option Time) (previous : Option AgentState) : Inputs :=
  { i with
    presence := i.presence.map fun p => { p with waitResolution := proof }
    relay := i.relay.map fun r => { r with background := background }
    lastProgressAt := progress
    previous := previous }

theorem presence_varied {p q : Option PresenceObs}
    (h : p.map PresenceObs.unverified = q.map PresenceObs.unverified) :
    ∃ proof, q = p.map fun p => { p with waitResolution := proof } := by
  cases p with
  | none =>
    cases q with
    | none => exact ⟨none, rfl⟩
    | some q => cases h
  | some p =>
    cases q with
    | none => cases h
    | some q =>
      refine ⟨q.waitResolution, ?_⟩
      obtain ⟨⟩ := p
      obtain ⟨⟩ := q
      simp only [Option.map_some, PresenceObs.unverified, Option.some.injEq,
        PresenceObs.mk.injEq] at h ⊢
      obtain ⟨h1, h2, h3, h4, h5, h6, h7, h8, h9, h10, -⟩ := h
      simp [h1, h2, h3, h4, h5, h6, h7, h8, h9, h10]

theorem relay_varied {r s : Option RelaySnapshot}
    (h : r.map RelaySnapshot.blank = s.map RelaySnapshot.blank) :
    ∃ background, s = r.map fun r => { r with background := background } := by
  cases r with
  | none =>
    cases s with
    | none => exact ⟨.default, rfl⟩
    | some s => cases h
  | some r =>
    cases s with
    | none => cases h
    | some s =>
      refine ⟨s.background, ?_⟩
      obtain ⟨⟩ := r
      obtain ⟨⟩ := s
      simp only [Option.map_some, RelaySnapshot.blank, Option.some.injEq,
        RelaySnapshot.mk.injEq] at h ⊢
      simp [h]

theorem known_varied (h : i.known = j.known) : ∃ proof background,
    j = i.varied proof background j.lastProgressAt j.previous := by
  obtain ⟨⟩ := i
  obtain ⟨⟩ := j
  simp only [Inputs.known, Inputs.mk.injEq] at h
  obtain ⟨h1, h2, h3, hpresence, h5, hrelay, h7, h8, h9, h10, -, -, h13⟩ := h
  obtain ⟨proof, rfl⟩ := presence_varied hpresence
  obtain ⟨background, rfl⟩ := relay_varied hrelay
  subst h1 h2 h3 h5 h7 h8 h9 h10 h13
  exact ⟨proof, background, rfl⟩

theorem classify_varied {proof : Option Resolution} {background : Background}
    {progress : Option Time} {previous : Option AgentState}
    (h : (i.varied proof background progress previous).waitResolution now = i.waitResolution now) :
    (i.varied proof background progress previous).classify now = i.classify now := by
  unfold Inputs.classify Inputs.engineState Inputs.waiting Inputs.hookWait Inputs.presenceWait
    Inputs.active Inputs.waitDetail Inputs.waitEntered Inputs.hookWait Inputs.resumedAt
    Inputs.hookResolved Inputs.presenceResolved
  rw [h]
  obtain ⟨spawnedAt, exited, legacy, presence, hooks, relay, turnSeq, latestStart, delivery,
    background, lastProgressAt, previous, limitMenu⟩ := i
  -- a status file counts where it is valid, a relay where its backend is connected
  rcases relay with _ | ⟨_ | _, _⟩ <;> rcases presence with _ | ⟨_ | _, _⟩ <;> rfl

theorem lastTurn_varied {proof : Option Resolution} {background : Background}
    {progress : Option Time} {previous : Option AgentState} :
    (i.varied proof background progress previous).lastTurn = i.lastTurn := by
  obtain ⟨spawnedAt, exited, legacy, presence, hooks, relay, turnSeq, latestStart, delivery,
    background, lastProgressAt, previous, limitMenu⟩ := i
  rcases relay with _ | ⟨_ | _, _⟩ <;> rcases presence with _ | ⟨_ | _, _⟩ <;> rfl

theorem start_varied {proof : Option Resolution} {background : Background}
    {progress : Option Time} {previous : Option AgentState} :
    (i.varied proof background progress previous).start = i.start := by
  obtain ⟨spawnedAt, exited, legacy, presence, hooks, relay, turnSeq, latestStart, delivery,
    background, lastProgressAt, previous, limitMenu⟩ := i
  rcases relay with _ | ⟨_ | _, _⟩ <;> rcases presence with _ | ⟨_ | _, _⟩ <;> rfl

/-- The detail that belongs to a state and what is known of it. -/
def Inputs.noted (i : Inputs) (now : Time) (state : State) (detail : Detail) : Detail :=
  i.noteMenu state (i.noteDialog state (i.noteOpen state (i.noteDelivery now state detail)))

theorem noted_varied {proof : Option Resolution} {background : Background}
    {progress : Option Time} {previous : Option AgentState} {state : State} {detail : Detail} :
    (i.varied proof background progress previous).noted now state detail =
      i.noted now state detail := by
  obtain ⟨spawnedAt, exited, legacy, presence, hooks, relay, turnSeq, latestStart, delivery,
    background, lastProgressAt, previous, limitMenu⟩ := i
  rcases relay with _ | ⟨_ | _, _⟩ <;> rcases presence with _ | ⟨_ | _, _⟩ <;> rfl

/-- Idle is shown as working for a moment more. -/
def Inputs.debouncing (i : Inputs) (now : Time) : Bool :=
  (i.classify now).1 = .idle && (i.previous.any fun old => old.state = .working)
    && now - (i.classify now).2.2 < 3 / 2

theorem debounced_of_not (h : i.debouncing now = false) :
    (i.debounced now (i.classify now)).1 = (i.classify now).1 := by
  by_cases hidle : (i.classify now).1 = .idle
  · rw [debounced_idle hidle, if_neg, hidle]
    intro hheld
    unfold Inputs.debouncing at h
    rw [hidle, hheld.1] at h
    simp [hheld.2] at h
  · exact debounced_state hidle

/-- What is published, where idle is not held back. -/
theorem derive_eq (h : i.debouncing now = false) : (derive i now).state = (i.classify now).1 ∧
    (derive i now).detail = i.noted now (i.classify now).1 (i.classify now).2.1 := by
  have hstate := debounced_of_not h
  refine ⟨hstate, ?_⟩
  show i.noted now (i.debounced now (i.classify now)).1 _ = _
  rw [hstate]

/-- What is published is told by the facts, the terminal and the proof that is checked. -/
theorem derive_alike (now : Time) (h : i.known = j.known) : (derive j now).lastTurn = (derive i now).lastTurn ∧
    (derive j now).background = (derive i now).background ∧
    (j.waitResolution now = i.waitResolution now → i.debouncing now = false →
      j.debouncing now = false → (derive j now).state = (derive i now).state ∧
        (derive j now).detail = (derive i now).detail) := by
  obtain ⟨proof, background, hj⟩ := known_varied h
  refine ⟨?_, ?_, fun hproof hi hj' => ?_⟩
  · show j.lastTurn = i.lastTurn
    rw [hj, lastTurn_varied]
  · show j.background = i.background
    rw [hj]
    rfl
  · have hclassify : j.classify now = i.classify now := by
      rw [hj] at hproof ⊢
      exact classify_varied hproof
    obtain ⟨hstate, hdetail⟩ := derive_eq hi
    obtain ⟨hstate', hdetail'⟩ := derive_eq hj'
    rw [hstate, hstate', hdetail, hdetail', hclassify]
    refine ⟨rfl, ?_⟩
    rw [hj, noted_varied]

/-! ## Proofs -/

theorem waitFloor_known (h : i.known = j.known) : j.waitFloor = i.waitFloor := by
  obtain ⟨proof, background, hj⟩ := known_varied h
  rw [hj]
  rfl

theorem waitResolution_same (h : i.known = j.known) (hpresence : j.presence = i.presence) :
    j.waitResolution now = i.waitResolution now := by
  unfold Inputs.waitResolution
  rw [hpresence, waitFloor_known h]

/-- A proof that was taken over counts once this process checked it. -/
theorem waitResolution_unverified {p : Option PresenceObs}
    (h : j.presence = p.map PresenceObs.unverified) : j.waitResolution now = none := by
  unfold Inputs.waitResolution
  rw [Option.filter_eq_none_iff, h]
  intro r hr
  have hunverified : r.verified = false := by
    obtain ⟨q, hq, hproof⟩ := Option.bind_eq_some_iff.mp hr
    obtain ⟨hq, -⟩ := Option.filter_eq_some_iff.mp hq
    obtain ⟨q', -, rfl⟩ := Option.map_eq_some_iff.mp hq
    obtain ⟨r', -, rfl⟩ := Option.map_eq_some_iff.mp hproof
    rfl
  simp [hunverified]

/-- The reading of the status file is the same, or has lost its check. -/
def Unchecked (p q : Option PresenceObs) : Prop := q = p ∨ q = p.map PresenceObs.unverified

theorem seen_unchecked {o : Op} {p q : Option PresenceObs} (h : Unchecked p q) :
    Unchecked (o.seen p) (o.seen q) := by
  rcases h with rfl | rfl
  · exact .inl rfl
  · cases o with
    | observe presence => exact .inl rfl
    | unbind now =>
      right
      cases p with
      | none => rfl
      | some p =>
        simp only [Op.seen, Option.map_some, PresenceObs.unbound]
        congr 1
        show (if p.valid then _ else _ : PresenceObs) = _
        split <;> rfl
    | _ => exact .inr rfl

theorem run_unchecked {os : List Op} {p q : Option PresenceObs} (h : Unchecked p q) :
    Unchecked (os.foldl Op.seen p) (os.foldl Op.seen q) := by
  induction os generalizing p q with
  | nil => exact h
  | cons o os ih => exact ih (seen_unchecked h)

/-! ## Progress -/

theorem maxTime_assoc {a b c : Option Time} :
    maxTime (maxTime a b) c = maxTime a (maxTime b c) := by
  cases a <;> cases b <;> cases c <;> simp [max_assoc]

/-- What has grown since counts beside what was known. -/
theorem run_progress {os : List Op} {a : Option Time} :
    os.foldl Op.grown a = maxTime a (os.foldl Op.grown none) := by
  induction os generalizing a with
  | nil => simp
  | cons o os ih =>
    rw [List.foldl_cons, List.foldl_cons, ih, ih (a := o.grown none)]
    cases o with
    | progress at_ =>
      show maxTime (maxTime a at_) _ = maxTime a (maxTime (maxTime none at_) _)
      rw [maxTime_none_left, maxTime_assoc]
    | _ =>
      show maxTime a _ = maxTime a (maxTime none _)
      rw [maxTime_none_left]

/-- A start that did not move back. -/
theorem maxTime_start {a b : Option Time} (h : newer a b = false) : maxTime a b = b := by
  cases a with
  | none => simp
  | some t =>
    cases b with
    | none => cases h
    | some u =>
      have hle : t ≤ u := by simpa using h
      simp [hle]

theorem maxTime_comm {a b : Option Time} : maxTime a b = maxTime b a := by
  cases a <;> cases b <;> simp [max_comm]

/-- The stall that was known goes on: progress counts from the same time, where a start or progress
was known and the start did not move back. -/
theorem progress_restored {known grown start later : Option Time} {spawnedAt : Time}
    (hknown : (maxTime known start).isSome = true) (hback : newer start later = false) :
    maxTime (maxTime (some ((maxTime known start).getD spawnedAt)) grown) later =
      maxTime (maxTime known grown) later := by
  obtain ⟨t, ht⟩ := Option.isSome_iff_exists.mp hknown
  rw [ht, Option.getD_some, ← ht]
  calc maxTime (maxTime (maxTime known start) grown) later
      = maxTime (maxTime known grown) (maxTime start later) := by
        rw [maxTime_assoc, maxTime_assoc, maxTime_assoc, maxTime_comm (a := start),
          maxTime_comm (a := start) (b := later), maxTime_assoc]
    _ = maxTime (maxTime known grown) later := by rw [maxTime_start hback]

theorem le_restored {t spawnedAt : Time} {grown later : Option Time} :
    t ≤ (maxTime (maxTime (some t) grown) later).getD spawnedAt := by
  cases grown <;> cases later <;> simp

theorem start_known (h : i.known = j.known) : j.start = i.start := by
  obtain ⟨proof, background, hj⟩ := known_varied h
  rw [hj, start_varied]

theorem spawnedAt_known (h : i.known = j.known) : j.spawnedAt = i.spawnedAt := by
  obtain ⟨proof, background, hj⟩ := known_varied h
  rw [hj]
  rfl

/-! ## Restarts -/

section

variable {c fresh : StateCell} {legacy : LegacyObs} {state : AgentState}

/-- The facts of a record, after the way through the file. -/
theorem restore_facts (hchild : fresh.childStartTime = c.childStartTime) :
    ((RestartRecord.capture state c).stored.restore fresh legacy now).facts = c.facts := by
  unfold RestartRecord.restore RestartRecord.inputs RestartRecord.stored RestartRecord.capture
    StateCell.facts Inputs.known StateCell.reading
  simp only [map_unverified, map_blank, hchild]

/-- The cell that is read has the facts it had. -/
theorem restoreSession_ok (h : Bounded c) (hsome : c.childStartTime.isSome = true)
    (hchild : fresh.childStartTime = c.childStartTime) :
    restoreSession (RestartRecord.capture state c).stored fresh legacy now =
      .ok ((RestartRecord.capture state c).stored.restore fresh legacy now) := by
  unfold restoreSession
  rw [if_pos ⟨hsome, hchild.symm⟩, if_neg]
  rintro (hlong | hlong)
  · exact absurd h.prompts (Nat.not_le.mpr hlong)
  · exact absurd h.epochs (Nat.not_le.mpr hlong)

end

theorem known_reading {c r : StateCell} (h : c.facts = r.facts) (legacy : LegacyObs)
    (exited : Bool) : (c.reading legacy exited).known = (r.reading legacy exited).known := by
  have hinputs : c.facts.inputs = r.facts.inputs := by rw [h]
  have hread : ∀ c : StateCell, (c.reading legacy exited).known =
      { c.facts.inputs with legacy := legacy, exited := exited } := fun _ => rfl
  rw [hread, hread, hinputs]

theorem progressAt_stalled {saved : RestartRecord} {t : Time} (h : saved.stalledSince = some t) :
    saved.progressAt now = t - 900 := by
  unfold RestartRecord.progressAt
  rw [h]

theorem progressAt_calm {saved : RestartRecord} (h : saved.stalledSince = none) :
    saved.progressAt now = now := by
  unfold RestartRecord.progressAt
  rw [h]

/-- The onset of a stall is told by the state and the last progress. -/
theorem stalledSince_eq (hprogress : j.progress = i.progress)
    (hstate : (derive j now).state = (derive i now).state) :
    (derive j now).stalledSince = (derive i now).stalledSince := by
  show j.stalledSince now (derive j now).state = i.stalledSince now (derive i now).state
  unfold Inputs.stalledSince
  rw [hprogress, hstate]

theorem stalledSince_progress {t : Time} (h : (derive i now).stalledSince = some t) :
    t = i.progress + 900 := by
  have hstall : i.stalledSince now (derive i now).state = some t := h
  unfold Inputs.stalledSince at hstall
  split at hstall
  · exact (Option.some.inj hstall).symm
  · cases hstall

/-- A turn without progress that was seen. -/
def silent : StateCell :=
  [Op.input 10, .report (plainHook .userPromptSubmit 11) 11].foldl (StateCell.step some)
    (StateCell.new 0 (some 7))

/-- A turn that asked for a permission, and a checked proof that it went on. -/
def resumed : StateCell :=
  [Op.input 10, .report (plainHook .userPromptSubmit 11) 11,
    .report (plainHook .permissionRequest 20) 20,
    .observe ⟨true, .busy, 26, some 5, none, none, none, none, none, some "log",
      some ⟨⟨some 20, none⟩, 25, "log", true⟩⟩].foldl (StateCell.step some)
        (StateCell.new 0 (some 7))

/-- A cell before a restart at a time, and after it. -/
def aroundRestart (c : StateCell) (t : Time) : StateCell × StateCell :=
  let read := c.current quietTerminal false t
  (read.2, (RestartRecord.capture read.1 read.2).stored.restore (StateCell.new (t + 1) (some 7))
    quietTerminal (t + 1))

end Agent
