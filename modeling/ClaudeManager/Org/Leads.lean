import Mathlib
import ClaudeManager.Messaging.Mentions
import ClaudeManager.Org.Tables
import ClaudeManager.Program.Least
import ClaudeManager.Python.Integers
import ClaudeManager.Text.Trim

/-!
# Who leads a task

The rule is written twice: the daemon has `taskLead`, and the planning side `Planning.leadSession`.

* `sameLead_iff` — when the two name the same lead, whatever sessions of some are bound to the task
-/

namespace Org

open ClaudeManager Least

/-! ## The daemon -/

inductive Lead where
  | session (uid : String)
  | owner (standIn : Bool)
  | none
  deriving DecidableEq

structure LeadCandidate where
  uid : String
  engine : String
  live : Bool

/-- Sessions that may lead are agents. -/
def agentEngines : List String := ["claude", "claude-code", "codex"]

/-- A pin that names Owner. -/
def isOwnerPin (pinned : String) : Bool := eqIgnoreAsciiCase (trimmed pinned) ownerPid

def isAgentEngine (engine : String) : Bool :=
  agentEngines.any fun agent => (trimmed engine).toList.map Char.toLower = agent.toList

/-- The nanoseconds and the counter of `ts-<nanos>-<counter>`. -/
def spawnOf (uid : String) : Option (Nat × Nat) := do
  let rest ← stripPrefix? uid "ts-"
  let (nanos, counter) ← splitOnce rest '-'
  return (← Text.fromHex 128 nanos, ← Text.fromHex 64 counter)

/-- What cannot be read comes after what can. -/
def spawnOrder (uid : String) : Nat ×ₗ Nat ×ₗ Nat :=
  match spawnOf uid with
  | some (nanos, counter) => toLex (0, toLex (nanos, counter))
  | none => toLex (1, toLex (0, 0))

/-- The order of sessions: by spawn, then by uid. -/
def key (uid : String) : (Nat ×ₗ Nat ×ₗ Nat) ×ₗ String := toLex (spawnOrder uid, uid)

def leadSessionUid (pinned : Option String) (candidates : List LeadCandidate) : Option String :=
  let eligible := candidates.filter fun c => c.live && isAgentEngine c.engine
  let first := (eligible.argmin fun c => key c.uid).map LeadCandidate.uid
  match (pinned.map trimmed).filter (· ≠ "") with
  | some pin => if eligible.any fun c => c.uid = pin then some pin else first
  | none => first

/-- Owner stands in for a division root without a lead. -/
def taskLead (pinned : Option String) (candidates : List LeadCandidate) (divisionRoot : Bool) : Lead :=
  if pinned.any isOwnerPin then .owner false
  else match leadSessionUid pinned candidates with
    | some uid => .session uid
    | none => if divisionRoot then .owner true else .none

/-! ## The planning side -/

namespace Planning

open Python

/-- A session bound to the task. -/
structure SessionState where
  sessionUid : String
  engine : Option String

/-- What sessions are compared by: whether the uid is read, its numbers, and the uid itself. -/
def Key : Type := (Nat ×ₗ Int ×ₗ Int) ×ₗ String

instance : LinearOrder Key :=
  @Prod.Lex.instLinearOrder (Nat ×ₗ Int ×ₗ Int) String
    (@Prod.Lex.instLinearOrder Nat (Int ×ₗ Int) _
      (@Prod.Lex.instLinearOrder Int Int Int.instLinearOrder Int.instLinearOrder)) _

section

variable [Tables]

def spawnOf (uid : String) : Option (Int × Int) := do
  let (nanos, counter) ← match after "ts-" uid with
    | some rest => cut '-' rest
    | none => some ("", "")
  return (← int16 nanos, ← int16 counter)

def spawnOrder (uid : String) : Nat ×ₗ Int ×ₗ Int :=
  match spawnOf uid with
  | some (nanos, counter) => toLex (0, toLex (nanos, counter))
  | none => toLex (1, toLex (0, 0))

def key (uid : String) : Key := toLex (spawnOrder uid, uid)

end

section

variable [Casing]

def isAgentEngine (engine : String) : Bool := Casing.lower engine ∈ agentEngines

def isOwnerPin (pin : Option String) : Bool := Casing.lower (strip (orElse pin "")) = ownerPid

end

/-- The lead by its name, which is `owner` for Owner. -/
def leadSession [Tables] [Casing] (pin : Option String) (candidates : List SessionState) : Option String :=
  if isOwnerPin pin then some ownerPid
  else
    let pin := strip (orElse pin "")
    let eligible := candidates.filter fun c => isAgentEngine (orElse c.engine "")
    if pin ≠ "" ∧ eligible.any fun c => c.sessionUid = pin then some pin
    else (eligible.argmin fun c => key c.sessionUid).map SessionState.sessionUid

end Planning

/-! ## The first session by a key -/

section

variable {l : List LeadCandidate} {pinned : Option String}

theorem key_injective : Function.Injective key := fun _ _ h =>
  congrArg Prod.snd (toLex.injective h)

/-- The uid that is pinned for the daemon. -/
def pinnedUid (pinned : Option String) : Option String := (pinned.map trimmed).filter (· ≠ "")

theorem leadSessionUid_eq (pinned : Option String) (candidates : List LeadCandidate) :
    leadSessionUid pinned candidates =
      ((candidates.filter fun c => c.live && isAgentEngine c.engine).map LeadCandidate.uid).argmin
        (preferred (pinnedUid pinned) key) := by
  rw [argmin_preferred key_injective, ← map_argmin LeadCandidate.uid key_injective]
  unfold leadSessionUid pinnedUid
  cases (pinned.map trimmed).filter (· ≠ "") with
  | none => rfl
  | some pin =>
    have hany : ∀ l : List LeadCandidate,
        (l.any fun c => c.uid = pin) = decide (pin ∈ l.map LeadCandidate.uid) := by
      intro l
      rw [Bool.eq_iff_iff]
      simp
    simp only [hany, Option.any_some]
    rfl

namespace Planning

open Python

theorem key_injective [Tables] : Function.Injective key := fun _ _ h =>
  congrArg Prod.snd (toLex.injective h)

/-- The uid that is pinned for the planning side. -/
def pinnedUid (pin : Option String) : Option String :=
  (some (strip (orElse pin ""))).filter (· ≠ "")

theorem leadSession_eq [Tables] [Casing] {pin : Option String} (h : isOwnerPin pin = false)
    (candidates : List SessionState) :
    leadSession pin candidates =
      ((candidates.filter fun c => isAgentEngine (orElse c.engine "")).map
        SessionState.sessionUid).argmin (preferred (pinnedUid pin) key) := by
  rw [argmin_preferred key_injective, ← map_argmin SessionState.sessionUid key_injective]
  have hany : ∀ l : List SessionState, (l.any fun c => c.sessionUid = strip (orElse pin ""))
      = decide (strip (orElse pin "") ∈ l.map SessionState.sessionUid) := by
    intro l
    rw [Bool.eq_iff_iff]
    simp
  unfold leadSession pinnedUid
  rw [if_neg (by simp [h])]
  by_cases hempty : strip (orElse pin "") = ""
  · have hpin : (some (strip (orElse pin ""))).filter (· ≠ "") = none := by simp [hempty]
    rw [hpin, if_neg (by simp [hempty])]
    rfl
  · have hpin : (some (strip (orElse pin ""))).filter (· ≠ "") = some (strip (orElse pin "")) := by
      simp [hempty]
    rw [hpin]
    simp only [hany, Option.any_some, ne_eq, hempty, not_false_eq_true, true_and]
    rfl

end Planning

end

/-! ## Where the two sides part -/

section

open Python

/-- An agent's name with white space around it: the daemon trims it. -/
def Padded (engine : String) : Prop := trimmed engine ≠ engine ∧ isAgentEngine engine = true

/-- Around the pin there are separators of `str.isspace`, which are no white space for the daemon. -/
def Cloaked (pin : String) : Prop :=
  ∃ c : Char, 28 ≤ c.toNat ∧ c.toNat ≤ 31 ∧
    (c ∈ (trimmed pin).toList.head? ∨ c ∈ (trimmed pin).toList.getLast?)

theorem isSpace_iff (c : Char) :
    isSpace c = true ↔ isWhitespace c = true ∨ 28 ≤ c.toNat ∧ c.toNat ≤ 31 := by
  unfold isSpace isWhitespace
  simp only [Bool.or_eq_true, Bool.and_eq_true, decide_eq_true_eq, beq_iff_eq]
  omega

theorem strip_eq_trimmed_iff (pin : String) : strip pin = trimmed pin ↔ ¬ Cloaked pin := by
  have hstrip : (strip pin).toList = Text.trim isSpace pin.toList := String.toList_ofList
  have htrimmed : (trimmed pin).toList = Text.trim isWhitespace pin.toList := String.toList_ofList
  have hle : ∀ c, isWhitespace c = true → isSpace c = true := fun c hc => (isSpace_iff c).mpr (.inl hc)
  have hbare := Text.bare_trim isWhitespace pin.toList
  rw [← String.toList_inj, hstrip, htrimmed, ← Text.trim_trim hle, Text.trim_eq_self_iff]
  unfold Cloaked
  rw [htrimmed]
  have hend : ∀ c : Char, isWhitespace c = false →
      (isSpace c = false ↔ ¬ (28 ≤ c.toNat ∧ c.toNat ≤ 31)) := by
    intro c hc
    rw [← Bool.not_eq_true, isSpace_iff, hc]
    simp
  constructor
  · rintro ⟨hhead, hlast⟩ ⟨c, hlo, hhi, hc | hc⟩
    · exact (hend c (hbare.1 c hc)).mp (hhead c hc) ⟨hlo, hhi⟩
    · exact (hend c (hbare.2 c hc)).mp (hlast c hc) ⟨hlo, hhi⟩
  · intro h
    exact ⟨fun c hc => (hend c (hbare.1 c hc)).mpr fun hsep => h ⟨c, hsep.1, hsep.2, .inl hc⟩,
      fun c hc => (hend c (hbare.2 c hc)).mpr fun hsep => h ⟨c, hsep.1, hsep.2, .inr hc⟩⟩

theorem isAgentEngine_iff (engine : String) : isAgentEngine engine = true ↔
    ∃ agent ∈ agentEngines, (trimmed engine).toList.map Char.toLower = agent.toList := by
  unfold isAgentEngine
  simp only [List.any_eq_true, decide_eq_true_eq]

theorem agentEngines_plain : ∀ agent ∈ agentEngines, ∀ c ∈ agent.toList,
    c.toNat < 128 ∧ c ≠ 'k' ∧ isWhitespace c = false := by
  have hall : (agentEngines.all fun agent => agent.toList.all fun c =>
      c.toNat < 128 && c ≠ 'k' && !isWhitespace c) = true := by decide +kernel
  intro agent hagent c hc
  have h := List.all_eq_true.mp (List.all_eq_true.mp hall agent hagent) c hc
  simpa [and_assoc] using h

theorem ownerPid_plain : ∀ c ∈ ownerPid.toList, 32 ≤ c.toNat ∧ c.toNat < 128 ∧ c ≠ 'k' := by
  have hall : (ownerPid.toList.all fun c => 32 ≤ c.toNat && c.toNat < 128 && c ≠ 'k') = true := by
    decide +kernel
  intro c hc
  have h := List.all_eq_true.mp hall c hc
  simpa [and_assoc] using h

theorem planning_isAgentEngine_iff [Casing] [LawfulCasing] (engine : String) : Planning.isAgentEngine engine = true ↔
    ∃ agent ∈ agentEngines, engine.toList.map Char.toLower = agent.toList := by
  unfold Planning.isAgentEngine
  rw [decide_eq_true_iff]
  have hlower : ∀ agent ∈ agentEngines, (Casing.lower engine = agent ↔
      engine.toList.map Char.toLower = agent.toList) := fun agent hmem =>
    lower_eq_iff fun c hc => ⟨(agentEngines_plain agent hmem c hc).1,
      (agentEngines_plain agent hmem c hc).2.1⟩
  constructor
  · intro h
    exact ⟨_, h, (hlower _ h).mp rfl⟩
  · rintro ⟨agent, hmem, h⟩
    rw [(hlower agent hmem).mpr h]
    exact hmem

theorem toLower_whitespace {c : Char} (h : isWhitespace c = true) : c.toLower = c := by
  unfold Char.toLower
  rw [dif_neg]
  rintro ⟨hge, hle⟩
  have hA : ('A' : Char).val.toNat = 65 := rfl
  have hZ : ('Z' : Char).val.toNat = 90 := rfl
  have hc : c.val.toNat = c.toNat := rfl
  have hge' := UInt32.le_iff_toNat_le.mp hge
  have hle' := UInt32.le_iff_toNat_le.mp hle
  unfold isWhitespace at h
  simp only [Bool.or_eq_true, Bool.and_eq_true, decide_eq_true_eq] at h
  omega

/-- A text whose lower case has no white space has none. -/
theorem bare_of_map_toLower {s w : List Char} (h : s.map Char.toLower = w)
    (hw : ∀ c ∈ w, isWhitespace c = false) : ∀ c ∈ s, isWhitespace c = false := by
  intro c hc
  by_contra hspace
  have hspace := Bool.not_eq_false _ ▸ hspace
  have hmem : c ∈ w := h ▸ toLower_whitespace hspace ▸ List.mem_map_of_mem hc
  rw [hw c hmem] at hspace
  cases hspace

theorem trimmed_of_plain {s : String} (h : ∀ c ∈ s.toList, isWhitespace c = false) :
    trimmed s = s := by
  have hself : Text.trim isWhitespace s.toList = s.toList := Text.trim_eq_self_iff.mpr
    ⟨fun c hc => h c (List.mem_of_mem_head? hc), fun c hc => h c (List.mem_of_getLast? hc)⟩
  rw [← String.toList_inj]
  exact String.toList_ofList.trans hself

theorem isAgentEngine_eq_iff [Casing] [LawfulCasing] (engine : String) :
    isAgentEngine engine = Planning.isAgentEngine engine ↔ ¬ Padded engine := by
  have htrim : Planning.isAgentEngine engine = true → trimmed engine = engine := by
    intro h
    obtain ⟨agent, hmem, hw⟩ := (planning_isAgentEngine_iff engine).mp h
    exact trimmed_of_plain (bare_of_map_toLower hw fun c hc => (agentEngines_plain agent hmem c hc).2.2)
  have hplain : trimmed engine = engine →
      (isAgentEngine engine = true ↔ Planning.isAgentEngine engine = true) := by
    intro h
    rw [isAgentEngine_iff, planning_isAgentEngine_iff, h]
  unfold Padded
  rw [Bool.eq_iff_iff, not_and]
  constructor
  · intro h hne hagent
    exact hne (htrim (h.mp hagent))
  · intro h
    by_cases ht : trimmed engine = engine
    · exact hplain ht
    · exact iff_of_false (h ht) fun hp => ht (htrim hp)

/-- A pin that names Owner for the daemon does so for the planning side. -/
theorem planning_isOwnerPin [Casing] [LawfulCasing] {pin : Option String} (h : pin.any isOwnerPin = true) :
    Planning.isOwnerPin pin = true := by
  cases pin with
  | none => cases h
  | some p =>
    have hmap : (trimmed p).toList.map Char.toLower = ownerPid.toList := by
      rw [Option.any_some] at h
      unfold isOwnerPin eqIgnoreAsciiCase at h
      rw [decide_eq_true_eq] at h
      rw [h]
      decide +kernel
    have hcloak : ¬ Cloaked p := by
      rintro ⟨c, hlo, hhi, hc⟩
      have hmem : c ∈ (trimmed p).toList := hc.elim List.mem_of_mem_head? List.mem_of_getLast?
      have hlow : c.toLower ∈ ownerPid.toList := by
        rw [← hmap]
        exact List.mem_map_of_mem hmem
      have hsame : c.toLower = c := by
        unfold Char.toLower
        rw [dif_neg]
        rintro ⟨hge, -⟩
        have hA : ('A' : Char).val.toNat = 65 := rfl
        have hv : c.val.toNat = c.toNat := rfl
        have hge' := UInt32.le_iff_toNat_le.mp hge
        omega
      rw [hsame] at hlow
      have hge := (ownerPid_plain c hlow).1
      omega
    have hread : orElse (some p) "" = p := by
      unfold orElse
      by_cases he : p = "" <;> simp [he]
    unfold Planning.isOwnerPin
    rw [decide_eq_true_iff, hread, (strip_eq_trimmed_iff p).mpr hcloak,
      lower_eq_iff fun c hc => (ownerPid_plain c hc).2]
    exact hmap

/-! ## Uids -/

/-- A uid just the planning side can read. -/
def Overread [Tables] (uid : String) : Prop := spawnOf uid = none ∧ (Planning.spawnOf uid).isSome = true

theorem cut_eq_splitOnce (sep : Char) (s : String) : cut sep s = splitOnce s sep := by
  unfold cut splitOnce
  rw [List.span_eq_takeWhile_dropWhile]
  simp only
  cases s.toList.dropWhile (· ≠ sep) <;> rfl

/-- What the daemon reads the planning side reads alike. -/
theorem planning_spawnOf [Tables] [LawfulTables] {uid : String} {nanos counter : Nat}
    (h : spawnOf uid = some (nanos, counter)) :
    Planning.spawnOf uid = some ((nanos : Int), (counter : Int)) := by
  unfold spawnOf at h
  obtain ⟨rest, hrest, h⟩ := Option.bind_eq_some_iff.mp h
  obtain ⟨⟨n, c⟩, hcut, h⟩ := Option.bind_eq_some_iff.mp h
  obtain ⟨n', hn, h⟩ := Option.bind_eq_some_iff.mp h
  obtain ⟨c', hc, h⟩ := Option.bind_eq_some_iff.mp h
  obtain ⟨rfl, rfl⟩ := Prod.mk.inj (Option.some.inj h)
  have hafter : after "ts-" uid = some rest := hrest
  unfold Planning.spawnOf
  rw [hafter]
  simp only [cut_eq_splitOnce, hcut]
  show (do return (← int16 n, ← int16 c)) = _
  rw [int16_of_fromHex hn, int16_of_fromHex hc]
  rfl

theorem key_lt_iff {a b : String} : key a < key b ↔
    spawnOrder a < spawnOrder b ∨ spawnOrder a = spawnOrder b ∧ a < b :=
  Prod.Lex.toLex_lt_toLex

theorem planning_key_lt_iff [Tables] {a b : String} : Planning.key a < Planning.key b ↔
    Planning.spawnOrder a < Planning.spawnOrder b ∨
      Planning.spawnOrder a = Planning.spawnOrder b ∧ a < b :=
  Prod.Lex.toLex_lt_toLex

/-- Two uids that both sides read, or neither, are ordered alike. -/
theorem alike_key [Tables] [LawfulTables] {a b : String} (ha : ¬ Overread a) (hb : ¬ Overread b) :
    Alike key Planning.key a b := by
  have hread : ∀ {uid : String}, ¬ Overread uid → Planning.spawnOf uid =
      (spawnOf uid).map fun p => ((p.1 : Int), (p.2 : Int)) := by
    intro uid huid
    cases h : spawnOf uid with
    | some p => exact planning_spawnOf h
    | none =>
      cases hp : Planning.spawnOf uid with
      | none => rfl
      | some _ => exact absurd ⟨h, by rw [hp]; rfl⟩ huid
  unfold Alike
  rw [key_lt_iff, planning_key_lt_iff]
  unfold spawnOrder Planning.spawnOrder
  rw [hread ha, hread hb]
  cases spawnOf a <;> cases spawnOf b <;>
    simp [Prod.Lex.toLex_lt_toLex, Prod.ext_iff]

theorem int16_empty [Tables] : int16 "" = none := rfl

theorem not_overread_empty [Tables] : ¬ Overread "" := by
  rintro ⟨-, h⟩
  have hnone : Planning.spawnOf "" = none := by
    show (do return (← int16 "", ← int16 "")) = none
    rw [int16_empty]
    rfl
  rw [hnone] at h
  cases h

/-- Just the planning side has a uid that it alone reads before the empty one. -/
theorem not_alike_empty [Tables] {a : String} (h : Overread a) : ¬ Alike key Planning.key a "" := by
  obtain ⟨hnone, hsome⟩ := h
  obtain ⟨p, hp⟩ := Option.isSome_iff_exists.mp hsome
  have hempty : Planning.spawnOf "" = none := by
    show (do return (← int16 "", ← int16 "")) = none
    rw [int16_empty]
    rfl
  have hplan : Planning.key a < Planning.key "" := by
    rw [planning_key_lt_iff]
    unfold Planning.spawnOrder
    rw [hp, hempty]
    exact .inl (Prod.Lex.toLex_lt_toLex.mpr (.inl Nat.zero_lt_one))
  intro halike
  rcases key_lt_iff.mp (halike.mpr hplan) with hlt | ⟨-, hlt⟩
  · unfold spawnOrder at hlt
    rw [hnone] at hlt
    exact lt_irrefl _ hlt
  · exact List.not_lt_nil _ (String.lt_iff_toList_lt.mp hlt)

/-! ## The same lead -/

/-- A live session bound to the task. -/
structure LiveSession where
  uid : String
  engine : String

def LiveSession.candidate (x : LiveSession) : LeadCandidate := ⟨x.uid, x.engine, true⟩

def LiveSession.state (x : LiveSession) : Planning.SessionState := ⟨x.uid, some x.engine⟩

/-- Whom the planning side's answer names. -/
def Lead.named : Option String → Lead
  | .some uid => if uid = ownerPid then .owner false else .session uid
  | .none => .none

def SameLead [Tables] [Casing] (pin : Option String) (sessions : List LiveSession) : Prop :=
  Lead.named (Planning.leadSession pin (sessions.map LiveSession.state))
    = taskLead pin (sessions.map LiveSession.candidate) false

/-- What both sides understand alike: the pin, the engines, and the order of sessions that may lead,
of which the pinned one is the first. -/
structure Understood [Tables] [Casing] (pin : Option String) (S : LiveSession → Prop) : Prop where
  owner : Planning.isOwnerPin pin = true → pin.any isOwnerPin = true
  engine : pin.any isOwnerPin = false → ∀ x, S x → ¬ Padded x.engine
  uid : pin.any isOwnerPin = false → ∀ x, S x → isAgentEngine x.engine = true → x.uid ≠ ownerPid
  order : pin.any isOwnerPin = false → ∀ x y, S x → S y → isAgentEngine x.engine = true →
    isAgentEngine y.engine = true →
      Alike (preferred (pinnedUid pin) key) (preferred (Planning.pinnedUid pin) Planning.key)
        x.uid y.uid

/-- The uids of the sessions that may lead. -/
def agentUids (sessions : List LiveSession) : List String :=
  (sessions.filter fun x => isAgentEngine x.engine).map LiveSession.uid

theorem taskLead_eq {pin : Option String} (h : pin.any isOwnerPin = false)
    (sessions : List LiveSession) :
    taskLead pin (sessions.map LiveSession.candidate) false =
      match (agentUids sessions).argmin (preferred (pinnedUid pin) key) with
      | some uid => .session uid
      | none => .none := by
  have huids : ((sessions.map LiveSession.candidate).filter fun c =>
      c.live && isAgentEngine c.engine).map LeadCandidate.uid = agentUids sessions := by
    rw [List.filter_map, List.map_map]
    simp only [Function.comp_def, LiveSession.candidate, Bool.true_and]
    rfl
  unfold taskLead
  rw [if_neg (by simp [h]), leadSessionUid_eq, huids]
  cases (agentUids sessions).argmin (preferred (pinnedUid pin) key) <;> rfl

theorem planning_leadSession_eq [Tables] [Casing] {pin : Option String}
    (h : Planning.isOwnerPin pin = false) (sessions : List LiveSession) :
    Planning.leadSession pin (sessions.map LiveSession.state) =
      ((sessions.filter fun x => Planning.isAgentEngine x.engine).map LiveSession.uid).argmin
        (preferred (Planning.pinnedUid pin) Planning.key) := by
  have hengine : ∀ engine : String, orElse (some engine) "" = engine := by
    intro engine
    unfold orElse
    by_cases he : engine = "" <;> simp [he]
  rw [Planning.leadSession_eq h, List.filter_map, List.map_map]
  simp only [Function.comp_def, LiveSession.state, hengine]

variable [Tables] [Casing]

/-- The answers for sessions in any order are the same. -/
theorem leads_perm {pin : Option String} {sessions sessions' : List LiveSession}
    (h : sessions.Perm sessions') :
    taskLead pin (sessions.map LiveSession.candidate) false
        = taskLead pin (sessions'.map LiveSession.candidate) false ∧
      Planning.leadSession pin (sessions.map LiveSession.state)
        = Planning.leadSession pin (sessions'.map LiveSession.state) := by
  constructor
  · by_cases hpin : pin.any isOwnerPin = true
    · unfold taskLead
      rw [if_pos hpin, if_pos hpin]
    · have hpin := Bool.not_eq_true _ ▸ hpin
      have hperm : (agentUids sessions).Perm (agentUids sessions') := (h.filter _).map _
      rw [taskLead_eq hpin, taskLead_eq hpin,
        argmin_perm (preferred_injective _ key_injective) hperm]
  · by_cases hpin : Planning.isOwnerPin pin = true
    · unfold Planning.leadSession
      rw [if_pos hpin, if_pos hpin]
    · have hpin := Bool.not_eq_true _ ▸ hpin
      rw [planning_leadSession_eq hpin, planning_leadSession_eq hpin,
        argmin_perm (preferred_injective _ Planning.key_injective) ((h.filter _).map _)]

variable [LawfulCasing] {pin : Option String} {S : LiveSession → Prop}

theorem Understood.sameLead (h : Understood pin S) {sessions : List LiveSession}
    (hS : ∀ x ∈ sessions, S x) : SameLead pin sessions := by
  unfold SameLead
  by_cases hpin : pin.any isOwnerPin = true
  · unfold taskLead Planning.leadSession
    rw [if_pos hpin, if_pos (planning_isOwnerPin hpin)]
    rfl
  · have hdaemon := Bool.not_eq_true _ ▸ hpin
    have hplanning : Planning.isOwnerPin pin = false :=
      Bool.not_eq_true _ ▸ fun hp => hpin (h.owner hp)
    have hengines : (sessions.filter fun x => Planning.isAgentEngine x.engine)
        = sessions.filter fun x => isAgentEngine x.engine :=
      List.filter_congr fun x hx =>
        ((isAgentEngine_eq_iff x.engine).mpr (h.engine hdaemon x (hS x hx))).symm
    have hagent : ∀ uid ∈ agentUids sessions,
        ∃ x, S x ∧ isAgentEngine x.engine = true ∧ x.uid = uid := by
      intro uid huid
      obtain ⟨x, hx, rfl⟩ := List.mem_map.mp huid
      obtain ⟨hmem, hx⟩ := List.mem_filter.mp hx
      exact ⟨x, hS x hmem, hx, rfl⟩
    have hsame : (agentUids sessions).argmin (preferred (pinnedUid pin) key)
        = (agentUids sessions).argmin (preferred (Planning.pinnedUid pin) Planning.key) := by
      refine argmin_congr (preferred_injective _ key_injective)
        (preferred_injective _ Planning.key_injective) fun a ha b hb => ?_
      obtain ⟨x, hx, hxa, rfl⟩ := hagent a ha
      obtain ⟨y, hy, hyb, rfl⟩ := hagent b hb
      exact h.order hdaemon x y hx hy hxa hyb
    rw [taskLead_eq hdaemon, planning_leadSession_eq hplanning, hengines, hsame]
    show Lead.named ((agentUids sessions).argmin _) = _
    cases hfirst : (agentUids sessions).argmin
        (preferred (Planning.pinnedUid pin) Planning.key) with
    | none => rfl
    | some uid =>
      obtain ⟨x, hx, hagentx, rfl⟩ := hagent uid (List.argmin_mem hfirst)
      exact if_neg (h.uid hdaemon x hx hagentx)

theorem understood_of_sameLead
    (h : ∀ sessions, (∀ x ∈ sessions, S x) → SameLead pin sessions) : Understood pin S := by
  have howner : Planning.isOwnerPin pin = true → pin.any isOwnerPin = true := by
    intro hplanning
    by_contra hpin
    have hsame := h [] (by simp)
    unfold SameLead Planning.leadSession at hsame
    rw [if_pos hplanning, taskLead_eq (Bool.not_eq_true _ ▸ hpin)] at hsame
    cases hsame
  have hread : pin.any isOwnerPin = false → Planning.isOwnerPin pin = false := fun hpin =>
    Bool.not_eq_true _ ▸ fun hp => Bool.noConfusion (hpin.symm.trans (howner hp))
  have hengine : pin.any isOwnerPin = false → ∀ x, S x → ¬ Padded x.engine := by
    intro hpin x hx hpadded
    have hsame := h [x] (by simpa using hx)
    have hplanning : Planning.isAgentEngine x.engine = false := by
      rw [← Bool.not_eq_true]
      intro hp
      exact (isAgentEngine_eq_iff x.engine).mp (hpadded.2.trans hp.symm) hpadded
    unfold SameLead at hsame
    rw [taskLead_eq hpin, planning_leadSession_eq (hread hpin)] at hsame
    simp [agentUids, hpadded.2, hplanning, Lead.named] at hsame
  have hboth : pin.any isOwnerPin = false → ∀ x, S x → isAgentEngine x.engine = true →
      Planning.isAgentEngine x.engine = true := fun hpin x hx hagent =>
    ((isAgentEngine_eq_iff x.engine).mpr (hengine hpin x hx)).symm.trans hagent
  have huid : pin.any isOwnerPin = false → ∀ x, S x → isAgentEngine x.engine = true →
      x.uid ≠ ownerPid := by
    intro hpin x hx hagent huid
    have hsame := h [x] (by simpa using hx)
    unfold SameLead at hsame
    rw [taskLead_eq hpin, planning_leadSession_eq (hread hpin)] at hsame
    simp [agentUids, hagent, hboth hpin x hx hagent, Lead.named, huid] at hsame
  refine ⟨howner, hengine, huid, fun hpin x y hx hy hagentx hagenty => ?_⟩
  have hsame := h [x, y] (by simpa using ⟨hx, hy⟩)
  unfold SameLead at hsame
  rw [taskLead_eq hpin, planning_leadSession_eq (hread hpin)] at hsame
  simp only [agentUids, List.filter_cons, hagentx, hagenty, hboth hpin x hx hagentx,
    hboth hpin y hy hagenty, if_true, List.filter_nil, List.map_cons, List.map_nil] at hsame
  refine alike_of_argmin (preferred_injective _ key_injective)
    (preferred_injective _ Planning.key_injective) ?_
  have hnames : ∀ uid ∈ [x.uid, y.uid], uid ≠ ownerPid := by
    intro uid hmem
    rcases List.mem_cons.mp hmem with rfl | hmem
    · exact huid hpin x hx hagentx
    · exact List.mem_singleton.mp hmem ▸ huid hpin y hy hagenty
  cases hd : [x.uid, y.uid].argmin (preferred (pinnedUid pin) key) with
  | none => cases List.argmin_eq_none.mp hd
  | some a =>
    cases hp : [x.uid, y.uid].argmin (preferred (Planning.pinnedUid pin) Planning.key) with
    | none => cases List.argmin_eq_none.mp hp
    | some b =>
      rw [hd, hp] at hsame
      unfold Lead.named at hsame
      simp only [if_neg (hnames b (List.argmin_mem hp))] at hsame
      exact congrArg some (Lead.session.inj hsame).symm

/-- The two rules name the same lead of every task with sessions of some exactly when they understand
the pin, the engines and the order of these sessions alike; neither depends on the order the sessions
are listed in. Engines are understood alike unless there is white space around an agent's name, pins
unless a separator is at their ends, and uids, the empty one with them, unless just the planning side
reads one. -/
theorem sameLead_iff [LawfulTables] (pin : Option String) (S : LiveSession → Prop) :
    ((∀ sessions, (∀ x ∈ sessions, S x) → SameLead pin sessions) ↔ Understood pin S) ∧
    (∀ sessions sessions' : List LiveSession, sessions.Perm sessions' →
      taskLead pin (sessions.map LiveSession.candidate) false
          = taskLead pin (sessions'.map LiveSession.candidate) false ∧
        Planning.leadSession pin (sessions.map LiveSession.state)
          = Planning.leadSession pin (sessions'.map LiveSession.state)) ∧
    (∀ engine, isAgentEngine engine = Planning.isAgentEngine engine ↔ ¬ Padded engine) ∧
    (∀ p, strip p = trimmed p ↔ ¬ Cloaked p) ∧
    (∀ U : Set String, "" ∈ U →
      ((∀ a ∈ U, ∀ b ∈ U, Alike key Planning.key a b) ↔ ∀ a ∈ U, ¬ Overread a)) := by
  refine ⟨⟨understood_of_sameLead, fun h sessions hS => h.sameLead hS⟩,
    fun _ _ h => leads_perm h, isAgentEngine_eq_iff, strip_eq_trimmed_iff, fun U hempty => ?_⟩
  constructor
  · intro h a ha hover
    exact not_alike_empty hover (h a ha "" hempty)
  · intro h a ha b hb
    exact alike_key (h a ha) (h b hb)

end

/-! ## Two tasks -/

theorem sameLead_plain :
    letI := Python.asciiTables
    letI := Python.asciiCasing
    SameLead none [⟨"ts-a-0", "codex"⟩, ⟨"ts-9-1", "claude"⟩] := by
  let _ := Python.asciiTables
  let _ := Python.asciiCasing
  have _ := Python.lawful_asciiTables
  have _ := Python.lawful_asciiCasing
  have hpadded : ∀ engine ∈ ["codex", "claude"], ¬ Padded engine := by
    intro engine hengine
    rw [← isAgentEngine_eq_iff]
    revert engine
    decide +kernel
  have halike : ∀ a ∈ ["ts-a-0", "ts-9-1"], ∀ b ∈ ["ts-a-0", "ts-9-1"],
      Alike (preferred none key) (preferred (Planning.pinnedUid none) Planning.key) a b := by
    unfold Alike
    decide +kernel
  have hmem : ∀ x ∈ [LiveSession.mk "ts-a-0" "codex", LiveSession.mk "ts-9-1" "claude"],
      x.uid ∈ ["ts-a-0", "ts-9-1"] ∧ x.engine ∈ ["codex", "claude"] ∧ x.uid ≠ ownerPid := by
    simp [ownerPid]
  exact (sameLead_iff none fun x => x ∈ [LiveSession.mk "ts-a-0" "codex", ⟨"ts-9-1", "claude"⟩]).1.mpr
    ⟨by decide +kernel, fun _ x hx => hpadded _ (hmem x hx).2.1, fun _ x hx _ => (hmem x hx).2.2,
      fun _ x y hx hy _ _ => halike _ (hmem x hx).1 _ (hmem y hy).1⟩ _ fun x hx => hx

/-- The planning side reads `0x1`. -/
theorem lead_of_prefixed :
    letI := Python.asciiTables
    letI := Python.asciiCasing
    ¬ SameLead none [⟨"ts-0x1-0", "codex"⟩, ⟨"ts-2-0", "codex"⟩] := by
  unfold SameLead
  decide +kernel

end Org
