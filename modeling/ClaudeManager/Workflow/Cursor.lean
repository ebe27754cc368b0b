import ClaudeManager.Workflow.Transcript

/-!
# The cursor cache

The counts of a transcript, kept between calls with a cursor into the file.

* `get` — one call: what it returns, and the entry that it leaves
* `Kept` — the entry is the parse of the bytes before its cursor
* `get_current` — clean runs return the counts of the file
* `regrown_differs` — a file that grows back past the cursor
-/

namespace ClaudeManager

open Json Text

section

variable [JsonText]

/-- What the cache has of a file. -/
structure Entry where
  mtime : Nat
  len : Nat
  bytesConsumed : Nat
  committedState : State
  cachedState : State

def Entry.fresh (engine : Engine) : Entry := ⟨0, 0, 0, State.fresh engine, State.fresh engine⟩

/-- What the file system does when the file is opened and read. -/
inductive Io where
  | ok
  | openFails
  | readFails
  deriving DecidableEq

namespace Entry

/-- The entry as a call finds it: a new one, or one for the other engine, starts over. -/
def found (entry : Option Entry) (engine : Engine) : Entry :=
  match entry with
  | none => fresh engine
  | some e => if e.committedState.engine = engine then e else fresh engine

/-- A file that is shorter than what was consumed is parsed anew. -/
def rewind (e : Entry) (engine : Engine) (len : Nat) : Entry :=
  if len < e.bytesConsumed then
    { e with committedState := State.fresh engine, cachedState := State.fresh engine, bytesConsumed := 0 }
  else e

/-- The lines up to the last line feed are committed, and the rest is counted on top. -/
def advance (e : Entry) (mtime len : Nat) (slice : List Char) : Entry :=
  let (committed, tail) := splitLast slice
  let state := applyLines e.committedState committed
  { mtime, len
    bytesConsumed := e.bytesConsumed + utf8Len committed
    committedState := state
    cachedState := if tail = [] then state else applyLines state tail }

/-- One call, where the file has this time stamp and length, and these bytes when it is read. -/
def get (entry : Option Entry) (engine : Engine) (mtime len : Nat) (io : Io) (bytes : List UInt8) :
    Option State × Entry :=
  let e := found entry engine
  if e.mtime = mtime ∧ e.len = len then (some e.cachedState, e)
  else
    let e := e.rewind engine len
    match io with
    | .openFails => (none, e)
    | .readFails => (some e.cachedState, e)
    | .ok =>
      match fromUtf8 (bytes.drop e.bytesConsumed) with
      | none => (some e.cachedState, e)
      | some slice =>
        let e := e.advance mtime len slice
        (some e.cachedState, e)

end Entry

/-! ## Runs -/

/-- A file, its cache entry, what it had before, and what was last read of it. -/
structure Watch where
  bytes : List UInt8
  mtime : Nat
  entry : Option Entry
  past : List (List UInt8)
  read : List UInt8

/-- The file changes, or is asked about. It may grow between the stat of a call and its read. -/
inductive FileEvent where
  | write (bytes : List UInt8) (mtime : Nat)
  | get (engine : Engine) (io : Io) (bytes : List UInt8) (mtime : Nat)

namespace Watch

/-- A file that was just created. -/
def start : Watch := ⟨[], 0, none, [[]], []⟩

def call (w : Watch) (engine : Engine) (io : Io) (bytes : List UInt8) : Option State × Entry :=
  Entry.get w.entry engine w.mtime w.bytes.length io bytes

/-- The call reads all of the file. -/
def reads (w : Watch) (engine : Engine) (io : Io) (bytes : List UInt8) : Bool :=
  let e := Entry.found w.entry engine
  !(e.mtime = w.mtime && e.len = w.bytes.length) && io = .ok
    && (fromUtf8 (bytes.drop (e.rewind engine w.bytes.length).bytesConsumed)).isSome

def step (w : Watch) : FileEvent → Watch
  | .write bytes mtime => { w with bytes, mtime, past := w.past ++ [bytes] }
  | .get engine io bytes mtime =>
    { bytes, mtime
      entry := some (w.call engine io bytes).2
      past := w.past ++ [bytes]
      read := if w.reads engine io bytes then bytes else w.read }

/-- A file that does not grow gets a new time stamp. When it is asked about, what was consumed is
still there, or it is shorter than that. -/
def CleanStep (w : Watch) : FileEvent → Prop
  | .write bytes mtime => w.mtime ≤ mtime ∧ (w.bytes <+: bytes ∨ w.mtime < mtime)
  | .get engine _ bytes mtime => w.mtime ≤ mtime ∧ w.bytes <+: bytes ∧
    let consumed := (Entry.found w.entry engine).bytesConsumed
    w.bytes.length < consumed ∨ w.bytes.take consumed = w.read.take consumed

def Clean : Watch → List FileEvent → Prop
  | _, [] => True
  | w, ev :: evs => w.CleanStep ev ∧ (w.step ev).Clean evs

end Watch

/-- The state of parsing all of a file from the start. -/
def Parsed (engine : Engine) (bytes : List UInt8) (state : State) : Prop :=
  ∃ text, fromUtf8 bytes = some text ∧ state = applyLines (State.fresh engine) text

/-! ## What the entry is -/

section

variable {w : Watch} {engine : Engine} {e : Entry} {io : Io} {bytes : List UInt8} {mtime : Nat}

/-- The entry is the parse of what was read up to the cursor, and its time stamp and length tell
whether the file is still the one that it counts. -/
structure Kept (w : Watch) (engine : Engine) (e : Entry) : Prop where
  mtime : e.mtime ≤ w.mtime
  committed : ∃ text, utf8Bytes text = w.read.take e.bytesConsumed ∧ utf8Len text = e.bytesConsumed
    ∧ WholeLines text ∧ e.committedState = applyLines (State.fresh engine) text
  cached : ∃ c ∈ w.past, Parsed engine c e.cachedState
  stamp : e.mtime = w.mtime → e.bytesConsumed ≤ w.bytes.length ∧ e.len ≤ w.bytes.length
    ∧ (e.len = w.bytes.length → Parsed engine w.bytes e.cachedState)

theorem parsed_nil : Parsed engine [] (State.fresh engine) := ⟨[], fromUtf8_iff.mpr rfl, rfl⟩

omit [JsonText] in
theorem engine_fresh : (State.fresh engine).engine = engine := by
  cases engine <;> rfl

theorem Kept.engine_eq (h : Kept w engine e) : e.committedState.engine = engine := by
  obtain ⟨text, -, -, -, hstate⟩ := h.committed
  rw [hstate, engine_applyLines, engine_fresh]

theorem kept_fresh (h : [] ∈ w.past) : Kept w engine (Entry.fresh engine) where
  mtime := Nat.zero_le _
  committed := ⟨[], rfl, rfl, .inl rfl, rfl⟩
  cached := ⟨[], h, parsed_nil⟩
  stamp _ := by
    refine ⟨Nat.zero_le _, Nat.zero_le _, fun hlen => ?_⟩
    rw [List.length_eq_zero_iff.mp hlen.symm]
    exact parsed_nil

/-- The file was empty once, and there is no entry or a right one. -/
structure Watch.Sound (w : Watch) : Prop where
  created : [] ∈ w.past
  entry : ∀ e, w.entry = some e → ∃ engine, Kept w engine e

theorem Watch.Sound.found (h : w.Sound) : Kept w engine (Entry.found w.entry engine) := by
  unfold Entry.found
  split
  · exact kept_fresh h.created
  · rename_i e he
    split
    · rename_i hengine
      obtain ⟨engine', hkept⟩ := h.entry e he
      obtain rfl := hkept.engine_eq.symm.trans hengine
      exact hkept
    · exact kept_fresh h.created

/-- The file goes on, or gets a new time stamp. -/
theorem Kept.grow (h : Kept w engine e) (hmtime : w.mtime ≤ mtime)
    (hbytes : w.bytes <+: bytes ∨ w.mtime < mtime) {entry : Option Entry} :
    Kept ⟨bytes, mtime, entry, w.past ++ [bytes], w.read⟩ engine e where
  mtime := h.mtime.trans hmtime
  committed := h.committed
  cached := by
    obtain ⟨c, hc, hparsed⟩ := h.cached
    exact ⟨c, List.mem_append_left _ hc, hparsed⟩
  stamp heq := by
    have hle := h.mtime
    have hsame : e.mtime = w.mtime := by
      change e.mtime = mtime at heq
      omega
    have hgoes : w.bytes <+: bytes := hbytes.resolve_right (by change e.mtime = mtime at heq; omega)
    obtain ⟨hconsumed, hlen, hparsed⟩ := h.stamp hsame
    have hlength := hgoes.length_le
    refine ⟨hconsumed.trans hlength, hlen.trans hlength, fun hall => ?_⟩
    change e.len = bytes.length at hall
    have hbytes : w.bytes = bytes := hgoes.eq_of_length (by omega)
    rw [← hbytes]
    exact hparsed (by omega)

/-- Starting over leaves a right entry, and its cursor is in the file. -/
theorem Kept.rewind (h : Kept w engine e) (hcreated : [] ∈ w.past)
    (hclean : w.bytes.length < e.bytesConsumed ∨ w.bytes.take e.bytesConsumed = w.read.take e.bytesConsumed) :
    Kept w engine (e.rewind engine w.bytes.length)
      ∧ (e.rewind engine w.bytes.length).bytesConsumed ≤ w.bytes.length
      ∧ w.bytes.take (e.rewind engine w.bytes.length).bytesConsumed
        = w.read.take (e.rewind engine w.bytes.length).bytesConsumed := by
  unfold Entry.rewind
  split
  · rename_i hshort
    refine ⟨⟨h.mtime, ⟨[], rfl, rfl, .inl rfl, rfl⟩, ⟨[], hcreated, parsed_nil⟩, fun heq => ?_⟩,
      Nat.zero_le _, rfl⟩
    have hconsumed := (h.stamp heq).1
    omega
  · rename_i hlong
    exact ⟨h, not_lt.mp hlong, hclean.resolve_left hlong⟩

/-- Reading on from the cursor gives the parse of the whole file. -/
theorem Kept.advance (h : Kept w engine e) (hclean : w.bytes.take e.bytesConsumed = w.read.take e.bytesConsumed)
    (hle : e.bytesConsumed ≤ w.bytes.length) (hgoes : w.bytes <+: bytes) (hmtime : w.mtime ≤ mtime)
    {slice : List Char} (hslice : fromUtf8 (bytes.drop e.bytesConsumed) = some slice) {entry : Option Entry} :
    Parsed engine bytes (e.advance w.mtime w.bytes.length slice).cachedState
      ∧ Kept ⟨bytes, mtime, entry, w.past ++ [bytes], bytes⟩ engine (e.advance w.mtime w.bytes.length slice) := by
  obtain ⟨text, htext, hlen, hwhole, hstate⟩ := h.committed
  have htake : bytes.take e.bytesConsumed = utf8Bytes text := by
    obtain ⟨more, rfl⟩ := hgoes
    rw [List.take_append_of_le_length hle, hclean, htext]
  have hall : utf8Bytes (text ++ slice) = bytes := by
    rw [utf8Bytes_append, fromUtf8_iff.mp hslice, ← htake, List.take_append_drop]
  have hsplit := splitLast_append slice
  have hlines := splitLast_whole slice
  unfold Entry.advance
  generalize splitLast slice = parts at hsplit hlines ⊢
  obtain ⟨committed, tail⟩ := parts
  change committed ++ tail = slice at hsplit
  change WholeLines committed at hlines
  have hcommitted : applyLines e.committedState committed = applyLines (State.fresh engine) (text ++ committed) := by
    rw [hstate, applyLines_append hwhole]
  have hwhole' : WholeLines (text ++ committed) := by
    rcases hlines with rfl | ⟨a, rfl⟩
    · rwa [List.append_nil]
    · exact .inr ⟨text ++ a, by rw [List.append_assoc]⟩
  have hcached : Parsed engine bytes (if tail = [] then applyLines e.committedState committed
      else applyLines (applyLines e.committedState committed) tail) := by
    refine ⟨text ++ slice, fromUtf8_iff.mpr hall, ?_⟩
    rw [← hsplit]
    split
    · rename_i htail
      rw [htail, List.append_nil, hcommitted]
    · rw [hcommitted, ← applyLines_append hwhole', List.append_assoc]
  have hbytes : bytes = utf8Bytes (text ++ committed) ++ utf8Bytes tail := by
    rw [← utf8Bytes_append, List.append_assoc, hsplit, hall]
  have hcursor : utf8Bytes (text ++ committed) = bytes.take (e.bytesConsumed + utf8Len committed) := by
    rw [hbytes, ← hlen, ← utf8Len_append, ← length_utf8Bytes, List.take_left]
  have hbound : e.bytesConsumed + utf8Len committed ≤ bytes.length := by
    have hlength := congrArg List.length hall
    rw [length_utf8Bytes, utf8Len_append, hlen, ← hsplit, utf8Len_append] at hlength
    omega
  have hgrown := hgoes.length_le
  refine ⟨hcached, hmtime, ⟨text ++ committed, hcursor, ?_, hwhole', hcommitted⟩,
    ⟨bytes, List.mem_append_right _ (List.mem_singleton_self _), hcached⟩, fun _ => ⟨hbound, hgrown, fun _ => hcached⟩⟩
  rw [utf8Len_append, hlen]

/-! ## What a call returns -/

/-- The counts of the file, as it is found or as it is read, or those of an earlier content where
it cannot be read as a text. -/
def Returns (w : Watch) (engine : Engine) (io : Io) (bytes : List UInt8) : Option State → Prop
  | none => io = .openFails
  | some state => Parsed engine w.bytes state ∨ Parsed engine bytes state
    ∨ (io = .readFails ∨ fromUtf8 bytes = none) ∧ ∃ c ∈ w.past, Parsed engine c state

theorem Watch.Sound.of_kept (hcreated : [] ∈ w.past) (hkept : Kept w engine e) (hentry : w.entry = some e) :
    w.Sound := by
  refine ⟨hcreated, fun e' he' => ⟨engine, ?_⟩⟩
  obtain rfl := Option.some.inj (hentry.symm.trans he')
  exact hkept

/-- What a bad read leaves is right, and so is what it returns. -/
theorem Kept.unread (hcreated : [] ∈ w.past) (h : Kept w engine e) (hmtime : w.mtime ≤ mtime)
    (hgoes : w.bytes <+: bytes) :
    Watch.Sound ⟨bytes, mtime, some e, w.past ++ [bytes], w.read⟩ :=
  .of_kept (List.mem_append_left _ hcreated) (h.grow hmtime (.inl hgoes)) rfl

/-- A file that is not a text from the cursor on is none at all. -/
theorem Kept.invalid (h : Kept w engine e) (hclean : w.bytes.take e.bytesConsumed = w.read.take e.bytesConsumed)
    (hle : e.bytesConsumed ≤ w.bytes.length) (hgoes : w.bytes <+: bytes)
    (hslice : fromUtf8 (bytes.drop e.bytesConsumed) = none) : fromUtf8 bytes = none := by
  obtain ⟨text, htext, -, -, -⟩ := h.committed
  rw [Option.eq_none_iff_forall_ne_some]
  intro t ht
  have hbytes : utf8Bytes t = utf8Bytes text ++ bytes.drop e.bytesConsumed := by
    obtain ⟨more, rfl⟩ := hgoes
    rw [fromUtf8_iff.mp ht, htext, ← hclean, ← List.take_append_of_le_length hle, List.take_append_drop]
  obtain ⟨rest, -, hrest⟩ := utf8Bytes_append_eq hbytes
  rw [fromUtf8_iff.mpr hrest] at hslice
  cases hslice

/-- A call returns what it should, and leaves a right entry. -/
theorem get_step (h : w.Sound) (hclean : w.CleanStep (.get engine io bytes mtime)) :
    Returns w engine io bytes (w.call engine io bytes).1 ∧ (w.step (.get engine io bytes mtime)).Sound := by
  obtain ⟨hmtime, hgoes, hcursor⟩ := hclean
  have hfound : Kept w engine (Entry.found w.entry engine) := h.found
  have hcreated : [] ∈ w.past ++ [bytes] := List.mem_append_left _ h.created
  unfold Watch.step Watch.call Watch.reads Entry.get
  simp only at hcursor ⊢
  generalize Entry.found w.entry engine = e at hfound hcursor ⊢
  by_cases hstamp : e.mtime = w.mtime ∧ e.len = w.bytes.length
  · have hnot : (!(decide (e.mtime = w.mtime) && decide (e.len = w.bytes.length))) = false := by simp [hstamp]
    simp only [if_pos hstamp, hnot, Bool.false_and, Bool.false_eq_true, if_false]
    exact ⟨.inl ((hfound.stamp hstamp.1).2.2 hstamp.2), hfound.unread h.created hmtime hgoes⟩
  · have hstamped : (!(decide (e.mtime = w.mtime) && decide (e.len = w.bytes.length))) = true := by
      rw [Bool.not_eq_true', ← Bool.not_eq_true, Bool.and_eq_true, decide_eq_true_eq, decide_eq_true_eq]
      exact hstamp
    obtain ⟨hkept, hle, hsame⟩ := hfound.rewind h.created hcursor
    simp only [if_neg hstamp, hstamped, Bool.true_and]
    generalize e.rewind engine w.bytes.length = r at hkept hle hsame ⊢
    cases io with
    | openFails => exact ⟨rfl, hkept.unread h.created hmtime hgoes⟩
    | readFails => exact ⟨.inr (.inr ⟨.inl rfl, hkept.cached⟩), hkept.unread h.created hmtime hgoes⟩
    | ok =>
      cases hslice : fromUtf8 (bytes.drop r.bytesConsumed) with
      | none =>
        have hinvalid := hkept.invalid hsame hle hgoes hslice
        simp only [Option.isSome_none, Bool.and_false, Bool.false_eq_true, if_false]
        exact ⟨.inr (.inr ⟨.inr hinvalid, hkept.cached⟩), hkept.unread h.created hmtime hgoes⟩
      | some slice =>
        obtain ⟨hparsed, hkept'⟩ :=
          @Kept.advance _ w engine r bytes mtime hkept hsame hle hgoes hmtime slice hslice
            (some (r.advance w.mtime w.bytes.length slice))
        simp only [decide_true, Option.isSome_some, Bool.and_self, if_true]
        exact ⟨.inr (.inl hparsed), .of_kept hcreated hkept' rfl⟩

theorem write_step (h : w.Sound) (hclean : w.CleanStep (.write bytes mtime)) :
    (w.step (.write bytes mtime)).Sound := by
  refine ⟨List.mem_append_left _ h.created, fun e he => ?_⟩
  obtain ⟨engine, hkept⟩ := h.entry e he
  exact ⟨engine, hkept.grow hclean.1 hclean.2⟩

theorem Watch.Sound.step {ev : FileEvent} (h : w.Sound) (hclean : w.CleanStep ev) : (w.step ev).Sound := by
  cases ev with
  | write bytes mtime => exact write_step h hclean
  | get engine io bytes mtime => exact (get_step h hclean).2

theorem Watch.Sound.run {evs : List FileEvent} (h : w.Sound) (hclean : w.Clean evs) :
    (evs.foldl Watch.step w).Sound := by
  induction evs generalizing w with
  | nil => exact h
  | cons ev evs ih => exact ih (h.step hclean.1) hclean.2

theorem Watch.Clean.append {evs fvs : List FileEvent} (h : w.Clean (evs ++ fvs)) :
    w.Clean evs ∧ (evs.foldl Watch.step w).Clean fvs := by
  induction evs generalizing w with
  | nil => exact ⟨trivial, h⟩
  | cons ev evs ih =>
    obtain ⟨hrest, hlast⟩ := ih h.2
    exact ⟨⟨h.1, hrest⟩, hlast⟩

theorem sound_start : Watch.start.Sound := ⟨List.mem_singleton_self [], fun _ he => by cases he⟩

/-- In a clean run every call returns the counts of the whole file. -/
theorem get_current {evs : List FileEvent} (h : Watch.start.Clean evs) :
    ∀ before after, evs = before ++ .get engine io bytes mtime :: after →
      Returns (before.foldl Watch.step .start) engine io bytes
        ((before.foldl Watch.step .start).call engine io bytes).1 := by
  rintro before after rfl
  obtain ⟨hbefore, hlast⟩ := h.append
  exact (get_step (sound_start.run hbefore) hlast.1).1

end

end

/-! ## A file that grows back -/

/-- The lines that the two runs below read, as the JSON they are. -/
abbrev turnsJson : JsonText where
  parse line :=
    if line = "\x7b\"type\":\"user\"\x7d".toList then some (.obj [("type", .str "user")])
    else if line = "\x7b\"type\":\"assistant\"\x7d".toList then some (.obj [("type", .str "assistant")])
    else none

def assistantTurn : List UInt8 := utf8Bytes "\x7b\"type\":\"assistant\"\x7d\n".toList

def userTurn : List UInt8 := utf8Bytes "\x7b\"type\":\"user\"\x7d\n".toList

theorem get_current_twice :
    let w := [.write assistantTurn 1, .get .claudeCode .ok assistantTurn 1,
      .write (assistantTurn ++ userTurn) 2].foldl (@Watch.step turnsJson) .start
    @Returns turnsJson w .claudeCode .ok (assistantTurn ++ userTurn)
      (@Watch.call turnsJson w .claudeCode .ok (assistantTurn ++ userTurn)).1 := by
  refine @get_current turnsJson .claudeCode .ok (assistantTurn ++ userTurn) 2
    [.write assistantTurn 1, .get .claudeCode .ok assistantTurn 1, .write (assistantTurn ++ userTurn) 2,
      .get .claudeCode .ok (assistantTurn ++ userTurn) 2] ?_
    [.write assistantTurn 1, .get .claudeCode .ok assistantTurn 1, .write (assistantTurn ++ userTurn) 2] [] rfl
  refine ⟨⟨by decide, .inl (List.nil_prefix)⟩, ⟨by decide, List.prefix_rfl, .inr rfl⟩,
    ⟨by decide, .inl (List.prefix_append _ _)⟩, ⟨by decide, List.prefix_rfl, .inr ?_⟩, trivial⟩
  decide +kernel

/-- A transcript is emptied and written again before it is asked about: the first line that is
there now is not counted, and the one that is gone still is. -/
theorem regrown_differs :
    let w := [.write assistantTurn 1, .get .claudeCode .ok assistantTurn 1, .write [] 2,
      .write (userTurn ++ userTurn) 3].foldl (@Watch.step turnsJson) .start
    (@Watch.call turnsJson w .claudeCode .ok (userTurn ++ userTurn)).1 = some (.claude 1 0 (some false))
      ∧ @applyLines turnsJson (State.fresh .claudeCode)
          "\x7b\"type\":\"user\"\x7d\n\x7b\"type\":\"user\"\x7d\n".toList = .claude 0 2 none
      ∧ ¬ @Returns turnsJson w .claudeCode .ok (userTurn ++ userTurn)
          (@Watch.call turnsJson w .claudeCode .ok (userTurn ++ userTurn)).1 := by
  have hcall : (@Watch.call turnsJson ([.write assistantTurn 1, .get .claudeCode .ok assistantTurn 1, .write [] 2,
      .write (userTurn ++ userTurn) 3].foldl (@Watch.step turnsJson) .start) .claudeCode .ok
        (userTurn ++ userTurn)).1 = some (.claude 1 0 (some false)) := by
    decide +kernel
  have hparse : @applyLines turnsJson (State.fresh .claudeCode)
      "\x7b\"type\":\"user\"\x7d\n\x7b\"type\":\"user\"\x7d\n".toList = .claude 0 2 none := by
    decide +kernel
  have hnot : ¬ @Parsed turnsJson .claudeCode (userTurn ++ userTurn) (.claude 1 0 (some false)) := by
    rintro ⟨text, htext, hstate⟩
    have hbytes : userTurn ++ userTurn
        = utf8Bytes "\x7b\"type\":\"user\"\x7d\n\x7b\"type\":\"user\"\x7d\n".toList := by
      decide +kernel
    rw [hbytes, fromUtf8_iff.mpr rfl] at htext
    rw [← Option.some.inj htext, hparse] at hstate
    cases hstate
  refine ⟨hcall, hparse, ?_⟩
  rw [hcall]
  rintro (h | h | ⟨h | h, -⟩)
  · exact hnot h
  · exact hnot h
  · cases h
  · have hbytes : userTurn ++ userTurn
        = utf8Bytes "\x7b\"type\":\"user\"\x7d\n\x7b\"type\":\"user\"\x7d\n".toList := by
      decide +kernel
    rw [hbytes, fromUtf8_iff.mpr rfl] at h
    cases h

end ClaudeManager
