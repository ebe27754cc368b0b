import Mathlib
import ClaudeManager.Python.Builtins
import ClaudeManager.Text.LineStarts

/-!
# The tail of a transcript

Evidence of a receipt is looked for in the last bytes of a transcript. The tail is read as it grows.

* `Tail.refresh` — a tail is brought up to date with the file
* `plainScan` — the records of the last bytes, read afresh
* `Synced` — a tail that is up to date; `Synced.items_eq` — it has the records of a plain scan
* `read_synced` — what is carried over from the last refresh, and what is read, is up to date
-/

namespace Receipts

open Text Python

abbrev Bytes := List UInt8

/-- `TAIL_WINDOW`: records are looked for in this many bytes at the end. -/
def tailWindow : Nat := 2 * 1024 * 1024

/-- `_FINGERPRINT`: the bytes that are compared at the head and before the offset. -/
def fingerprintSize : Nat := 4096

def newline : UInt8 := 10

def carriageReturn : UInt8 := 13

def asciiBytes (s : String) : Bytes := s.toList.map fun c => UInt8.ofNat c.toNat

/-- A file as it is when it is read. -/
structure File where
  ino : Nat
  mtime : Int
  bytes : Bytes

/-- `_read`. -/
def File.slice (f : File) (start n : Nat) : Bytes := (f.bytes.drop start).take n

/-- `bytes.splitlines(keepends=True)`. -/
def splitLines : Bytes → List Bytes
  | [] => []
  | [c] => [[c]]
  | c :: d :: rest =>
    if c = carriageReturn ∧ d = newline then [c, d] :: splitLines rest
    else if c = newline ∨ c = carriageReturn then [c] :: splitLines (d :: rest)
    else match splitLines (d :: rest) with
      | [] => [[c]]
      | line :: lines => (c :: line) :: lines

/-- Lines that could be evidence have an `"origin"` or name `cm_notification`. -/
def isCandidate (line : Bytes) : Bool :=
  asciiBytes "\"origin\"" <:+: line || asciiBytes "cm_notification" <:+: line

/-! ## The tail -/

/-- `_Tail`. -/
structure Tail (α : Type) where
  ino : Option Nat
  /-- The inode, the size and the time of the last refresh. -/
  seen : Option (Nat × Nat × Int)
  /-- The end of the last complete line that was scanned. -/
  offset : Nat
  head : Bytes
  /-- The bytes before the offset. -/
  fingerprint : Bytes
  /-- The records by the start of their lines. -/
  records : NatMap α
  /-- The record of a last line without its end. -/
  tail : Option (Nat × α)

namespace Tail

variable {α : Type}

def new : Tail α := ⟨none, none, 0, [], [], ∅, none⟩

/-- `_reset`. -/
def reset (t : Tail α) (ino : Nat) : Tail α :=
  { t with ino := some ino, offset := 0, head := [], fingerprint := [], records := ∅, tail := none }

/-- A new inode, a file that ends before the offset, or other bytes at the head or before the offset
start the scan over. -/
def check (t : Tail α) (f : File) : Tail α :=
  if t.ino ≠ some f.ino ∨ f.bytes.length < t.offset then t.reset f.ino
  else if t.offset ≠ 0 ∧ (f.slice 0 t.head.length ≠ t.head ∨
      f.slice (t.offset - t.fingerprint.length) t.fingerprint.length ≠ t.fingerprint) then
    t.reset f.ino
  else t

variable (loads : Bytes → Option α)

/-- A line that starts at `start`. `loads` gives the object that the line is in JSON. -/
def note (t : Tail α) (start : Nat) (line : Bytes) : Tail α :=
  if isCandidate line = false then t
  else match loads line with
    | none => t
    | some item =>
      if line.getLast? = some newline then { t with records := t.records.insert start item }
      else { t with tail := some (start, item) }

def scan : Tail α → Nat → List Bytes → Tail α
  | t, _, [] => t
  | t, pos, line :: lines => scan (t.note loads pos line) (pos + line.length) lines

/-- What of the file is scanned, and where it starts. Behind the offset the first line may be a part
of one, and is left out. -/
def unread (t : Tail α) (f : File) : Nat × Bytes :=
  let start := max t.offset (f.bytes.length - tailWindow)
  let data := f.bytes.drop start
  if start > t.offset then
    let data := behind newline data
    (f.bytes.length - data.length, data)
  else (start, data)

/-- The offset goes past complete lines only. -/
def advance (t : Tail α) (f : File) (base : Nat) (data : Bytes) : Tail α :=
  let n := (wholePart newline data).length
  if n = 0 then t
  else
    let offset := base + n
    let k := min fingerprintSize offset
    { t with offset := offset, fingerprint := f.slice (offset - k) k, head := f.slice 0 k }

/-- Records that are out of the window are dropped. -/
def drop (t : Tail α) (window : Nat) : Tail α :=
  if window = 0 then t else { t with records := t.records.filter fun start _ => window < start }

/-- What a refresh does once the file is checked. -/
def read (t : Tail α) (f : File) : Tail α :=
  let (base, data) := t.unread f
  let t := { t with tail := none }
  ((t.scan loads base (splitLines data)).advance f base data).drop (f.bytes.length - tailWindow)

/-- `refresh`. -/
def refresh (t : Tail α) (f : File) : Tail α :=
  let seen := (f.ino, f.bytes.length, f.mtime)
  if t.seen = some seen then t
  else (({ t with seen := some seen } : Tail α).check f).read loads f

/-- `items`. -/
def items (t : Tail α) : List α := t.records.toList.map Prod.snd ++ (t.tail.map Prod.snd).toList

end Tail

/-! ## The plain scan -/

variable {α : Type} (loads : Bytes → Option α)

/-- The record of a line. -/
def candidate (line : Bytes) : Option α := if isCandidate line = false then none else loads line

/-- The last bytes read afresh: the first line is left out if the window starts inside the file. -/
def plainScan (f : File) : List α :=
  let window := f.bytes.length - tailWindow
  let data := if window = 0 then f.bytes else behind newline (f.bytes.drop window)
  ((linesAt newline 0 data).map Prod.snd).filterMap (candidate loads)

/-- Where the window starts. -/
def window (f : File) : Nat := f.bytes.length - tailWindow

/-- A line that starts here is in the window. -/
def inWindow (f : File) (start : Nat) : Bool := window f = 0 || window f < start

/-- The lines in the window. -/
def kept (f : File) : List (Nat × Bytes) :=
  (linesAt newline 0 f.bytes).filter fun x => inWindow f x.1

theorem plainScan_eq (f : File) :
    plainScan loads f = (kept f).filterMap fun x => candidate loads x.2 := by
  have hsnd : ∀ (p : Nat) (data : Bytes), ((linesAt newline 0 data).map Prod.snd).filterMap
      (candidate loads) = (linesAt newline p data).filterMap fun x => candidate loads x.2 := by
    intro p data
    rw [linesAt_snd 0 p, List.filterMap_map]
    rfl
  unfold plainScan kept inWindow window
  by_cases hw : f.bytes.length - tailWindow = 0
  · simp only [hw, if_true, decide_true, Bool.true_or, List.filter_true, hsnd 0]
  · have hbehind := linesAt_behind newline 0 (b := f.bytes)
      (w := f.bytes.length - tailWindow) (by omega)
    simp only [Nat.zero_add] at hbehind
    simp only [hw, if_false, decide_false, Bool.false_or, hbehind]
    exact hsnd _ _

/-! ## Lines without carriage returns -/

theorem splitLines_eq {data : Bytes} (h : carriageReturn ∉ data) (p : Nat) :
    splitLines data = (linesAt newline p data).map Prod.snd := by
  induction data generalizing p with
  | nil => rfl
  | cons c rest ih =>
    obtain ⟨hc, hrest⟩ := not_or.mp (List.mem_cons.not.mp h)
    have hc : c ≠ carriageReturn := fun he => hc he.symm
    have ih := ih hrest (p + 1)
    cases rest with
    | nil =>
      rw [linesAt]
      split <;> rfl
    | cons d rest =>
      rw [splitLines, linesAt, if_neg (fun h => hc h.1)]
      by_cases hnl : c = newline
      · rw [if_pos (.inl hnl), if_pos hnl, ih]
        rfl
      · rw [if_neg (by simp [hnl, hc]), if_neg hnl, ih]
        cases linesAt newline (p + 1) (d :: rest) <;> rfl

/-! ## What a scan notes -/

namespace Tail

variable {loads} {t : Tail α} {f : File} {start : Nat} {line : Bytes}

theorem note_fields (loads : Bytes → Option α) (t : Tail α) (start : Nat) (line : Bytes) :
    (t.note loads start line).ino = t.ino ∧ (t.note loads start line).seen = t.seen ∧
      (t.note loads start line).offset = t.offset ∧ (t.note loads start line).head = t.head ∧
      (t.note loads start line).fingerprint = t.fingerprint := by
  unfold note
  split
  · exact ⟨rfl, rfl, rfl, rfl, rfl⟩
  · split
    · exact ⟨rfl, rfl, rfl, rfl, rfl⟩
    · split <;> exact ⟨rfl, rfl, rfl, rfl, rfl⟩

theorem note_complete (h : complete newline line = true) : t.note loads start line =
    match candidate loads line with
    | some item => { t with records := t.records.insert start item }
    | none => t := by
  unfold note candidate
  by_cases hc : isCandidate line = false
  · simp [hc]
  · simp only [hc, of_decide_eq_true h, if_true]
    cases loads line <;> rfl

theorem note_incomplete (h : complete newline line = false) : t.note loads start line =
    match candidate loads line with
    | some item => { t with tail := some (start, item) }
    | none => t := by
  unfold note candidate
  by_cases hc : isCandidate line = false
  · simp [hc]
  · simp only [hc, if_false, of_decide_eq_false h]
    cases loads line <;> rfl

theorem scan_append (xs ys : List Bytes) : ∀ (t : Tail α) (p : Nat), t.scan loads p (xs ++ ys)
    = (t.scan loads p xs).scan loads (p + (xs.map List.length).sum) ys := by
  induction xs with
  | nil => intro t p; rfl
  | cons x xs ih =>
    intro t p
    rw [List.cons_append, scan, scan, ih, List.map_cons, List.sum_cons, Nat.add_assoc]

theorem scan_fields (loads : Bytes → Option α) (lines : List Bytes) : ∀ (t : Tail α) (p : Nat),
    (t.scan loads p lines).ino = t.ino ∧ (t.scan loads p lines).seen = t.seen ∧
      (t.scan loads p lines).offset = t.offset ∧ (t.scan loads p lines).head = t.head ∧
      (t.scan loads p lines).fingerprint = t.fingerprint := by
  induction lines with
  | nil => exact fun _ _ => ⟨rfl, rfl, rfl, rfl, rfl⟩
  | cons line lines ih =>
    intro t p
    obtain ⟨h₁, h₂, h₃, h₄, h₅⟩ := note_fields loads t p line
    obtain ⟨g₁, g₂, g₃, g₄, g₅⟩ := ih (t.note loads p line) (p + line.length)
    exact ⟨g₁.trans h₁, g₂.trans h₂, g₃.trans h₃, g₄.trans h₄, g₅.trans h₅⟩

/-- Complete lines leave the tail alone, and their records are put in. -/
theorem scan_complete (loads : Bytes → Option α) {l : List (Nat × Bytes)} (hl : ∀ x ∈ l, complete newline x.2 = true) :
    ∀ {t : Tail α} {p : Nat}, Chained p l → (∀ start, p ≤ start → t.records[start]? = none) →
      (t.scan loads p (l.map Prod.snd)).tail = t.tail ∧
      ∀ start r, (t.scan loads p (l.map Prod.snd)).records[start]? = some r ↔
        (∃ line, (start, line) ∈ l ∧ candidate loads line = some r) ∨ t.records[start]? = some r := by
  induction l with
  | nil => exact fun _ _ => ⟨rfl, by simp [scan]⟩
  | cons x l ih =>
    intro t p hchain hfresh
    obtain ⟨rfl, hchain⟩ := hchain
    have hx := hl x List.mem_cons_self
    have hpos : 0 < x.2.length := by
      refine List.length_pos_of_ne_nil fun he => ?_
      rw [he] at hx
      cases hx
    rw [List.map_cons, scan, note_complete hx]
    have hrest : ∀ y ∈ l, complete newline y.2 = true := fun y hy => hl y (List.mem_cons_of_mem x hy)
    have hlater : ∀ line, (x.1, line) ∉ l := fun line hline => by
      have := hchain.le _ hline
      omega
    cases hc : candidate loads x.2 with
    | none =>
      obtain ⟨htail, hrecords⟩ := ih hrest hchain fun start hs => hfresh start (by omega)
      refine ⟨htail, fun start r => ?_⟩
      rw [hrecords]
      refine or_congr_left ⟨fun ⟨line, hline, hr⟩ => ⟨line, List.mem_cons_of_mem x hline, hr⟩, ?_⟩
      rintro ⟨line, hline, hr⟩
      rcases List.mem_cons.mp hline with rfl | hline
      · rw [hc] at hr
        cases hr
      · exact ⟨line, hline, hr⟩
    | some item =>
      obtain ⟨htail, hrecords⟩ := ih hrest (t := { t with records := t.records.insert x.1 item })
        hchain fun start hs => by
          rw [natMap_getElem?_insert, if_neg (by omega)]
          exact hfresh start (by omega)
      refine ⟨htail, fun start r => ?_⟩
      rw [hrecords, natMap_getElem?_insert]
      constructor
      · rintro (⟨line, hline, hr⟩ | hold)
        · exact .inl ⟨line, List.mem_cons_of_mem x hline, hr⟩
        · split at hold
          · next hs => exact .inl ⟨x.2, hs ▸ List.mem_cons_self, hc.trans hold⟩
          · exact .inr hold
      · rintro (⟨line, hline, hr⟩ | hold)
        · rcases List.mem_cons.mp hline with rfl | hline
          · exact .inr ((if_pos rfl).trans (hc.symm.trans hr))
          · exact .inl ⟨line, hline, hr⟩
        · refine .inr ((if_neg ?_).trans hold)
          rintro rfl
          rw [hfresh x.1 le_rfl] at hold
          cases hold

/-- What a scan of new data notes: the records of its complete lines, and that of the last part. -/
theorem scan_data (loads : Bytes → Option α) {base : Nat} {data : Bytes} (hcr : carriageReturn ∉ data)
    (htail : t.tail = none) (hfresh : ∀ start, base ≤ start → t.records[start]? = none) :
    (∀ start r, (t.scan loads base (splitLines data)).records[start]? = some r ↔
      (∃ line, (start, line) ∈ linesAt newline base (wholePart newline data) ∧
        candidate loads line = some r) ∨ t.records[start]? = some r) ∧
    ∀ start r, (t.scan loads base (splitLines data)).tail = some (start, r) ↔
      ∃ line, (start, line) ∈ linesAt newline (base + (wholePart newline data).length)
        (lastPart newline data) ∧ candidate loads line = some r := by
  have hsum : (((linesAt newline base (wholePart newline data)).map Prod.snd).map List.length).sum
      = (wholePart newline data).length := by
    rw [← List.length_flatten, flatten_linesAt]
  obtain ⟨hkeep, hrecords⟩ := scan_complete loads (t := t)
    (complete_of_whole (p := base) (whole_wholePart newline data))
    (chained_linesAt newline base _) hfresh
  rw [splitLines_eq hcr base, linesAt_parts, List.map_append, scan_append, hsum]
  rw [htail] at hkeep
  generalize t.scan loads base ((linesAt newline base (wholePart newline data)).map Prod.snd) = u
    at hkeep hrecords ⊢
  rw [linesAt_plain (notMem_lastPart newline data)]
  split
  · refine ⟨hrecords, fun start r => ?_⟩
    simp [scan, hkeep]
  · have hlast : complete newline (lastPart newline data) = false :=
      decide_eq_false fun h => notMem_lastPart newline data (List.mem_of_getLast? h)
    simp only [List.map_cons, List.map_nil, scan, note_incomplete hlast]
    cases hc : candidate loads (lastPart newline data) with
    | none =>
      refine ⟨hrecords, fun start r => ?_⟩
      simp [hkeep, hc]
    | some item =>
      refine ⟨hrecords, fun start r => ?_⟩
      simp only [List.mem_singleton, Option.some.injEq, Prod.mk.injEq]
      constructor
      · rintro ⟨rfl, rfl⟩
        exact ⟨_, ⟨rfl, rfl⟩, hc⟩
      · rintro ⟨line, ⟨rfl, rfl⟩, hr⟩
        exact ⟨rfl, Option.some.inj (hc.symm.trans hr)⟩

/-! ## Up to date -/

/-- The head and the fingerprint are the bytes of the file. -/
structure Marked (t : Tail α) (f : File) : Prop where
  le : t.offset ≤ f.bytes.length
  whole : Whole newline (f.bytes.take t.offset)
  head : t.head = f.slice 0 (min fingerprintSize t.offset)
  fingerprint : t.fingerprint
    = f.slice (t.offset - min fingerprintSize t.offset) (min fingerprintSize t.offset)

theorem Marked.congr {u : Tail α} (h : t.Marked f) (hoff : u.offset = t.offset)
    (hhead : u.head = t.head) (hfinger : u.fingerprint = t.fingerprint) : u.Marked f := by
  refine ⟨?_, ?_, ?_, ?_⟩
  · rw [hoff]
    exact h.le
  · rw [hoff]
    exact h.whole
  · rw [hoff, hhead]
    exact h.head
  · rw [hoff, hfinger]
    exact h.fingerprint

/-- What is carried over to a refresh: the records of the lines that were scanned and start behind
`v`. -/
structure Carried (loads : Bytes → Option α) (t : Tail α) (f : File) (v : Nat) : Prop where
  ino : t.ino = some f.ino
  marked : t.Marked f
  le : v ≤ window f
  records : ∀ start r, t.records[start]? = some r ↔
    ∃ line, (start, line) ∈ linesAt newline 0 (f.bytes.take t.offset) ∧ (v = 0 ∨ v < start) ∧
      candidate loads line = some r

/-- The tail has the records of the lines in the window. -/
structure Synced (loads : Bytes → Option α) (t : Tail α) (f : File) : Prop where
  ino : t.ino = some f.ino
  seen : t.seen = some (f.ino, f.bytes.length, f.mtime)
  marked : t.Marked f
  scanned : ∀ x ∈ kept f, complete newline x.2 = true → x.1 < t.offset
  records : ∀ start r, t.records[start]? = some r ↔
    ∃ line, (start, line) ∈ kept f ∧ complete newline line = true ∧ candidate loads line = some r
  tail : ∀ start r, t.tail = some (start, r) ↔
    ∃ line, (start, line) ∈ kept f ∧ complete newline line = false ∧ candidate loads line = some r

/-- The window has no carriage return. -/
def Plain (f : File) : Prop := carriageReturn ∉ f.bytes.drop (window f)

/-- The window is not one line without its end that starts with the window. -/
def Edged (f : File) : Prop :=
  ¬ (window f ≠ 0 ∧ (f.bytes.take (window f)).getLast? = some newline ∧
    newline ∉ f.bytes.drop (window f))

theorem unread_spec (hle : t.offset ≤ f.bytes.length) (hplain : Plain f) :
    ∃ base data, t.unread f = (base, data) ∧ f.bytes = f.bytes.take base ++ data ∧
      base ≤ f.bytes.length ∧ carriageReturn ∉ data ∧ t.offset ≤ base ∧
      ((window f ≤ t.offset ∧ base = t.offset) ∨
        (t.offset < window f ∧ kept f = linesAt newline base data)) := by
  unfold unread
  by_cases hw : window f ≤ t.offset
  · have hmax : max t.offset (f.bytes.length - tailWindow) = t.offset := max_eq_left hw
    refine ⟨t.offset, f.bytes.drop t.offset, ?_, (List.take_append_drop _ _).symm, hle, ?_, le_rfl,
      .inl ⟨hw, rfl⟩⟩
    · simp [hmax]
    · exact fun h => hplain ((List.drop_subset_drop_left f.bytes hw) h)
  · have hw : t.offset < window f := by omega
    have hmax : max t.offset (f.bytes.length - tailWindow) = window f := max_eq_right hw.le
    have hwin : window f ≤ f.bytes.length := Nat.sub_le _ _
    have hsuffix := behind_suffix newline (f.bytes.drop (window f))
    have hshort := hsuffix.length_le
    rw [List.length_drop] at hshort
    obtain ⟨pre, hpre⟩ := hsuffix.trans (List.drop_suffix (window f) f.bytes)
    have hlen := congrArg List.length hpre
    rw [List.length_append] at hlen
    have htake : f.bytes.take (f.bytes.length - (behind newline (f.bytes.drop (window f))).length)
        = pre := by
      rw [← hlen, Nat.add_sub_cancel, ← hpre, List.take_left]
    have hkept : kept f = linesAt newline
        (f.bytes.length - (behind newline (f.bytes.drop (window f))).length)
        (behind newline (f.bytes.drop (window f))) := by
      have hbehind := linesAt_behind newline 0 hwin
      simp only [Nat.zero_add] at hbehind
      rw [← hbehind]
      refine List.filter_congr fun x _ => ?_
      have hne : window f ≠ 0 := by omega
      simp [inWindow, hne]
    refine ⟨f.bytes.length - (behind newline (f.bytes.drop (window f))).length,
      behind newline (f.bytes.drop (window f)), ?_, ?_, Nat.sub_le _ _, ?_, by omega,
      .inr ⟨hw, hkept⟩⟩
    · simp only [hmax]
      rw [if_pos hw]
    · rw [htake, hpre]
    · exact fun h => hplain (hsuffix.subset h)

theorem advance_spec {base : Nat} {data : Bytes} (hm : t.Marked f)
    (hdata : f.bytes = f.bytes.take base ++ data) (hbase : base ≤ f.bytes.length) :
    (t.advance f base data).Marked f ∧ (t.advance f base data).ino = t.ino ∧
      (t.advance f base data).seen = t.seen ∧ (t.advance f base data).records = t.records ∧
      (t.advance f base data).tail = t.tail ∧ (t.advance f base data).offset
        = if wholePart newline data = [] then t.offset else base + (wholePart newline data).length := by
  unfold advance
  by_cases hw : wholePart newline data = []
  · simp only [hw, List.length_nil, if_true]
    exact ⟨hm, trivial, trivial, trivial, trivial, trivial⟩
  · have hne : (wholePart newline data).length ≠ 0 := fun h => hw (List.length_eq_zero_iff.mp h)
    simp only [hw, hne, if_false]
    refine ⟨⟨?_, ?_, rfl, rfl⟩, trivial, trivial, trivial, trivial, trivial⟩
    · have hparts := congrArg List.length (wholePart_append_lastPart newline data)
      have hlen := congrArg List.length hdata
      rw [List.length_append, List.length_take] at hlen
      rw [List.length_append] at hparts
      show base + (wholePart newline data).length ≤ f.bytes.length
      omega
    · show Whole newline (f.bytes.take (base + (wholePart newline data).length))
      have htake : f.bytes.take (base + (wholePart newline data).length)
          = f.bytes.take base ++ wholePart newline data := by
        have hlen : (f.bytes.take base).length = base := by
          rw [List.length_take]
          omega
        calc f.bytes.take (base + (wholePart newline data).length)
            = (f.bytes.take base ++ data).take (base + (wholePart newline data).length) := by
              rw [← hdata]
          _ = f.bytes.take base ++ data.take (wholePart newline data).length := by
              rw [List.take_append, hlen, List.take_of_length_le (by omega), Nat.add_sub_cancel_left]
          _ = f.bytes.take base ++ wholePart newline data := by
              have htake : (wholePart newline data ++ lastPart newline data).take
                  (wholePart newline data).length = wholePart newline data := List.take_left
              rw [wholePart_append_lastPart] at htake
              rw [htake]
      rw [htake]
      rcases whole_wholePart newline data with h | h
      · exact absurd h hw
      · refine .inr ?_
        rw [List.getLast?_append_of_ne_nil _ hw]
        exact h

theorem drop_spec (t : Tail α) (w : Nat) : (t.drop w).ino = t.ino ∧ (t.drop w).seen = t.seen ∧
    (t.drop w).offset = t.offset ∧ (t.drop w).head = t.head ∧
    (t.drop w).fingerprint = t.fingerprint ∧ (t.drop w).tail = t.tail ∧
    ∀ start r, (t.drop w).records[start]? = some r ↔
      (w = 0 ∨ w < start) ∧ t.records[start]? = some r := by
  unfold drop
  by_cases hw : w = 0
  · simp [hw]
  · simp only [hw, if_false]
    refine ⟨trivial, trivial, trivial, trivial, trivial, trivial, fun start r => ?_⟩
    rw [Std.ExtTreeMap.getElem?_filter', Option.filter_eq_some_iff]
    simp [and_comm]

theorem window_eq (f : File) : f.bytes.length - tailWindow = window f := rfl

theorem inWindow_iff {start : Nat} :
    inWindow f start = true ↔ window f = 0 ∨ window f < start := by
  simp [inWindow]

section

variable {base : Nat} {data : Bytes} (hm : t.Marked f)
  (hdata : f.bytes = f.bytes.take base ++ data)
  (hcases : (window f ≤ t.offset ∧ base = t.offset) ∨
    (t.offset < window f ∧ kept f = linesAt newline base data))

include hm hdata

/-- The lines of a file that was scanned up to the offset, read on from there. -/
theorem linesAt_read (hbase : base = t.offset) : linesAt newline 0 f.bytes
    = linesAt newline 0 (f.bytes.take t.offset) ++ linesAt newline base data := by
  subst hbase
  have hlen : (f.bytes.take t.offset).length = t.offset := by
    rw [List.length_take, min_eq_left hm.le]
  have happ := linesAt_append (p := 0) (b := data) hm.whole
  rw [← hdata, hlen, Nat.zero_add] at happ
  exact happ

include hcases

/-- The complete lines in the window were scanned before, or are read now. -/
theorem kept_complete_iff (start : Nat) (line : Bytes) :
    ((start, line) ∈ kept f ∧ complete newline line = true) ↔ inWindow f start = true ∧
      ((start, line) ∈ linesAt newline 0 (f.bytes.take t.offset) ∨
        (start, line) ∈ linesAt newline base (wholePart newline data)) := by
  have hnew : ((start, line) ∈ linesAt newline base data ∧ complete newline line = true) ↔
      (start, line) ∈ linesAt newline base (wholePart newline data) := by
    rw [← filter_complete, List.mem_filter]
  rcases hcases with ⟨hw, hbase⟩ | ⟨hw, hkept⟩
  · unfold kept
    rw [linesAt_read hm hdata hbase, List.mem_filter, List.mem_append, ← hnew]
    constructor
    · rintro ⟨⟨hline | hline, hin⟩, hc⟩
      · exact ⟨hin, .inl hline⟩
      · exact ⟨hin, .inr ⟨hline, hc⟩⟩
    · rintro ⟨hin, hline | ⟨hline, hc⟩⟩
      · exact ⟨⟨.inl hline, hin⟩, complete_of_whole hm.whole _ hline⟩
      · exact ⟨⟨.inr hline, hin⟩, hc⟩
  · constructor
    · rintro ⟨hline, hc⟩
      exact ⟨(List.mem_filter.mp hline).2, .inr (hnew.mp ⟨hkept ▸ hline, hc⟩)⟩
    · rintro ⟨hin, hline | hline⟩
      · have hlt := (start_mem hline).2
        rw [List.length_take] at hlt
        rw [inWindow_iff] at hin
        simp only at hlt
        omega
      · obtain ⟨hline, hc⟩ := hnew.mpr hline
        exact ⟨hkept ▸ hline, hc⟩

/-- The last line without its end, if it is in the window. -/
theorem kept_incomplete_iff (hedged : Edged f) (start : Nat) (line : Bytes) :
    ((start, line) ∈ kept f ∧ complete newline line = false) ↔
      (start, line) ∈ linesAt newline (base + (wholePart newline data).length)
        (lastPart newline data) := by
  have hnew : ((start, line) ∈ linesAt newline base data ∧ complete newline line = false) ↔
      (start, line) ∈ linesAt newline (base + (wholePart newline data).length)
        (lastPart newline data) := by
    rw [← filter_incomplete, List.mem_filter]
    simp
  rcases hcases with ⟨hw, hbase⟩ | ⟨-, hkept⟩
  · unfold kept
    rw [linesAt_read hm hdata hbase, List.mem_filter, List.mem_append]
    constructor
    · rintro ⟨⟨hline | hline, -⟩, hc⟩
      · rw [complete_of_whole hm.whole _ hline] at hc
        cases hc
      · exact hnew.mp ⟨hline, hc⟩
    · intro hline
      obtain ⟨hmem, hc⟩ := hnew.mpr hline
      refine ⟨⟨.inr hmem, inWindow_iff.mpr ?_⟩, hc⟩
      have hstart := (start_mem hline).1
      by_contra hout
      -- the last line starts at the edge of the window, and nothing there ends a line
      have hwhole : (wholePart newline data).length = 0 := by
        simp only at hstart
        omega
      have hedge : t.offset = window f := by
        simp only at hstart
        omega
      refine hedged ⟨by omega, ?_, ?_⟩
      · rcases hm.whole with h | h
        · have hlen := congrArg List.length h
          rw [List.length_take, min_eq_left hm.le, List.length_nil] at hlen
          omega
        · rwa [hedge] at h
      · have hdrop : f.bytes.drop (window f) = data := by
          have hlen : (f.bytes.take t.offset).length = window f := by
            rw [List.length_take, min_eq_left hm.le, hedge]
          have hleft : (f.bytes.take t.offset ++ data).drop (f.bytes.take t.offset).length = data :=
            List.drop_left
          rw [hbase] at hdata
          rwa [← hdata, hlen] at hleft
        rw [hdrop]
        have hparts := wholePart_append_lastPart newline data
        rw [List.length_eq_zero_iff.mp hwhole, List.nil_append] at hparts
        rw [← hparts]
        exact notMem_lastPart newline data
  · rw [hkept]
    exact hnew

end

/-- What is carried over to a refresh, and what is read, is up to date. -/
theorem read_synced {v : Nat} (h : Carried loads t f v)
    (hseen : t.seen = some (f.ino, f.bytes.length, f.mtime)) (hplain : Plain f) (hedged : Edged f) :
    Synced loads (t.read loads f) f := by
  obtain ⟨base, data, hunread, hdata, hbase, hcr, hoffset, hcases⟩ :=
    unread_spec (t := t) h.marked.le hplain
  have hcomplete := kept_complete_iff h.marked hdata hcases
  have hincomplete := kept_incomplete_iff h.marked hdata hcases hedged
  unfold read
  rw [hunread, window_eq]
  simp only
  have hfresh : ∀ start, base ≤ start → ({ t with tail := none } : Tail α).records[start]? = none := by
    intro start hs
    cases hr : t.records[start]? with
    | none => rfl
    | some r =>
      obtain ⟨line, hline, -⟩ := (h.records start r).mp hr
      have hlt := (start_mem hline).2
      rw [List.length_take] at hlt
      omega
  obtain ⟨hrecords, htail⟩ := scan_data loads (t := { t with tail := none }) hcr rfl hfresh
  obtain ⟨hino, hseen', hoff, hhead, hfinger⟩ := scan_fields loads (splitLines data)
    { t with tail := none } base
  generalize ({ t with tail := none } : Tail α).scan loads base (splitLines data) = u
    at hrecords htail hino hseen' hoff hhead hfinger ⊢
  have hmarked : u.Marked f := h.marked.congr hoff hhead hfinger
  obtain ⟨hmarked', hino', hseen'', hrec', htail', hoff'⟩ := advance_spec hmarked hdata hbase
  generalize u.advance f base data = x at hmarked' hino' hseen'' hrec' htail' hoff' ⊢
  obtain ⟨dino, dseen, doff, dhead, dfinger, dtail, drec⟩ := drop_spec x (window f)
  refine ⟨dino.trans (hino'.trans (hino.trans h.ino)), dseen.trans (hseen''.trans (hseen'.trans hseen)),
    hmarked'.congr doff dhead dfinger, ?_, fun start r => ?_, fun start r => ?_⟩
  · rintro ⟨start, line⟩ hline hc
    rw [doff, hoff', hoff]
    rcases ((hcomplete start line).mp ⟨hline, hc⟩).2 with hold | hnew
    · have hlt := (start_mem hold).2
      rw [List.length_take] at hlt
      simp only at hlt ⊢
      split <;> omega
    · have hlt := (start_mem hnew).2
      rw [if_neg fun he => by simp [he, linesAt] at hnew]
      exact hlt
  · rw [drec, hrec', hrecords, ← inWindow_iff (f := f)]
    have hold : ({ t with tail := none } : Tail α).records[start]? = some r ↔ _ := h.records start r
    rw [hold]
    constructor
    · rintro ⟨hin, ⟨line, hline, hr⟩ | ⟨line, hline, -, hr⟩⟩
      · obtain ⟨hk, hc⟩ := (hcomplete start line).mpr ⟨hin, .inr hline⟩
        exact ⟨line, hk, hc, hr⟩
      · obtain ⟨hk, hc⟩ := (hcomplete start line).mpr ⟨hin, .inl hline⟩
        exact ⟨line, hk, hc, hr⟩
    · rintro ⟨line, hk, hc, hr⟩
      obtain ⟨hin, hline | hline⟩ := (hcomplete start line).mp ⟨hk, hc⟩
      · refine ⟨hin, .inr ⟨line, hline, ?_, hr⟩⟩
        have hle := h.le
        rw [inWindow_iff] at hin
        omega
      · exact ⟨hin, .inl ⟨line, hline, hr⟩⟩
  · rw [dtail, htail', htail]
    refine exists_congr fun line => ?_
    rw [← hincomplete start line, and_assoc]

/-! ## The records of a plain scan -/

/-- A dictionary is read in the order of its keys. -/
theorem toList_eq {m : NatMap α} {l : List (Nat × α)} (hl : l.Pairwise fun x y => x.1 < y.1)
    (hmem : ∀ k v, (k, v) ∈ l ↔ m[k]? = some v) : m.toList = l := by
  have hm : m.toList.Pairwise fun x y => x.1 < y.1 :=
    (Std.ExtTreeMap.ordered_keys_toList (t := m)).imp fun h => Nat.compare_eq_lt.mp h
  have hnodup : ∀ {l : List (Nat × α)}, l.Pairwise (fun x y => x.1 < y.1) → l.Nodup := fun h =>
    h.imp fun hlt he => absurd (congrArg Prod.fst he) hlt.ne
  have hperm : m.toList.Perm l := (List.perm_ext_iff_of_nodup (hnodup hm) (hnodup hl)).mpr
    fun x => by rw [natMap_mem_toList, hmem]
  exact hperm.eq_of_pairwise (fun a b _ _ hab hba => absurd hab (Nat.lt_asymm hba)) hm hl

/-- The lines of the window come in order. -/
theorem kept_pairwise (f : File) : (kept f).Pairwise fun x y => x.1 < y.1 :=
  (linesAt_spec newline 0 f.bytes).1.filter _

/-- A tail that is up to date has the records of a plain scan, in order. -/
theorem Synced.items_eq (h : Synced loads t f) : t.items = plainScan loads f := by
  have hsplit : (kept f).filter (fun x => complete newline x.2)
      ++ (kept f).filter (fun x => !complete newline x.2) = kept f := by
    unfold kept
    have hall := congrArg (List.filter fun x => inWindow f x.1)
      (complete_append newline 0 f.bytes)
    rw [List.filter_append, List.filter_filter, List.filter_filter] at hall
    rw [List.filter_filter, List.filter_filter]
    simpa only [Bool.and_comm] using hall
  have hrecords : t.records.toList = ((kept f).filter fun x => complete newline x.2).filterMap
      fun x => (candidate loads x.2).map fun r => (x.1, r) := by
    refine toList_eq ?_ fun start r => ?_
    · refine List.Pairwise.filterMap _ (fun x y hxy a ha b hb => ?_) ((kept_pairwise f).filter _)
      obtain ⟨r, -, rfl⟩ := Option.map_eq_some_iff.mp ha
      obtain ⟨r', -, rfl⟩ := Option.map_eq_some_iff.mp hb
      exact hxy
    · rw [h.records, List.mem_filterMap]
      constructor
      · rintro ⟨x, hx, hr⟩
        obtain ⟨r', hr', he⟩ := Option.map_eq_some_iff.mp hr
        obtain ⟨rfl, rfl⟩ := Prod.mk.inj he
        obtain ⟨hk, hc⟩ := List.mem_filter.mp hx
        exact ⟨x.2, hk, hc, hr'⟩
      · rintro ⟨line, hk, hc, hr⟩
        exact ⟨(start, line), List.mem_filter.mpr ⟨hk, hc⟩, by rw [hr]; rfl⟩
  have htail : (t.tail.map Prod.snd).toList = ((kept f).filter fun x =>
      !complete newline x.2).filterMap fun x => candidate loads x.2 := by
    have hshort : ((kept f).filter fun x => !complete newline x.2) = [] ∨
        ∃ x, ((kept f).filter fun x => !complete newline x.2) = [x] := by
      have hsub : ((kept f).filter fun x => !complete newline x.2).Sublist
          (linesAt newline (0 + (wholePart newline f.bytes).length) (lastPart newline f.bytes)) := by
        rw [← filter_incomplete]
        exact List.Sublist.filter _ List.filter_sublist
      rw [linesAt_plain (notMem_lastPart newline f.bytes)] at hsub
      split at hsub
      · exact .inl (List.sublist_nil.mp hsub)
      · rcases List.sublist_singleton.mp hsub with he | he
        · exact .inl he
        · exact .inr ⟨_, he⟩
    have hmem : ∀ start line, ((start, line) ∈ kept f ∧ complete newline line = false) ↔
        (start, line) ∈ (kept f).filter fun x => !complete newline x.2 := fun start line => by
      rw [List.mem_filter, Bool.not_eq_true']
    have htail : ∀ start r, t.tail = some (start, r) ↔ ∃ line,
        (start, line) ∈ ((kept f).filter fun x => !complete newline x.2) ∧
          candidate loads line = some r := by
      intro start r
      rw [h.tail]
      simp only [← hmem, and_assoc]
    rcases hshort with he | ⟨x, he⟩
    · rw [he] at htail ⊢
      cases ht : t.tail with
      | none => rfl
      | some y => 
        obtain ⟨line, hline, -⟩ := (htail y.1 y.2).mp ht
        cases hline
    · rw [he] at htail ⊢
      cases hc : candidate loads x.2 with
      | none =>
        cases ht : t.tail with
        | none => simp [hc]
        | some y =>
          obtain ⟨line, hline, hr⟩ := (htail y.1 y.2).mp ht
          obtain rfl := List.mem_singleton.mp hline
          rw [hc] at hr
          cases hr
      | some r =>
        rw [(htail x.1 r).mpr ⟨x.2, List.mem_singleton_self x, hc⟩]
        simp [hc]
  unfold items
  rw [plainScan_eq, ← hsplit, List.filterMap_append, htail, hrecords, List.map_filterMap]
  congr 1
  refine List.filterMap_congr fun x _ => ?_
  cases candidate loads x.2 <;> rfl

end Tail

end Receipts
