import Mathlib
import ClaudeManager.Agent.ReceiptTail
import ClaudeManager.Program.Runs

/-!
# Receipts in transcripts

Transcripts are checked again and again for evidence that a notice was received. Between two checks a
file may have grown, may have been replaced, or may have been cut and written anew.

* `transcriptObserved` — one check, by the tails that are kept
* `Continues` — what a file is to the one that was read before it
* `observed_afresh` — checks find what plain scans find
-/

namespace Receipts

open Text Python Program

variable {α : Type}

/-! ## The tails that are kept -/

/-- `_TAIL_FILES`. -/
def tailFiles : Nat := 32

/-- `_tail_items`, of a file that could be opened. The tail used last comes last, and the first ones are
dropped. -/
def tailItems (loads : Bytes → Option α) (tails : List (String × Tail α)) (path : String)
    (file : File) : List (String × Tail α) × List α :=
  let tail := ((tails.find? fun e => e.1 = path).map Prod.snd).getD Tail.new
  let others := tails.filter fun e => e.1 ≠ path
  let others := others.drop (others.length + 1 - tailFiles)
  let tail := tail.refresh loads file
  (others ++ [(path, tail)], tail.items)

/-- A check for a notice. A file that cannot be opened is missing. -/
structure Check where
  path : Option String
  marker : String
  file : Option File

/-- The transcript that is read. -/
def Check.read (c : Check) : Option (String × File) :=
  match c.path, c.file with
  | some path, some file => if path = "" ∨ c.marker = "" then none else some (path, file)
  | _, _ => none

/-- `transcript_observed`. `evidence` tells whether a record is evidence for a marker. -/
def transcriptObserved (loads : Bytes → Option α) (evidence : α → String → Bool)
    (tails : List (String × Tail α)) (c : Check) : List (String × Tail α) × Bool :=
  match c.read with
  | none => (tails, false)
  | some (path, file) =>
    let (tails, items) := tailItems loads tails path file
    (tails, items.any fun item => evidence item c.marker)

/-- The check by a plain scan. -/
def observedAfresh (loads : Bytes → Option α) (evidence : α → String → Bool) (c : Check) : Bool :=
  match c.read with
  | none => false
  | some (_, file) => (plainScan loads file).any fun item => evidence item c.marker

/-! ## Runs -/

/-- The tails, and what was read of transcripts, the last one first. No check reads the latter. -/
structure Reader (α : Type) where
  tails : List (String × Tail α)
  known : List (String × File)

namespace Reader

def start : Reader α := ⟨[], []⟩

/-- The file as it was read the last time. -/
def last (s : Reader α) (path : String) : Option File :=
  (s.known.find? fun e => e.1 = path).map Prod.snd

def step (loads : Bytes → Option α) (evidence : α → String → Bool) (s : Reader α) (c : Check) :
    Reader α :=
  ⟨(transcriptObserved loads evidence s.tails c).1, c.read.toList ++ s.known⟩

end Reader

/-- What a file is to the one `g` that was read before it: another inode, an end before the offset, other
bytes where the refresh compares them, or the same bytes up to the offset and no shorter. -/
structure Continues (t : Tail α) (g f : File) : Prop where
  same : (f.ino, f.bytes.length, f.mtime) = (g.ino, g.bytes.length, g.mtime) → f.bytes = g.bytes
  grown : f.ino = g.ino → t.offset ≤ f.bytes.length →
    f.bytes.take t.offset = g.bytes.take t.offset ∧ g.bytes.length ≤ f.bytes.length ∨
      f.slice 0 (min fingerprintSize t.offset) ≠ g.slice 0 (min fingerprintSize t.offset) ∨
      f.slice (t.offset - min fingerprintSize t.offset) (min fingerprintSize t.offset)
        ≠ g.slice (t.offset - min fingerprintSize t.offset) (min fingerprintSize t.offset)

/-- The condition on a check: of a transcript that is read. -/
def Fits (s : Reader α) (c : Check) : Prop :=
  ∀ path file, c.read = some (path, file) → Tail.Plain file ∧ Tail.Edged file ∧
    ∀ tail g, (path, tail) ∈ s.tails → s.last path = some g → Continues tail g file

namespace Tail

variable {loads : Bytes → Option α} {t : Tail α} {f g : File}

theorem slice_length (h : t.offset ≤ g.bytes.length) :
    (g.slice 0 (min fingerprintSize t.offset)).length = min fingerprintSize t.offset ∧
      (g.slice (t.offset - min fingerprintSize t.offset) (min fingerprintSize t.offset)).length
        = min fingerprintSize t.offset := by
  unfold File.slice
  simp only [List.length_take, List.length_drop]
  omega

/-- A scan that starts over carries over nothing. -/
theorem reset_carried (t : Tail α) (f : File) : Carried loads (t.reset f.ino) f 0 := by
  refine ⟨rfl, ⟨Nat.zero_le _, .inl rfl, rfl, rfl⟩, Nat.zero_le _, fun start r => ?_⟩
  simp [reset, linesAt]

/-- The complete lines in the window are those that were scanned. -/
theorem scanned_iff (h : Synced loads t g) (start : Nat) (line : Bytes) :
    ((start, line) ∈ kept g ∧ complete newline line = true) ↔
      (start, line) ∈ linesAt newline 0 (g.bytes.take t.offset) ∧
        (window g = 0 ∨ window g < start) := by
  have hlen : (g.bytes.take t.offset).length = t.offset := by
    rw [List.length_take, min_eq_left h.marked.le]
  have happ := linesAt_append (p := 0) (b := g.bytes.drop t.offset) h.marked.whole
  rw [List.take_append_drop, hlen, Nat.zero_add] at happ
  constructor
  · rintro ⟨hk, hc⟩
    have hlt := h.scanned _ hk hc
    obtain ⟨hmem, hin⟩ := List.mem_filter.mp hk
    rw [happ, List.mem_append] at hmem
    refine ⟨hmem.resolve_right fun hlate => ?_, inWindow_iff.mp hin⟩
    have hge := (start_mem hlate).1
    omega
  · rintro ⟨hmem, hin⟩
    refine ⟨List.mem_filter.mpr ⟨?_, inWindow_iff.mpr hin⟩, complete_of_whole h.marked.whole _ hmem⟩
    rw [happ]
    exact List.mem_append_left _ hmem

theorem check_carried (h : Synced loads t g) (hc : Continues t g f) :
    ∃ v, Carried loads (t.check f) f v := by
  by_cases hreset : t.ino ≠ some f.ino ∨ f.bytes.length < t.offset
  · refine ⟨0, ?_⟩
    unfold check
    rw [if_pos hreset]
    exact reset_carried t f
  · by_cases hother : t.offset ≠ 0 ∧ (f.slice 0 t.head.length ≠ t.head ∨
        f.slice (t.offset - t.fingerprint.length) t.fingerprint.length ≠ t.fingerprint)
    · refine ⟨0, ?_⟩
      unfold check
      rw [if_neg hreset, if_pos hother]
      exact reset_carried t f
    · refine ⟨window g, ?_⟩
      unfold check
      rw [if_neg hreset, if_neg hother]
      obtain ⟨hino, hle⟩ := not_or.mp hreset
      have hino : t.ino = some f.ino := not_not.mp hino
      have hsame : f.ino = g.ino := Option.some.inj (hino.symm.trans h.ino)
      obtain ⟨hhead, hfinger⟩ := slice_length h.marked.le
      rw [← h.marked.head] at hhead
      rw [← h.marked.fingerprint] at hfinger
      rw [hhead, hfinger, h.marked.head, h.marked.fingerprint] at hother
      obtain ⟨htake, hlen⟩ : f.bytes.take t.offset = g.bytes.take t.offset ∧
          g.bytes.length ≤ f.bytes.length := by
        rcases hc.grown hsame (not_lt.mp hle) with hgrown | hslice
        · exact hgrown
        · by_cases hzero : t.offset = 0
          · simp [File.slice, hzero] at hslice
          · exact absurd ⟨hzero, hslice⟩ hother
      have hslices : f.slice 0 (min fingerprintSize t.offset)
            = g.slice 0 (min fingerprintSize t.offset) ∧
          f.slice (t.offset - min fingerprintSize t.offset) (min fingerprintSize t.offset)
            = g.slice (t.offset - min fingerprintSize t.offset) (min fingerprintSize t.offset) := by
        by_cases hzero : t.offset = 0
        · simp [File.slice, hzero]
        · exact ⟨not_not.mp fun hne => hother ⟨hzero, .inl hne⟩,
            not_not.mp fun hne => hother ⟨hzero, .inr hne⟩⟩
      refine ⟨hino, ⟨not_lt.mp hle, ?_, ?_, ?_⟩, Nat.sub_le_sub_right hlen _, fun start r => ?_⟩
      · rw [htake]
        exact h.marked.whole
      · rw [hslices.1]
        exact h.marked.head
      · rw [hslices.2]
        exact h.marked.fingerprint
      · rw [h.records, htake]
        refine exists_congr fun line => ?_
        rw [← and_assoc, ← and_assoc]
        refine and_congr_left fun _ => ?_
        exact scanned_iff h start line

theorem check_seen (t : Tail α) (f : File) (seen : Option (Nat × Nat × Int)) :
    ({ t with seen := seen } : Tail α).check f = { t.check f with seen := seen } := by
  unfold check
  split
  · rfl
  · split <;> rfl

theorem new_synced (hplain : Plain f) (hedged : Edged f) :
    Synced loads ((new : Tail α).refresh loads f) f := by
  unfold refresh
  rw [if_neg (by simp [new])]
  refine read_synced (v := 0) ?_ ?_ hplain hedged
  · unfold check
    rw [if_pos (by simp [new])]
    exact reset_carried _ f
  · rw [check_seen]

theorem refresh_synced (h : Synced loads t g) (hc : Continues t g f) (hplain : Plain f)
    (hedged : Edged f) : Synced loads (t.refresh loads f) f := by
  unfold refresh
  by_cases hseen : t.seen = some (f.ino, f.bytes.length, f.mtime)
  · rw [if_pos hseen]
    have hkey := Option.some.inj (hseen.symm.trans h.seen)
    have hfg : f = g := by
      obtain ⟨ino, mtime, bytes⟩ := f
      obtain ⟨ino', mtime', bytes'⟩ := g
      obtain ⟨rfl, hrest⟩ := Prod.mk.inj hkey
      obtain ⟨-, rfl⟩ := Prod.mk.inj hrest
      have hbytes : bytes = bytes' := hc.same hkey
      rw [hbytes]
    rw [hfg]
    exact h
  · rw [if_neg hseen]
    obtain ⟨v, hcarried⟩ := check_carried h hc
    rw [check_seen]
    exact read_synced (v := v) ⟨hcarried.ino, hcarried.marked.congr rfl rfl rfl, hcarried.le,
      hcarried.records⟩ rfl hplain hedged

end Tail

/-! ## Files that go on -/

/-- A file that grew. -/
theorem Continues.of_append {t : Tail α} {g f : File} (hle : t.offset ≤ g.bytes.length)
    (h : g.bytes <+: f.bytes) (hlt : g.bytes.length < f.bytes.length) : Continues t g f := by
  refine ⟨fun hsame => ?_, fun _ _ => .inl ⟨?_, hlt.le⟩⟩
  · have hlen : f.bytes.length = g.bytes.length := (Prod.mk.inj (Prod.mk.inj hsame).2).1
    omega
  · obtain ⟨more, hmore⟩ := h
    rw [← hmore, List.take_append_of_le_length hle]

/-- Another file in its place. -/
theorem Continues.of_replaced {t : Tail α} {g f : File} (h : f.ino ≠ g.ino) : Continues t g f :=
  ⟨fun hsame => absurd (Prod.mk.inj hsame).1 h, fun hino => absurd hino h⟩

/-- A file that was cut below the offset, before it grows. -/
theorem Continues.of_cut {t : Tail α} {g f : File} (hle : t.offset ≤ g.bytes.length)
    (h : f.bytes.length < t.offset) : Continues t g f := by
  refine ⟨fun hsame => ?_, fun _ hge => by omega⟩
  have hlen : f.bytes.length = g.bytes.length := (Prod.mk.inj (Prod.mk.inj hsame).2).1
  omega

/-! ## Every check of a run -/

variable {loads : Bytes → Option α} {evidence : α → String → Bool}

/-- Each tail is up to date with its transcript as it was read the last time. -/
def Reader.Fresh (loads : Bytes → Option α) (s : Reader α) : Prop :=
  ∀ path tail, (path, tail) ∈ s.tails → ∃ g, s.last path = some g ∧ Tail.Synced loads tail g

theorem tailItems_spec {s : Reader α} {path : String} {file : File} (h : s.Fresh loads)
    (hplain : Tail.Plain file) (hedged : Tail.Edged file)
    (hc : ∀ tail g, (path, tail) ∈ s.tails → s.last path = some g → Continues tail g file) :
    (tailItems loads s.tails path file).2 = plainScan loads file ∧
      Reader.Fresh loads ⟨(tailItems loads s.tails path file).1, (path, file) :: s.known⟩ := by
  have hsynced : Tail.Synced loads ((((s.tails.find? fun e => e.1 = path).map Prod.snd).getD
      Tail.new).refresh loads file) file := by
    cases hfind : s.tails.find? fun e => e.1 = path with
    | none => exact Tail.new_synced hplain hedged
    | some e =>
      have hpath : e.1 = path := by simpa using List.find?_some hfind
      have hmem : (path, e.2) ∈ s.tails := hpath ▸ List.mem_of_find?_eq_some hfind
      obtain ⟨g, hg, hs⟩ := h path e.2 hmem
      exact Tail.refresh_synced hs (hc e.2 g hmem hg) hplain hedged
  refine ⟨hsynced.items_eq, fun path' tail htail => ?_⟩
  unfold tailItems at htail
  simp only [List.mem_append, List.mem_singleton] at htail
  rcases htail with htail | htail
  · obtain ⟨hmem, hne⟩ := List.mem_filter.mp (List.mem_of_mem_drop htail)
    have hne : path' ≠ path := of_decide_eq_true hne
    obtain ⟨g, hg, hs⟩ := h path' tail hmem
    refine ⟨g, ?_, hs⟩
    unfold Reader.last
    rw [List.find?_cons_of_neg (by simpa using hne.symm)]
    exact hg
  · obtain ⟨rfl, rfl⟩ := Prod.mk.inj htail
    refine ⟨file, ?_, hsynced⟩
    unfold Reader.last
    rw [List.find?_cons_of_pos (by simp)]
    rfl

theorem fresh_step (evidence : α → String → Bool) {s : Reader α} {c : Check} (h : s.Fresh loads) (hc : Fits s c) :
    (s.step loads evidence c).Fresh loads := by
  unfold Reader.step transcriptObserved
  cases hread : c.read with
  | none => exact h
  | some e =>
    obtain ⟨hplain, hedged, hcont⟩ := hc e.1 e.2 hread
    exact (tailItems_spec h hplain hedged hcont).2

theorem observed_step {s : Reader α} {c : Check} (h : s.Fresh loads) (hc : Fits s c) :
    (transcriptObserved loads evidence s.tails c).2 = observedAfresh loads evidence c := by
  unfold transcriptObserved observedAfresh
  cases hread : c.read with
  | none => rfl
  | some e =>
    obtain ⟨hplain, hedged, hcont⟩ := hc e.1 e.2 hread
    show (tailItems loads s.tails e.1 e.2).2.any _ = _
    rw [(tailItems_spec h hplain hedged hcont).1]

/-- A record of a complete line is found until its line starts in front of the window. -/
theorem found_on {f g : File} (h : f.bytes <+: g.bytes) {start : Nat} {line : Bytes} {r : α}
    (hline : (start, line) ∈ kept f) (hc : complete newline line = true)
    (hr : candidate loads line = some r) (hin : inWindow g start = true) :
    r ∈ plainScan loads g := by
  rw [plainScan_eq]
  refine List.mem_filterMap.mpr ⟨(start, line), List.mem_filter.mpr ⟨?_, hin⟩, hr⟩
  obtain ⟨more, hmore⟩ := h
  have hwhole : (start, line) ∈ linesAt newline 0 (wholePart newline f.bytes) := by
    rw [← filter_complete]
    exact List.mem_filter.mpr ⟨(List.mem_filter.mp hline).1, hc⟩
  rw [← hmore, ← wholePart_append_lastPart newline f.bytes, List.append_assoc,
    linesAt_append (whole_wholePart newline f.bytes)]
  exact List.mem_append_left _ hwhole

/-- **In a run of checks that each meet the condition, a check finds what a plain scan of the
transcript's last bytes finds:** the tail has its records, in order, and the answer is the same. A
record that is in a complete line stays, while the file grows, until its line is out of the window. -/
theorem observed_afresh (checks : List Check)
    (h : Meets (Reader.step loads evidence) Fits Reader.start checks) :
    ∀ before c after, checks = before ++ c :: after →
      (transcriptObserved loads evidence
          (before.foldl (Reader.step loads evidence) Reader.start).tails c).2
        = observedAfresh loads evidence c ∧
      ∀ path file, c.read = some (path, file) →
        (tailItems loads (before.foldl (Reader.step loads evidence) Reader.start).tails path file).2
          = plainScan loads file ∧
        ∀ f start line r, f.bytes <+: file.bytes → (start, line) ∈ kept f →
          complete newline line = true → candidate loads line = some r →
          inWindow file start = true →
          r ∈ (tailItems loads (before.foldl (Reader.step loads evidence) Reader.start).tails
            path file).2 := by
  rintro before c after rfl
  obtain ⟨hbefore, hc⟩ := h.of_append
  have hfresh : (before.foldl (Reader.step loads evidence) Reader.start).Fresh loads :=
    Meets.invariant (I := Reader.Fresh loads) (fun s c hs hc => fresh_step evidence hs hc)
      (fun _ _ hmem => absurd hmem List.not_mem_nil) hbefore
  refine ⟨observed_step hfresh hc.1, fun path file hread => ?_⟩
  obtain ⟨hplain, hedged, hcont⟩ := hc.1 path file hread
  have hitems := (tailItems_spec hfresh hplain hedged hcont).1
  refine ⟨hitems, fun f start line r hprefix hline hcomplete hr hin => ?_⟩
  rw [hitems]
  exact found_on hprefix hline hcomplete hr hin

/-! ## A notice that is received, and one that is missed -/

/-- A transcript with the start of a record. -/
def halfFile : File := ⟨1, 0, asciiBytes "\x7b\"origin\":"⟩

/-- The record is written. -/
def wholeFile : File := ⟨1, 1, asciiBytes "\x7b\"origin\":1\x7d\n"⟩

/-- The object of that line. -/
def loadsWhole (line : Bytes) : Option Unit :=
  if line = asciiBytes "\x7b\"origin\":1\x7d\n" then some () else none

theorem observed_afresh_whole :
    (transcriptObserved loadsWhole (fun _ _ => true)
      ([⟨some "t", "m", some halfFile⟩].foldl (Reader.step loadsWhole fun _ _ => true)
        Reader.start).tails ⟨some "t", "m", some wholeFile⟩).2
      = observedAfresh loadsWhole (fun _ _ => true) ⟨some "t", "m", some wholeFile⟩ := by
  have hhalf : Tail.Plain halfFile ∧ Tail.Edged halfFile := by
    unfold Tail.Plain Tail.Edged
    decide +kernel
  have hwhole : Tail.Plain wholeFile ∧ Tail.Edged wholeFile := by
    unfold Tail.Plain Tail.Edged
    decide +kernel
  have hfirst : Fits (Reader.start : Reader Unit) ⟨some "t", "m", some halfFile⟩ := by
    intro path file hread
    obtain ⟨rfl, rfl⟩ := Prod.mk.inj (Option.some.inj hread)
    exact ⟨hhalf.1, hhalf.2, fun _ _ hmem => absurd hmem List.not_mem_nil⟩
  have hstart : Reader.Fresh loadsWhole Reader.start := fun _ _ hmem =>
    absurd hmem List.not_mem_nil
  have hfresh := fresh_step (fun _ _ => true) hstart hfirst
  refine (observed_afresh [⟨some "t", "m", some halfFile⟩, ⟨some "t", "m", some wholeFile⟩]
    ⟨hfirst, ?_, trivial⟩ [_] _ [] rfl).1
  intro path file hread
  obtain ⟨rfl, rfl⟩ := Prod.mk.inj (Option.some.inj hread)
  refine ⟨hwhole.1, hwhole.2, fun tail g hmem hlast => ?_⟩
  obtain ⟨g', hg', hs⟩ := hfresh _ tail hmem
  obtain rfl := Option.some.inj (hlast.symm.trans hg')
  have hg : halfFile = g := Option.some.inj hlast
  subst hg
  exact Continues.of_append hs.marked.le (by decide +kernel) (by decide +kernel)

/-- A record whose object has a carriage return between two members. -/
def returnFile : File := ⟨1, 0, asciiBytes "\x7b\"origin\":1,\r\"x\":2\x7d\n"⟩

/-- The object of that line; its parts are not objects. -/
def loadsReturn (line : Bytes) : Option Unit :=
  if line = asciiBytes "\x7b\"origin\":1,\r\"x\":2\x7d\n" then some () else none

theorem misses_return :
    (transcriptObserved loadsReturn (fun _ _ => true) [] ⟨some "t", "m", some returnFile⟩).2
      ≠ observedAfresh loadsReturn (fun _ _ => true) ⟨some "t", "m", some returnFile⟩ := by
  decide +kernel

end Receipts
