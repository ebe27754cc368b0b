import ClaudeManager.Messaging.Base
import ClaudeManager.Program.Stateful
import ClaudeManager.Text.Calendar
import ClaudeManager.Text.Numbers
import ClaudeManager.Text.Utf8

/-!
# Timestamps of queue items

The parser that reads when the oldest item was queued, over bytes as the source has it, and the
grammar that it documents.

* `daysFromCivil_eq` — its day count is the calendar's
* `parseTrimmed_some` — it gives the instant that a text denotes in the lenient grammar
* `parseTrimmed_error` — it panics where an offset of four bytes splits a character
* `parseIso8601Unix_documented` — when it keeps to the documented grammar
-/

namespace ClaudeManager

open Text Calendar Program

/-! ## The parser -/

/-- Days from 1970-01-01 to `y-m-d`. -/
def daysFromCivil (y : Int) (m d : Nat) : Int :=
  let y := if m ≤ 2 then y - 1 else y
  let era := (if y ≥ 0 then y else y - 399).tdiv 400
  let yoe := y - era * 400
  let mp : Int := ((m + 9) % 12 : Nat)
  let doy := (153 * mp + 2).tdiv 5 + d - 1
  let doe := yoe * 365 + yoe.tdiv 4 - yoe.tdiv 100 + doy
  era * 146097 + doe - 719468

def num (s : List Char) (low high : Nat) : Option Int := (slice s low high).bind parseInt

/-- The fields up to the zone, and where the zone begins. -/
structure Fields where
  year : Int
  month : Int
  day : Int
  hour : Int
  minute : Int
  second : Int
  idx : Nat

/-- Optional seconds, with a fraction that is cut off. -/
def parseSeconds (s : List Char) : Option (Int × Nat) :=
  if byteIs s 16 ':' then do
    let second ← num s 17 19
    guard (0 ≤ second ∧ second ≤ 60)
    -- A leap second is read as the one before it.
    let second := min second 59
    if byteIs s 19 '.' then
      let digits := ((utf8Bytes s).drop 20).takeWhile fun b => 48 ≤ b.toNat && b.toNat ≤ 57
      return (second, 20 + digits.length)
    else return (second, 19)
  else some (0, 16)

def parseFields (s : List Char) : Option Fields := do
  guard (16 ≤ utf8Len s)
  guard (byteIs s 4 '-' ∧ byteIs s 7 '-' ∧ (byteIs s 10 'T' ∨ byteIs s 10 ' '))
  let year ← num s 0 4
  let month ← num s 5 7
  let day ← num s 8 10
  guard (byteIs s 13 ':')
  let hour ← num s 11 13
  let minute ← num s 14 16
  guard (1 ≤ month ∧ month ≤ 12 ∧ 1 ≤ day ∧ day ≤ 31)
  guard (0 ≤ hour ∧ hour ≤ 23 ∧ 0 ≤ minute ∧ minute ≤ 59)
  let (second, idx) ← parseSeconds s
  return { year, month, day, hour, minute, second, idx }

/-- The hours and minutes of an offset, as text. -/
def offsetParts (rest : List Char) : Except Panic (Option (List Char × List Char)) :=
  if utf8Len rest = 5 ∧ byteIs rest 2 ':' then do
    let oh ← index rest 0 2
    let om ← index rest 3 5
    return some (oh, om)
  else if utf8Len rest = 4 then do
    let oh ← index rest 0 2
    let om ← index rest 2 4
    return some (oh, om)
  else if utf8Len rest = 2 then do
    let oh ← index rest 0 2
    return some (oh, ['0'])
  else return none

/-- The seconds of an offset. -/
def offsetSeconds (sign : Int) (parts : List Char × List Char) : Option Int := do
  let oh ← parseInt parts.1
  let om ← parseInt parts.2
  guard (0 ≤ oh ∧ oh ≤ 23 ∧ 0 ≤ om ∧ om ≤ 59)
  return sign * (oh * 3600 + om * 60)

def parseOffset (s : List Char) (idx : Nat) (sign : Int) : Except Panic (Option Int) :=
  match dropBytes (idx + 1) s with
  | none => return none
  | some rest => do
    match ← offsetParts rest with
    | none => return none
    | some parts => return offsetSeconds sign parts

/-- The zone: nothing or `Z` for UTC, or an offset from it. -/
def parseZone (s : List Char) (idx : Nat) : Except Panic (Option Int) :=
  if utf8Len s ≤ idx then return some 0
  else if (byteIs s idx 'Z' ∨ byteIs s idx 'z') ∧ idx + 1 = utf8Len s then return some 0
  else if byteIs s idx '+' then parseOffset s idx 1
  else if byteIs s idx '-' then parseOffset s idx (-1)
  else return none

/-- The instant of the fields. -/
def Fields.epoch (f : Fields) (offset : Int) : Int :=
  daysFromCivil f.year f.month.toNat f.day.toNat * 86400 + f.hour * 3600 + f.minute * 60 + f.second
    - offset

/-- `u64::try_from(v).ok()` -/
def toU64 (v : Int) : Option Nat := if 0 ≤ v then some v.toNat else none

def parseTrimmed (s : List Char) : Except Panic (Option Nat) :=
  match parseFields s with
  | none => return none
  | some fields => do
    match ← parseZone s fields.idx with
    | none => return none
    | some offset => return toU64 (fields.epoch offset)

/-- A timestamp in Unix seconds. -/
def parseIso8601Unix (s : String) : Except Panic (Option Nat) := parseTrimmed (trimmed s).toList

/-! ## The grammar -/

/-- How the parts of a timestamp are read. -/
structure Reading where
  number : List Char → Option Int
  dayOf : Int → Int → Int → Prop
  fraction : List Char → Prop
  utc : Char → Prop

/-- The documented grammar: digits only, days that the month has. -/
def documented : Reading where
  number := digitsValue
  dayOf y m d := d ≤ monthLength y m
  fraction ds := ds ≠ []
  utc c := c = 'Z'

/-- The same with signs in the fields, days up to 31 in any month, a fraction without digits and a
small `z`. -/
def lenient : Reading where
  number := parseInt
  dayOf _ _ d := d ≤ 31
  fraction _ := True
  utc c := c = 'Z' ∨ c = 'z'

namespace Reading

variable (r : Reading)

/-- A field of so many characters, with its value in a range. -/
structure Field (text : List Char) (width : Nat) (low high value : Int) : Prop where
  size : text.length = width
  reads : r.number text = some value
  range : low ≤ value ∧ value ≤ high

/-- The seconds, where there are any. -/
inductive Seconds : List Char → Int → Prop
  | none : Seconds [] 0
  | whole {f : List Char} {v : Int} : r.Field f 2 0 60 v → Seconds (':' :: f) (min v 59)
  | fraction {f ds : List Char} {v : Int} : r.Field f 2 0 60 v → ds.all Char.isDigit = true →
      r.fraction ds → Seconds (':' :: (f ++ '.' :: ds)) (min v 59)

/-- The sign of an offset. -/
def Sign (c : Char) (k : Int) : Prop := c = '+' ∧ k = 1 ∨ c = '-' ∧ k = -1

/-- The offset from UTC in seconds. -/
inductive Zone : List Char → Int → Prop
  | none : Zone [] 0
  | utc {c : Char} : r.utc c → Zone [c] 0
  | hours {c : Char} {k oh : Int} {h : List Char} : Sign c k → r.Field h 2 0 23 oh →
      Zone (c :: h) (k * (oh * 3600 + 0 * 60))
  | compact {c : Char} {k oh om : Int} {h m : List Char} : Sign c k → r.Field h 2 0 23 oh →
      r.Field m 2 0 59 om → Zone (c :: (h ++ m)) (k * (oh * 3600 + om * 60))
  | colon {c : Char} {k oh om : Int} {h m : List Char} : Sign c k → r.Field h 2 0 23 oh →
      r.Field m 2 0 59 om → Zone (c :: (h ++ ':' :: m)) (k * (oh * 3600 + om * 60))

/-- The date and the time of a text, up to the zone, with what is left for it. -/
inductive Moment : List Char → Fields → List Char → Prop
  | mk {fy fm fd fh fi fs zone : List Char} {sep : Char} {year month day hour minute second : Int}
      {idx : Nat} : fy.length = 4 → r.number fy = some year → r.Field fm 2 1 12 month → r.Field fd 2 1 31 day →
      r.dayOf year month day → (sep = 'T' ∨ sep = ' ') → r.Field fh 2 0 23 hour →
      r.Field fi 2 0 59 minute → r.Seconds fs second → idx = 16 + fs.length →
      Moment (fy ++ '-' :: (fm ++ '-' :: (fd ++ sep :: (fh ++ ':' :: (fi ++ (fs ++ zone))))))
        ⟨year, month, day, hour, minute, second, idx⟩ zone

/-- The instant that a text denotes. -/
def Denotes (text : List Char) (t : Int) : Prop :=
  ∃ (f : Fields) (zone : List Char) (offset : Int), r.Moment text f zone ∧ r.Zone zone offset
    ∧ t = dayNumber f.year f.month.toNat f.day * 86400 + f.hour * 3600 + f.minute * 60 + f.second - offset

end Reading

/-- The text has four bytes, and the second of them does not end a character. -/
def SplitsChar (rest : List Char) : Prop := utf8Len rest = 4 ∧ ¬ ∃ h m, rest = h ++ m ∧ utf8Len h = 2

/-- Date and time are followed by an offset like that. -/
def SplitsOffset (text : List Char) : Prop :=
  ∃ (f : Fields) (c : Char) (k : Int) (rest : List Char),
    lenient.Moment text f (c :: rest) ∧ Reading.Sign c k ∧ SplitsChar rest

/-! ## The calendar -/

theorem era_eq (y : Int) : (if y ≥ 0 then y else y - 399).tdiv 400 = y / 400 := by
  split
  · rw [Int.tdiv_eq_ediv_of_nonneg ‹_›]
  · have hneg : y - 399 = -(399 - y) := by omega
    rw [hneg, Int.neg_tdiv, Int.tdiv_eq_ediv_of_nonneg (by omega)]
    omega

/-- An era and the years in it, in days. -/
theorem era_days (y k : Int) : y / 400 * 146097 + ((y - y / 400 * 400) * 365 + (y - y / 400 * 400) / 4
    - (y - y / 400 * 400) / 100 + k) = 365 * y + y / 4 - y / 100 + y / 400 + k := by
  have h4 : (y - y / 400 * 400) / 4 = y / 4 - y / 400 * 100 := by omega
  have h100 : (y - y / 400 * 400) / 100 = y / 100 - y / 400 * 4 := by omega
  rw [h4, h100]
  ring

/-- Counting from March in eras of 400 years gives the days of the calendar. -/
theorem daysFromCivil_eq (y : Int) {m : Nat} (hlow : 1 ≤ m) (hhigh : m ≤ 12) (d : Nat) :
    daysFromCivil y m d = dayNumber y m d := by
  have hyoe : ∀ y : Int, 0 ≤ y - y / 400 * 400 := fun y => by omega
  have hmonths := daysBeforeMonth_eq y hlow hhigh
  have hleap := leapDay_eq y
  unfold daysFromCivil dayNumber daysBeforeYear
  simp only [era_eq, Int.tdiv_eq_ediv_of_nonneg (hyoe _), era_days]
  rw [Int.tdiv_eq_ediv_of_nonneg (by omega), hmonths, hleap]
  split <;> omega

/-! ## Bytes after a known part -/

section

variable {s f r : List Char} {c : Char} {i : Nat}

/-- The number where a part ends: as many characters as bytes. -/
theorem num_at {j : Nat} {v : Int} (hf : utf8Len f = i) :
    num (f ++ r) i j = some v ↔ ∃ m r', r = m ++ r' ∧ m.length = j - i ∧ parseInt m = some v := by
  unfold num
  rw [Option.bind_eq_some_iff]
  simp only [slice_at hf]
  constructor
  · rintro ⟨m, ⟨r', rfl, hlen⟩, hv⟩
    rw [(parseInt_ascii hv).utf8Len] at hlen
    exact ⟨m, r', rfl, hlen, hv⟩
  · rintro ⟨m, r', rfl, hlen, hv⟩
    exact ⟨m, ⟨r', rfl, (parseInt_ascii hv).utf8Len.trans hlen⟩, hv⟩

/-- A number and the character after it, behind a known part. -/
theorem cut {j : Nat} {v : Int} (hs : s = f ++ r) (hf : utf8Len f = i) (hij : i ≤ j) (hc : c.toNat < 128)
    (hnum : num s i j = some v) (hbyte : byteIs s j c = true) :
    ∃ m r', r = m ++ c :: r' ∧ m.length = j - i ∧ parseInt m = some v
      ∧ s = f ++ (m ++ [c]) ++ r' ∧ utf8Len (f ++ (m ++ [c])) = j + 1 := by
  subst hs
  obtain ⟨m, r', rfl, hlen, hv⟩ := (num_at hf).mp hnum
  have hm : utf8Len (f ++ m) = j := by
    rw [utf8Len_append, (parseInt_ascii hv).utf8Len]
    omega
  rw [← List.append_assoc] at hbyte
  obtain ⟨r'', rfl⟩ := (byteIs_at hc hm).mp hbyte
  refine ⟨m, r'', rfl, hlen, hv, by simp only [List.append_assoc, List.singleton_append], ?_⟩
  rw [← List.append_assoc, utf8Len_append, hm, utf8Len_cons, utf8Size_ascii hc, utf8Len_nil]

/-- A field and the character after it are read behind a known part. -/
theorem paste {m : List Char} {j : Nat} {v : Int} (hs : s = f ++ (m ++ c :: r)) (hf : utf8Len f = i)
    (hij : i ≤ j) (hc : c.toNat < 128) (hlen : m.length = j - i) (hv : parseInt m = some v) :
    num s i j = some v ∧ byteIs s j c = true
      ∧ s = f ++ (m ++ [c]) ++ r ∧ utf8Len (f ++ (m ++ [c])) = j + 1 := by
  have hm : utf8Len (f ++ m) = j := by
    rw [utf8Len_append, (parseInt_ascii hv).utf8Len]
    omega
  subst hs
  refine ⟨(num_at hf).mpr ⟨m, c :: r, rfl, hlen, hv⟩, ?_, by simp only [List.append_assoc, List.singleton_append], ?_⟩
  · rw [← List.append_assoc]
    exact (byteIs_at hc hm).mpr ⟨r, rfl⟩
  · rw [← List.append_assoc, utf8Len_append, hm, utf8Len_cons, utf8Size_ascii hc, utf8Len_nil]

end

/-- The bytes of digits at the front are those of digit characters. -/
theorem digitBytes (r : List Char) :
    ((utf8Bytes r).takeWhile fun b => 48 ≤ b.toNat && b.toNat ≤ 57).length = (r.takeWhile Char.isDigit).length := by
  induction r with
  | nil => rfl
  | cons c r ih =>
    have hbytes : utf8Bytes (c :: r) = String.utf8EncodeChar c ++ utf8Bytes r := List.flatMap_cons
    rw [hbytes]
    by_cases hc : c.toNat < 128
    · have hbyte : (UInt8.ofNat c.toNat).toNat = c.toNat := by
        rw [UInt8.toNat_ofNat']
        omega
      have hdigit : (48 ≤ c.toNat && c.toNat ≤ 57) = c.isDigit := by
        unfold Char.isDigit
        rfl
      rw [utf8EncodeChar_ascii hc, List.singleton_append, List.takeWhile_cons, List.takeWhile_cons, hbyte,
        hdigit]
      cases c.isDigit with
      | true => simp only [if_true, List.length_cons, ih]
      | false => rfl
    · -- The first byte of another character is not a digit.
      have hdigit : c.isDigit = false := by
        rw [← Bool.not_eq_true]
        exact fun h => hc (isDigit_ascii h)
      obtain ⟨b, bs, hbs⟩ : ∃ b bs, String.utf8EncodeChar c = b :: bs := by
        cases he : String.utf8EncodeChar c with
        | nil =>
          have hlen := String.length_utf8EncodeChar c
          rw [he] at hlen
          exact absurd hlen.symm (Char.utf8Size_pos c).ne'
        | cons b bs => exact ⟨b, bs, rfl⟩
      have hb := ge_of_mem_utf8EncodeChar hc (b := b) (by rw [hbs]; exact List.mem_cons_self)
      have hfirst : (decide (48 ≤ b.toNat) && decide (b.toNat ≤ 57)) = false := by
        rw [decide_eq_false (show ¬ b.toNat ≤ 57 by omega), Bool.and_false]
      rw [hbs, List.cons_append, List.takeWhile_cons, List.takeWhile_cons, hfirst, hdigit]
      rfl

/-! ## Fields -/

/-- A rest that neither goes on with digits nor begins seconds or a fraction. -/
def ZoneHead (zone : List Char) : Prop :=
  zone = [] ∨ ∃ c r, zone = c :: r ∧ (c = 'Z' ∨ c = 'z' ∨ c = '+' ∨ c = '-')

theorem ZoneHead.ne {zone r : List Char} {c : Char} (h : ZoneHead zone)
    (hc : c ≠ 'Z' ∧ c ≠ 'z' ∧ c ≠ '+' ∧ c ≠ '-') : zone ≠ c :: r := by
  rintro rfl
  obtain hz | ⟨d, r', hz, hd⟩ := h
  · cases hz
  · obtain ⟨rfl, -⟩ := List.cons.inj hz
    obtain ⟨h1, h2, h3, h4⟩ := hc
    rcases hd with hd | hd | hd | hd
    · exact h1 hd
    · exact h2 hd
    · exact h3 hd
    · exact h4 hd

theorem ZoneHead.takeWhile {zone ds : List Char} (h : ZoneHead zone) (hds : ds.all Char.isDigit = true) :
    (ds ++ zone).takeWhile Char.isDigit = ds := by
  rw [List.takeWhile_append_of_pos (List.all_eq_true.mp hds)]
  obtain rfl | ⟨c, r, rfl, hc⟩ := h
  · rw [List.takeWhile_nil, List.append_nil]
  · have hdigit : ¬ c.isDigit = true := by
      rcases hc with rfl | rfl | rfl | rfl <;> decide
    rw [List.takeWhile_cons_of_neg hdigit, List.append_nil]

section

variable {p r : List Char}

theorem seconds_end {m : List Char} {v : Int} (hp : utf8Len p = 16) (hm : lenient.Field m 2 0 60 v) :
    utf8Len (p ++ ':' :: m) = 19 := by
  rw [utf8Len_append, utf8Len_cons, hp, (parseInt_ascii hm.reads).utf8Len, hm.size]
  rfl

theorem drop_fraction (hp : utf8Len p = 19) : (utf8Bytes (p ++ '.' :: r)).drop 20 = utf8Bytes r := by
  have hlen : (utf8Bytes (p ++ ['.'])).length = 20 := by
    rw [length_utf8Bytes, utf8Len_append, hp]
    rfl
  rw [List.append_cons, utf8Bytes_append, ← hlen, List.drop_left]

/-- Seconds behind a known part are those of the grammar. -/
theorem parseSeconds_some {second : Int} {idx : Nat} (hp : utf8Len p = 16)
    (h : parseSeconds (p ++ r) = some (second, idx)) :
    ∃ fs zone, r = fs ++ zone ∧ lenient.Seconds fs second ∧ idx = 16 + fs.length := by
  unfold parseSeconds at h
  split at h
  · rename_i hcolon
    obtain ⟨r, rfl⟩ := (byteIs_at (by decide) hp).mp hcolon
    obtain ⟨v, hnum, h⟩ := Option.bind_eq_some_iff.mp h
    have hp' : utf8Len (p ++ [':']) = 17 := by
      rw [utf8Len_append, hp]
      rfl
    rw [List.append_cons] at hnum
    obtain ⟨m, r, rfl, hlen, hv⟩ := (num_at hp').mp hnum
    obtain ⟨_, hrange, h⟩ := Option.bind_eq_some_iff.mp h
    rw [Option.guard_eq_some'] at hrange
    have hm : lenient.Field m 2 0 60 v := ⟨hlen, hv, hrange⟩
    have hp'' := seconds_end hp hm
    split at h
    · rename_i hdot
      rw [← List.cons_append, ← List.append_assoc] at hdot h
      obtain ⟨r, rfl⟩ := (byteIs_at (by decide) hp'').mp hdot
      rw [drop_fraction hp''] at h
      simp only [digitBytes] at h
      obtain ⟨rfl, rfl⟩ := Prod.mk.inj (Option.some.inj h)
      refine ⟨':' :: (m ++ '.' :: r.takeWhile Char.isDigit), r.dropWhile Char.isDigit, ?_, ?_, ?_⟩
      · simp only [List.cons_append, List.append_assoc, List.takeWhile_append_dropWhile]
      · exact .fraction hm List.all_takeWhile trivial
      · simp only [List.length_cons, List.length_append, hlen]
        omega
    · obtain ⟨rfl, rfl⟩ := Prod.mk.inj (Option.some.inj h)
      exact ⟨':' :: m, r, rfl, .whole hm, by rw [List.length_cons, hlen]⟩
  · obtain ⟨rfl, rfl⟩ := Prod.mk.inj (Option.some.inj h)
    exact ⟨[], r, rfl, .none, rfl⟩

/-- Seconds of the grammar are read, where what follows does not continue them. -/
theorem parseSeconds_of_seconds {fs zone : List Char} {second : Int} (hp : utf8Len p = 16)
    (hzone : ZoneHead zone) (h : lenient.Seconds fs second) :
    parseSeconds (p ++ (fs ++ zone)) = some (second, 16 + fs.length) := by
  have hcolon (r : List Char) : byteIs (p ++ ':' :: r) 16 ':' = true := (byteIs_at (by decide) hp).mpr ⟨r, rfl⟩
  have hp' : utf8Len (p ++ [':']) = 17 := by
    rw [utf8Len_append, hp]
    rfl
  cases h with
  | none =>
    have hno : ¬ byteIs (p ++ zone) 16 ':' = true := by
      rw [byteIs_at (by decide) hp]
      exact fun ⟨r, hr⟩ => hzone.ne (by decide) hr
    unfold parseSeconds
    rw [List.nil_append, if_neg hno]
    rfl
  | @whole f v hf =>
    have hnum : num (p ++ ':' :: (f ++ zone)) 17 19 = some v := by
      rw [List.append_cons]
      exact (num_at hp').mpr ⟨f, zone, rfl, hf.size, hf.reads⟩
    have hno : ¬ byteIs (p ++ ':' :: (f ++ zone)) 19 '.' = true := by
      rw [← List.cons_append, ← List.append_assoc, byteIs_at (by decide) (seconds_end hp hf)]
      exact fun ⟨r, hr⟩ => hzone.ne (by decide) hr
    unfold parseSeconds
    rw [List.cons_append, if_pos (hcolon _), hnum]
    simp only [Option.bind_eq_bind, Option.bind_some, guard, if_pos hf.range, if_neg hno, List.length_cons, hf.size]
    rfl
  | @fraction f ds v hf hds _ =>
    have hp'' := seconds_end hp hf
    have htext : p ++ (':' :: (f ++ '.' :: ds) ++ zone) = p ++ ':' :: f ++ '.' :: (ds ++ zone) := by
      simp only [List.cons_append, List.append_assoc]
    have hnum : num (p ++ ':' :: f ++ '.' :: (ds ++ zone)) 17 19 = some v := by
      rw [List.append_assoc, List.cons_append, List.append_cons]
      exact (num_at hp').mpr ⟨f, _, rfl, hf.size, hf.reads⟩
    have hdot : byteIs (p ++ ':' :: f ++ '.' :: (ds ++ zone)) 19 '.' = true :=
      (byteIs_at (by decide) hp'').mpr ⟨_, rfl⟩
    have hdigits := digitBytes (ds ++ zone)
    rw [hzone.takeWhile hds] at hdigits
    unfold parseSeconds
    rw [htext, if_pos (by rw [List.append_assoc]; exact hcolon _), hnum]
    simp only [Option.bind_eq_bind, Option.bind_some, guard, if_pos hf.range, if_pos hdot, drop_fraction hp'',
      hdigits, List.length_cons, List.length_append, hf.size]
    exact congrArg some (Prod.ext rfl (by show _ = _; omega))

end

/-- What the fields are read from is a moment of the grammar. -/
theorem moment_of_parseFields {s : List Char} {f : Fields} (h : parseFields s = some f) :
    ∃ zone, lenient.Moment s f zone := by
  unfold parseFields at h
  obtain ⟨_, -, h⟩ := Option.bind_eq_some_iff.mp h
  obtain ⟨_, hdate, h⟩ := Option.bind_eq_some_iff.mp h
  obtain ⟨year, hyear, h⟩ := Option.bind_eq_some_iff.mp h
  obtain ⟨month, hmonth, h⟩ := Option.bind_eq_some_iff.mp h
  obtain ⟨day, hday, h⟩ := Option.bind_eq_some_iff.mp h
  obtain ⟨_, htime, h⟩ := Option.bind_eq_some_iff.mp h
  obtain ⟨hour, hhour, h⟩ := Option.bind_eq_some_iff.mp h
  obtain ⟨minute, hminute, h⟩ := Option.bind_eq_some_iff.mp h
  obtain ⟨_, hdays, h⟩ := Option.bind_eq_some_iff.mp h
  obtain ⟨_, hhours, h⟩ := Option.bind_eq_some_iff.mp h
  obtain ⟨⟨second, idx⟩, hseconds, h⟩ := Option.bind_eq_some_iff.mp h
  obtain rfl := Option.some.inj h
  rw [Option.guard_eq_some'] at hdate htime hdays hhours
  obtain ⟨h4, h7, h10⟩ := hdate
  obtain ⟨fy, r1, hr, hfy, hy, hs, hp⟩ := cut (List.nil_append s).symm utf8Len_nil (by omega) (by decide) hyear h4
  obtain ⟨fm, r2, rfl, hfm, hm, hs, hp⟩ := cut hs hp (by omega) (by decide) hmonth h7
  obtain ⟨sep, hsep, h10⟩ : ∃ sep : Char, (sep = 'T' ∨ sep = ' ') ∧ byteIs s 10 sep = true := by
    rcases h10 with h10 | h10
    · exact ⟨'T', .inl rfl, h10⟩
    · exact ⟨' ', .inr rfl, h10⟩
  have hascii : sep.toNat < 128 := by rcases hsep with rfl | rfl <;> decide
  obtain ⟨fd, r3, rfl, hfd, hd, hs, hp⟩ := cut hs hp (by omega) hascii hday h10
  obtain ⟨fh, r4, rfl, hfh, hh, hs, hp⟩ := cut hs hp (by omega) (by decide) hhour htime
  rw [hs] at hminute
  obtain ⟨fi, r5, rfl, hfi, hi⟩ := (num_at hp).mp hminute
  rw [hs, ← List.append_assoc] at hseconds
  obtain ⟨fs, zone, rfl, hsec, rfl⟩ := parseSeconds_some (by
    rw [utf8Len_append, hp, (parseInt_ascii hi).utf8Len, hfi]) hseconds
  subst hr
  exact ⟨zone, .mk hfy hy ⟨hfm, hm, hdays.1, hdays.2.1⟩ ⟨hfd, hd, hdays.2.2⟩ hdays.2.2.2 hsep
    ⟨hfh, hh, hhours.1, hhours.2.1⟩ ⟨hfi, hi, hhours.2.2⟩ hsec rfl⟩

/-- A moment of the grammar is read, where the rest can only be a zone. -/
theorem parseFields_of_moment {s zone : List Char} {f : Fields} (hzone : ZoneHead zone)
    (h : lenient.Moment s f zone) : parseFields s = some f := by
  cases h with
  | @mk fy fm fd fh fi fs zone sep year month day hour minute second idx hfy hy hm hd _ hsep hh hi hsec hidx =>
    have hascii : sep.toNat < 128 := by rcases hsep with rfl | rfl <;> decide
    generalize htext : fy ++ '-' :: (fm ++ '-' :: (fd ++ sep :: (fh ++ ':' :: (fi ++ (fs ++ zone))))) = s
    obtain ⟨hyear, h4, hs, hp⟩ := paste (f := []) htext.symm utf8Len_nil (Nat.zero_le 4) (by decide) hfy hy
    obtain ⟨hmonth, h7, hs, hp⟩ := paste hs hp (show 5 ≤ 7 by omega) (by decide) hm.size hm.reads
    obtain ⟨hday, h10, hs, hp⟩ := paste hs hp (show 8 ≤ 10 by omega) hascii hd.size hd.reads
    obtain ⟨hhour, h13, hs, hp⟩ := paste hs hp (show 11 ≤ 13 by omega) (by decide) hh.size hh.reads
    have hminute : num s 14 16 = some minute := by
      rw [hs]
      exact (num_at hp).mpr ⟨fi, _, rfl, hi.size, hi.reads⟩
    rw [← List.append_assoc] at hs
    have hp' := (utf8Len_append (s := _) (r := fi)).trans (congrArg₂ (· + ·) hp
      ((parseInt_ascii hi.reads).utf8Len.trans hi.size))
    have hseconds := parseSeconds_of_seconds hp' hzone hsec
    rw [← hs] at hseconds
    have hlen : 16 ≤ utf8Len s := by
      rw [hs, utf8Len_append, hp']
      omega
    have h10' : byteIs s 10 'T' = true ∨ byteIs s 10 ' ' = true := by
      rcases hsep with rfl | rfl
      · exact .inl h10
      · exact .inr h10
    unfold parseFields
    simp only [hyear, hmonth, hday, hhour, hminute, hseconds, Option.bind_eq_bind, Option.bind_some, guard,
      if_pos hlen, h4, h7, h13, h10', and_self, if_true, hm.range, hd.range, hh.range, hi.range, hidx]
    rfl

/-! ## The zone -/

theorem Reading.Seconds.ascii {fs : List Char} {v : Int} (h : lenient.Seconds fs v) : Ascii fs := by
  cases h with
  | none => exact fun c hc => absurd hc List.not_mem_nil
  | whole hf =>
    intro c hc
    rcases List.mem_cons.mp hc with rfl | hc
    · decide
    · exact parseInt_ascii hf.reads c hc
  | fraction hf hds =>
    intro c hc
    simp only [List.mem_cons, List.mem_append] at hc
    rcases hc with rfl | hc | rfl | hc
    · decide
    · exact parseInt_ascii hf.reads c hc
    · decide
    · exact ascii_of_digits hds c hc

/-- The zone begins where the fields end. -/
theorem Reading.Moment.split {s zone : List Char} {f : Fields} (h : lenient.Moment s f zone) :
    ∃ p, s = p ++ zone ∧ utf8Len p = f.idx := by
  cases h with
  | @mk fy fm fd fh fi fs _ sep _ _ _ _ _ _ _ hfy hy hm hd _ hsep hh hi hsec hidx =>
    have hascii : sep.toNat < 128 := by rcases hsep with rfl | rfl <;> decide
    refine ⟨fy ++ '-' :: (fm ++ '-' :: (fd ++ sep :: (fh ++ ':' :: (fi ++ fs)))), ?_, ?_⟩
    · simp only [List.append_assoc, List.cons_append]
    · simp only [utf8Len_append, utf8Len_cons, (parseInt_ascii hy).utf8Len, hfy,
        (parseInt_ascii hm.reads).utf8Len, hm.size, (parseInt_ascii hd.reads).utf8Len, hd.size,
        (parseInt_ascii hh.reads).utf8Len, hh.size, (parseInt_ascii hi.reads).utf8Len, hi.size, hsec.ascii.utf8Len,
        utf8Size_ascii hascii, utf8Size_ascii (c := '-') (by decide), utf8Size_ascii (c := ':') (by decide), hidx]
      omega

/-- The two texts of an offset: with a colon between them, without one, or hours alone. -/
inductive OffsetText : List Char → List Char × List Char → Prop
  | colon {h m : List Char} : utf8Len h = 2 → utf8Len m = 2 → OffsetText (h ++ ':' :: m) (h, m)
  | compact {h m : List Char} : utf8Len h = 2 → utf8Len m = 2 → OffsetText (h ++ m) (h, m)
  | hours {h : List Char} : utf8Len h = 2 → OffsetText h (h, ['0'])

theorem offsetParts_of_text {rest : List Char} {parts : List Char × List Char} (h : OffsetText rest parts) :
    offsetParts rest = .ok (some parts) := by
  have hcolon : utf8Len [':'] = 1 := rfl
  unfold offsetParts
  cases h with
  | @colon h m hh hm =>
    have hp : utf8Len (h ++ [':']) = 3 := by rw [utf8Len_append, hh, hcolon]
    have hbyte : byteIs (h ++ ':' :: m) 2 ':' = true := (byteIs_at (by decide) hh).mpr ⟨m, rfl⟩
    have hlen : utf8Len (h ++ ':' :: m) = 5 := by rw [List.append_cons, utf8Len_append, hp, hm]
    have hminutes : index (h ++ ':' :: m) 3 5 = .ok m := by
      rw [List.append_cons]
      exact index_rest hp hm
    rw [if_pos ⟨hlen, hbyte⟩, index_start hh, hminutes]
    rfl
  | @compact h m hh hm =>
    have hlen : utf8Len (h ++ m) = 4 := by rw [utf8Len_append, hh, hm]
    rw [if_neg (by omega), if_pos hlen, index_start hh, index_rest hh hm]
    rfl
  | hours hh =>
    have hfull : index rest 0 2 = .ok rest := index_rest (p := []) utf8Len_nil hh
    rw [if_neg (by omega), if_neg (by omega), if_pos hh, hfull]
    rfl

theorem offsetParts_splits {rest : List Char} (h : SplitsChar rest) : offsetParts rest = .error .charBoundary := by
  obtain ⟨hlen, hno⟩ := h
  have hindex : index rest 0 2 = .error .charBoundary := by
    refine index_error fun m hm => ?_
    obtain ⟨r, hr, hlen⟩ := (index_at (p := []) utf8Len_nil).mp hm
    exact hno ⟨m, r, hr, hlen⟩
  unfold offsetParts
  rw [if_neg (by omega), if_pos hlen, hindex]
  rfl

theorem offsetParts_cases (rest : List Char) :
    (∃ parts, OffsetText rest parts) ∨ SplitsChar rest ∨ offsetParts rest = .ok none := by
  by_cases hcolon : utf8Len rest = 5 ∧ byteIs rest 2 ':' = true
  · obtain ⟨hlen, hbyte⟩ := hcolon
    obtain ⟨h, m, rfl, hh⟩ := (byteIs_iff (by decide)).mp hbyte
    rw [utf8Len_append, utf8Len_cons, utf8Size_ascii (c := ':') (by decide)] at hlen
    exact .inl ⟨(h, m), .colon hh (by omega)⟩
  by_cases hcompact : utf8Len rest = 4
  · by_cases hsplit : ∃ h m, rest = h ++ m ∧ utf8Len h = 2
    · obtain ⟨h, m, rfl, hh⟩ := hsplit
      rw [utf8Len_append] at hcompact
      exact .inl ⟨(h, m), .compact hh (by omega)⟩
    · exact .inr (.inl ⟨hcompact, hsplit⟩)
  by_cases hhours : utf8Len rest = 2
  · exact .inl ⟨(rest, ['0']), .hours hhours⟩
  · refine .inr (.inr ?_)
    unfold offsetParts
    rw [if_neg hcolon, if_neg hcompact, if_neg hhours]
    rfl

theorem parseInt_zero : parseInt ['0'] = some 0 := rfl

theorem offsetSeconds_some {k v : Int} {h m : List Char} : offsetSeconds k (h, m) = some v ↔
    ∃ oh om, parseInt h = some oh ∧ parseInt m = some om ∧ (0 ≤ oh ∧ oh ≤ 23) ∧ (0 ≤ om ∧ om ≤ 59)
      ∧ v = k * (oh * 3600 + om * 60) := by
  unfold offsetSeconds
  simp only [Option.bind_eq_bind, Option.bind_eq_some_iff, Option.guard_eq_some', Option.pure_def]
  constructor
  · rintro ⟨oh, hoh, om, hom, _, ⟨h1, h2, h3, h4⟩, hv⟩
    exact ⟨oh, om, hoh, hom, ⟨h1, h2⟩, ⟨h3, h4⟩, (Option.some.inj hv).symm⟩
  · rintro ⟨oh, om, hoh, hom, ⟨h1, h2⟩, ⟨h3, h4⟩, rfl⟩
    exact ⟨oh, hoh, om, hom, (), ⟨h1, h2, h3, h4⟩, rfl⟩

/-- Where the parts of an offset are read, they are the fields of the grammar. -/
theorem offset_iff {c : Char} {k v : Int} {rest : List Char} (hc : Reading.Sign c k) :
    (∃ parts, OffsetText rest parts ∧ offsetSeconds k parts = some v) ↔ lenient.Zone (c :: rest) v := by
  constructor
  · rintro ⟨⟨h, m⟩, htext, hv⟩
    obtain ⟨oh, om, hoh, hom, hrange, hrange', rfl⟩ := offsetSeconds_some.mp hv
    have hsize {f : List Char} {v : Int} (hf : parseInt f = some v) (hlen : utf8Len f = 2) : f.length = 2 := by
      rwa [(parseInt_ascii hf).utf8Len] at hlen
    cases htext with
    | colon hh hm => exact .colon hc ⟨hsize hoh hh, hoh, hrange⟩ ⟨hsize hom hm, hom, hrange'⟩
    | compact hh hm => exact .compact hc ⟨hsize hoh hh, hoh, hrange⟩ ⟨hsize hom hm, hom, hrange'⟩
    | hours hh =>
      obtain rfl := Option.some.inj (parseInt_zero.symm.trans hom)
      exact .hours hc ⟨hsize hoh hh, hoh, hrange⟩
  · intro h
    have hsize {f : List Char} {low high v : Int} (hf : lenient.Field f 2 low high v) : utf8Len f = 2 := by
      rw [(parseInt_ascii hf.reads).utf8Len, hf.size]
    have hk {k' : Int} (hc' : Reading.Sign c k') : k' = k := by
      obtain ⟨rfl, rfl⟩ | ⟨rfl, rfl⟩ := hc
      · obtain ⟨-, rfl⟩ | ⟨h, -⟩ := hc'
        · rfl
        · exact absurd h (by decide)
      · obtain ⟨h, -⟩ | ⟨-, rfl⟩ := hc'
        · exact absurd h (by decide)
        · rfl
    cases h with
    | utc hz =>
      rcases hz with rfl | rfl
      · obtain ⟨h, -⟩ | ⟨h, -⟩ := hc
        · exact absurd h (by decide)
        · exact absurd h (by decide)
      · obtain ⟨h, -⟩ | ⟨h, -⟩ := hc
        · exact absurd h (by decide)
        · exact absurd h (by decide)
    | hours hc' hh =>
      obtain rfl := hk hc'
      exact ⟨(_, ['0']), .hours (hsize hh),
        offsetSeconds_some.mpr ⟨_, 0, hh.reads, rfl, hh.range, by decide, rfl⟩⟩
    | compact hc' hh hm =>
      obtain rfl := hk hc'
      exact ⟨(_, _), .compact (hsize hh) (hsize hm),
        offsetSeconds_some.mpr ⟨_, _, hh.reads, hm.reads, hh.range, hm.range, rfl⟩⟩
    | colon hc' hh hm =>
      obtain rfl := hk hc'
      exact ⟨(_, _), .colon (hsize hh) (hsize hm),
        offsetSeconds_some.mpr ⟨_, _, hh.reads, hm.reads, hh.range, hm.range, rfl⟩⟩

section

variable {p rest : List Char} {c : Char} {idx : Nat} {k : Int}

theorem Reading.Sign.ascii (hc : Reading.Sign c k) : c.toNat < 128 := by
  obtain ⟨rfl, -⟩ | ⟨rfl, -⟩ := hc <;> decide

theorem not_end (hp : utf8Len p = idx) : ¬ utf8Len (p ++ c :: rest) ≤ idx := by
  have := Char.utf8Size_pos c
  rw [utf8Len_append, utf8Len_cons, hp]
  omega

theorem byteIs_next {d : Char} (hd : d.toNat < 128) (hp : utf8Len p = idx) :
    byteIs (p ++ c :: rest) idx d = true ↔ c = d := by
  rw [byteIs_at hd hp]
  exact ⟨fun ⟨r, hr⟩ => (List.cons.inj hr).1, fun h => ⟨rest, by rw [h]⟩⟩

/-- A sign takes the offset that follows it. -/
theorem parseZone_sign (hp : utf8Len p = idx) (hc : Reading.Sign c k) :
    parseZone (p ++ c :: rest) idx = (do
      match ← offsetParts rest with
      | none => return none
      | some parts => return offsetSeconds k parts) := by
  have hdrop : dropBytes (idx + 1) (p ++ c :: rest) = some rest := by
    have hend : utf8Len (p ++ [c]) = idx + 1 := by
      rw [utf8Len_append, hp, utf8Len_cons, utf8Size_ascii hc.ascii, utf8Len_nil]
    rw [List.append_cons, ← hend, dropBytes_append]
  unfold parseZone parseOffset
  simp only [if_neg (not_end hp), byteIs_next (show 'Z'.toNat < 128 by decide) hp,
    byteIs_next (show 'z'.toNat < 128 by decide) hp, byteIs_next (show '+'.toNat < 128 by decide) hp,
    byteIs_next (show '-'.toNat < 128 by decide) hp, hdrop]
  obtain ⟨rfl, rfl⟩ | ⟨rfl, rfl⟩ := hc <;> rfl

/-- Anything but a sign is a zone only as nothing or as the letter for UTC. -/
theorem parseZone_letter {zone : List Char} (hp : utf8Len p = idx)
    (hc : ∀ c k rest, zone = c :: rest → ¬ Reading.Sign c k) :
    parseZone (p ++ zone) idx = .ok (if zone = [] ∨ zone = ['Z'] ∨ zone = ['z'] then some 0 else none) := by
  cases zone with
  | nil =>
    unfold parseZone
    rw [if_pos (by rw [List.append_nil, hp]), if_pos (.inl rfl)]
    rfl
  | cons c rest =>
    have hplus : c ≠ '+' := fun h => hc c 1 rest rfl (.inl ⟨h, rfl⟩)
    have hminus : c ≠ '-' := fun h => hc c (-1) rest rfl (.inr ⟨h, rfl⟩)
    have hend (h : c.utf8Size = 1) : idx + 1 = utf8Len (p ++ c :: rest) ↔ rest = [] := by
      rw [utf8Len_append, utf8Len_cons, hp, h]
      cases rest with
      | nil => simp
      | cons d rest =>
        have := Char.utf8Size_pos d
        rw [utf8Len_cons]
        simp only [reduceCtorEq, iff_false]
        omega
    unfold parseZone
    simp only [if_neg (not_end hp), byteIs_next (show 'Z'.toNat < 128 by decide) hp,
      byteIs_next (show 'z'.toNat < 128 by decide) hp, byteIs_next (show '+'.toNat < 128 by decide) hp,
      byteIs_next (show '-'.toNat < 128 by decide) hp, if_neg hplus, if_neg hminus]
    by_cases hz : c = 'Z' ∨ c = 'z'
    · have hsize : c.utf8Size = 1 := by rcases hz with rfl | rfl <;> rfl
      simp only [hend hsize, hz, true_and, reduceCtorEq, List.cons.injEq, false_or]
      rcases hz with rfl | rfl <;> cases rest <;> rfl
    · have hnot : ¬ (c :: rest = [] ∨ c :: rest = ['Z'] ∨ c :: rest = ['z']) := by
        rintro (h | h | h)
        · cases h
        · exact hz (.inl (List.cons.inj h).1)
        · exact hz (.inr (List.cons.inj h).1)
      rw [if_neg fun h => hz h.1, if_neg hnot]
      rfl

end

theorem OffsetText.not_splits {rest : List Char} {parts : List Char × List Char} (h : OffsetText rest parts) :
    ¬ SplitsChar rest := by
  intro hs
  cases (offsetParts_of_text h).symm.trans (offsetParts_splits hs)

/-- The zone that is read is the one of the grammar. -/
theorem parseZone_some {p zone : List Char} {idx : Nat} {v : Int} (hp : utf8Len p = idx) :
    parseZone (p ++ zone) idx = .ok (some v) ↔ lenient.Zone zone v := by
  by_cases hc : ∃ c k rest, zone = c :: rest ∧ Reading.Sign c k
  · obtain ⟨c, k, rest, rfl, hc⟩ := hc
    rw [parseZone_sign hp hc, ← offset_iff hc, except_bind_ok]
    constructor
    · rintro ⟨parts, hparts, hv⟩
      cases parts with
      | none => cases hv
      | some parts =>
        obtain ⟨parts', htext⟩ | hsplits | hnone := offsetParts_cases rest
        · obtain rfl := Option.some.inj (Except.ok.inj (hparts.symm.trans (offsetParts_of_text htext)))
          exact ⟨parts, htext, Except.ok.inj hv⟩
        · cases hparts.symm.trans (offsetParts_splits hsplits)
        · cases hparts.symm.trans hnone
    · rintro ⟨parts, htext, hv⟩
      exact ⟨some parts, offsetParts_of_text htext, congrArg Except.ok hv⟩
  · rw [parseZone_letter hp fun c k rest hz hs => hc ⟨c, k, rest, hz, hs⟩]
    constructor
    · intro h
      split at h
      · rename_i hz
        obtain rfl := Option.some.inj (Except.ok.inj h)
        rcases hz with rfl | rfl | rfl
        · exact .none
        · exact .utc (.inl rfl)
        · exact .utc (.inr rfl)
      · cases h
    · intro h
      cases h with
      | none => rfl
      | utc hz => rw [if_pos (.inr (hz.imp (congrArg (· :: [])) (congrArg (· :: []))))]
      | hours hs => exact absurd ⟨_, _, _, rfl, hs⟩ hc
      | compact hs => exact absurd ⟨_, _, _, rfl, hs⟩ hc
      | colon hs => exact absurd ⟨_, _, _, rfl, hs⟩ hc

/-- Reading the zone panics at an offset that splits a character. -/
theorem parseZone_error {p zone : List Char} {idx : Nat} (hp : utf8Len p = idx) :
    (∃ e, parseZone (p ++ zone) idx = .error e) ↔
      ∃ c k rest, zone = c :: rest ∧ Reading.Sign c k ∧ SplitsChar rest := by
  constructor
  · rintro ⟨e, he⟩
    by_cases hc : ∃ c k rest, zone = c :: rest ∧ Reading.Sign c k
    · obtain ⟨c, k, rest, rfl, hc⟩ := hc
      rw [parseZone_sign hp hc] at he
      obtain ⟨parts, htext⟩ | hsplits | hnone := offsetParts_cases rest
      · rw [offsetParts_of_text htext] at he
        cases he
      · exact ⟨c, k, rest, rfl, hc, hsplits⟩
      · rw [hnone] at he
        cases he
    · rw [parseZone_letter hp fun c k rest hz hs => hc ⟨c, k, rest, hz, hs⟩] at he
      cases he
  · rintro ⟨c, k, rest, rfl, hc, hsplits⟩
    rw [parseZone_sign hp hc, offsetParts_splits hsplits]
    exact ⟨_, rfl⟩

/-! ## Whole timestamps -/

theorem Reading.Zone.head {zone : List Char} {v : Int} (h : lenient.Zone zone v) : ZoneHead zone := by
  have hsign {c : Char} {k : Int} (hc : Reading.Sign c k) : c = 'Z' ∨ c = 'z' ∨ c = '+' ∨ c = '-' := by
    obtain ⟨rfl, -⟩ | ⟨rfl, -⟩ := hc
    · exact .inr (.inr (.inl rfl))
    · exact .inr (.inr (.inr rfl))
  cases h with
  | none => exact .inl rfl
  | utc hz => exact .inr ⟨_, _, rfl, hz.elim .inl fun h => .inr (.inl h)⟩
  | hours hc => exact .inr ⟨_, _, rfl, hsign hc⟩
  | compact hc => exact .inr ⟨_, _, rfl, hsign hc⟩
  | colon hc => exact .inr ⟨_, _, rfl, hsign hc⟩

/-- The days counted from the epoch are those of the calendar. -/
theorem Reading.Moment.epoch {s zone : List Char} {f : Fields} (h : lenient.Moment s f zone) (offset : Int) :
    f.epoch offset = dayNumber f.year f.month.toNat f.day * 86400 + f.hour * 3600 + f.minute * 60 + f.second
      - offset := by
  cases h with
  | @mk _ _ _ _ _ _ _ _ _ month day _ _ _ _ _ _ hm hd =>
    have hmonth : 1 ≤ month.toNat ∧ month.toNat ≤ 12 := by
      have hrange := hm.range
      omega
    have hday : (day.toNat : Int) = day := Int.toNat_of_nonneg (Int.le_of_lt hd.range.1)
    unfold Fields.epoch
    rw [daysFromCivil_eq _ hmonth.1 hmonth.2, hday]

theorem toU64_some {v : Int} {t : Nat} : toU64 v = some t ↔ v = t := by
  unfold toU64
  split
  · rw [Option.some.injEq]
    omega
  · simp only [reduceCtorEq, false_iff]
    omega

/-- The parser gives the instant that the text denotes when it is read leniently. -/
theorem parseTrimmed_some {s : List Char} {t : Nat} : parseTrimmed s = .ok (some t) ↔ lenient.Denotes s t := by
  unfold parseTrimmed Reading.Denotes
  constructor
  · intro h
    split at h
    · cases h
    · rename_i f hf
      obtain ⟨zone, hmoment⟩ := moment_of_parseFields hf
      obtain ⟨p, rfl, hp⟩ := hmoment.split
      obtain ⟨offset, hoffset, h⟩ := except_bind_ok.mp h
      cases offset with
      | none => cases h
      | some offset =>
        refine ⟨f, zone, offset, hmoment, (parseZone_some hp).mp hoffset, ?_⟩
        rw [← hmoment.epoch, toU64_some.mp (Except.ok.inj h)]
  · rintro ⟨f, zone, offset, hmoment, hzone, ht⟩
    rw [parseFields_of_moment hzone.head hmoment]
    rw [← hmoment.epoch] at ht
    obtain ⟨p, rfl, hp⟩ := hmoment.split
    exact except_bind_ok.mpr ⟨some offset, (parseZone_some hp).mpr hzone, congrArg Except.ok (toU64_some.mpr ht.symm)⟩

theorem parseTrimmed_error {s : List Char} : (∃ e, parseTrimmed s = .error e) ↔ SplitsOffset s := by
  unfold parseTrimmed SplitsOffset
  constructor
  · rintro ⟨e, he⟩
    split at he
    · cases he
    · rename_i f hf
      obtain ⟨zone, hmoment⟩ := moment_of_parseFields hf
      obtain ⟨p, rfl, hp⟩ := hmoment.split
      have hzone : ∃ e, parseZone (p ++ zone) f.idx = .error e := by
        cases hz : parseZone (p ++ zone) f.idx with
        | error e => exact ⟨e, rfl⟩
        | ok offset =>
          rw [hz] at he
          cases offset with
          | none => cases he
          | some offset => cases he
      obtain ⟨c, k, rest, rfl, hc, hsplits⟩ := (parseZone_error hp).mp hzone
      exact ⟨f, c, k, rest, hmoment, hc, hsplits⟩
  · rintro ⟨f, c, k, rest, hmoment, hc, hsplits⟩
    have hhead : ZoneHead (c :: rest) := by
      obtain ⟨rfl, -⟩ | ⟨rfl, -⟩ := hc
      · exact .inr ⟨_, _, rfl, .inr (.inr (.inl rfl))⟩
      · exact .inr ⟨_, _, rfl, .inr (.inr (.inr rfl))⟩
    rw [parseFields_of_moment hhead hmoment]
    obtain ⟨p, rfl, hp⟩ := hmoment.split
    obtain ⟨e, he⟩ := (parseZone_error hp).mpr ⟨c, k, rest, rfl, hc, hsplits⟩
    simp only [he]
    exact ⟨e, rfl⟩

/-! ## The documented grammar -/

theorem monthLength_le (y m : Int) : monthLength y m ≤ 31 := by
  unfold monthLength
  split
  · split <;> omega
  · split <;> omega

theorem Reading.Field.lenient {text : List Char} {width : Nat} {low high v : Int}
    (h : documented.Field text width low high v) : lenient.Field text width low high v :=
  ⟨h.size, parseInt_digits h.reads, h.range⟩

theorem Reading.Zone.lenient {zone : List Char} {v : Int} (h : documented.Zone zone v) : lenient.Zone zone v := by
  cases h with
  | none => exact .none
  | utc hz => exact .utc (.inl hz)
  | hours hc hh => exact .hours hc hh.lenient
  | compact hc hh hm => exact .compact hc hh.lenient hm.lenient
  | colon hc hh hm => exact .colon hc hh.lenient hm.lenient

theorem Reading.Seconds.lenient {fs : List Char} {v : Int} (h : documented.Seconds fs v) : lenient.Seconds fs v := by
  cases h with
  | none => exact .none
  | whole hf => exact .whole hf.lenient
  | fraction hf hds _ => exact .fraction hf.lenient hds trivial

/-- The documented grammar is the stricter one. -/
theorem Reading.Denotes.lenient {text : List Char} {t : Int} (h : documented.Denotes text t) :
    lenient.Denotes text t := by
  obtain ⟨f, zone, offset, hmoment, hzone, ht⟩ := h
  refine ⟨f, zone, offset, ?_, hzone.lenient, ht⟩
  cases hmoment with
  | mk hfy hy hm hd _ hsep hh hi hsec hidx =>
    exact .mk hfy (parseInt_digits hy) hm.lenient hd.lenient hd.range.2 hsep hh.lenient hi.lenient
      hsec.lenient hidx

/-- The parser keeps to its grammar where no offset splits a character and what can be read
leniently is in the grammar. -/
theorem parseIso8601Unix_documented (s : String) :
    (∃ r, parseIso8601Unix s = .ok r ∧ ∀ t : Nat, r = some t ↔ documented.Denotes (trimmed s).toList t) ↔
      ¬ SplitsOffset (trimmed s).toList
        ∧ ∀ t : Nat, lenient.Denotes (trimmed s).toList t → documented.Denotes (trimmed s).toList t := by
  unfold parseIso8601Unix
  constructor
  · rintro ⟨r, hr, h⟩
    refine ⟨fun hsplits => ?_, fun t ht => ?_⟩
    · obtain ⟨e, he⟩ := parseTrimmed_error.mpr hsplits
      cases hr.symm.trans he
    · exact (h t).mp (Except.ok.inj (hr.symm.trans (parseTrimmed_some.mpr ht)))
  · rintro ⟨hsplits, h⟩
    cases hr : parseTrimmed (trimmed s).toList with
    | error e => exact absurd (parseTrimmed_error.mp ⟨e, hr⟩) hsplits
    | ok r =>
      refine ⟨r, rfl, fun t => ⟨fun ht => ?_, fun ht => ?_⟩⟩
      · rw [ht] at hr
        exact h t (parseTrimmed_some.mp hr)
      · exact Except.ok.inj (hr.symm.trans (parseTrimmed_some.mpr ht.lenient))

/-- An offset that splits a character ends the process. -/
theorem parseIso8601Unix_splits :
    ¬ ∃ r, parseIso8601Unix "2026-01-01T00:00+1é2" = .ok r
      ∧ ∀ t : Nat, r = some t ↔ documented.Denotes (trimmed "2026-01-01T00:00+1é2").toList t := by
  rintro ⟨r, hr, -⟩
  have herror : parseIso8601Unix "2026-01-01T00:00+1é2" = .error .charBoundary := by decide
  cases hr.symm.trans herror

-- The 31st of February is read as the 3rd of March.
example : parseIso8601Unix "2026-02-31T00:00" = .ok (some 1772496000) := by decide

end ClaudeManager
