import Mathlib
import ClaudeManager.Python.Paths
import ClaudeManager.Text.Hex

/-!
# Numbers in base 16, and lower case

* `int16` — `int(s, 16)`, which reads what a plain parser of hexadecimal digits reads, and more
* `Casing` — `str.lower`
* `asciiTables`, `asciiCasing` — both on plain texts
-/

namespace Python

/-! ## `int(s, 16)` -/

/-- Of the ASCII characters just `0` to `9` are decimal digits. -/
class LawfulTables [Tables] : Prop where
  decimal_of_isDigit : ∀ c : Char, c.isDigit = true → Tables.decimal c = some (c.toNat - 48)
  decimal_of_ascii : ∀ c : Char, c.toNat < 128 → c.isDigit = false → Tables.decimal c = none

section

variable [Tables]

def digit16 (c : Char) : Option Nat :=
  match Tables.decimal c with
  | some d => some d
  | none =>
    if 'a' ≤ c ∧ c ≤ 'f' then some (c.toNat - 87)
    else if 'A' ≤ c ∧ c ≤ 'F' then some (c.toNat - 55)
    else none

/-- What is behind `0x`, and behind an underscore that follows it. -/
def behind0x : List Char → List Char
  | zero :: x :: rest =>
    if Tables.decimal zero = some 0 ∧ (x = 'x' ∨ x = 'X') then
      match rest with
      | '_' :: rest => rest
      | rest => rest
    else zero :: x :: rest
  | cs => cs

/-- `int(s, 16)`. -/
def int16 (s : String) : Option Int :=
  let (sign, cs) := signed (numeral s)
  let digits := behind0x cs
  if (digits.splitOn '_').all (· ≠ []) then
    ((digits.filter (· ≠ '_')).mapM digit16).map fun ds =>
      sign * (ds.foldl (fun n d => 16 * n + d) 0 : Nat)
  else none

end

/-! ## What a plain parser reads -/

theorem numeral_of_plain {s : String} (h : ∀ c ∈ s.toList, isSpace c = false) :
    numeral s = s.toList := by
  have hkeep : ∀ l : List Char, (∀ c ∈ l, isSpace c = false) →
      l.dropWhile (fun c => isSpace c && !(28 ≤ c.toNat && c.toNat ≤ 31)) = l := by
    intro l hl
    rw [List.dropWhile_eq_self_iff]
    intro hlen hspace
    rw [hl _ (List.getElem_mem hlen)] at hspace
    cases hspace
  unfold numeral
  simp only [hkeep _ h, hkeep s.toList.reverse fun c hc => h c (List.mem_reverse.mp hc),
    List.reverse_reverse]

theorem splitOn_of_notMem {c : Char} {l : List Char} (h : c ∉ l) : l.splitOn c = [l] := by
  have hnone : ∀ x ∈ l, (x == c) = false := fun x hx => beq_false_of_ne fun he => h (he ▸ hx)
  exact List.splitOnP_eq_singleton hnone

section

variable [Tables]

theorem behind0x_of_hexDigits {cs : List Char} (h : ∀ c ∈ cs, (Text.hexDigit c).isSome = true) :
    behind0x cs = cs := by
  unfold behind0x
  split
  · next zero x rest =>
    rw [if_neg]
    rintro ⟨-, hx⟩
    have hdigit := h x (by simp)
    rcases hx with rfl | rfl <;> exact absurd hdigit (by decide)
  · rfl

variable [LawfulTables]

theorem digit16_of_hexDigit {c : Char} {d : Nat} (h : Text.hexDigit c = some d) :
    digit16 c = some d := by
  have hlt : c.toNat < 128 := lt_trans (Text.hexDigit_lt h) (by decide)
  unfold Text.hexDigit at h
  unfold digit16
  by_cases hdigit : c.isDigit = true
  · rw [if_pos hdigit] at h
    rw [LawfulTables.decimal_of_isDigit c hdigit]
    exact h
  · rw [if_neg hdigit] at h
    rw [LawfulTables.decimal_of_ascii c hlt (Bool.not_eq_true _ ▸ hdigit)]
    exact h

theorem mapM_digit16 {cs : List Char} {ds : List Nat} (h : cs.mapM Text.hexDigit = some ds) :
    cs.mapM digit16 = some ds := by
  induction cs generalizing ds with
  | nil => exact h
  | cons c cs ih =>
    rw [List.mapM_cons] at h ⊢
    obtain ⟨d, hd, h⟩ := Option.bind_eq_some_iff.mp h
    obtain ⟨ds', hds', h⟩ := Option.bind_eq_some_iff.mp h
    rw [digit16_of_hexDigit hd, ih hds']
    exact h

/-- What is read as a machine word in base 16 is read as the same number. -/
theorem int16_of_fromHex {bits : Nat} {s : String} {n : Nat} (h : Text.fromHex bits s = some n) :
    int16 s = some (n : Int) := by
  obtain ⟨hne, ds, hds, hn, -⟩ := Text.fromHex_eq_some h
  obtain ⟨sign, hs, hsign⟩ := Text.behindPlus_spec s.toList
  have hdigit := Text.isSome_of_mapM hds
  have hplain : ∀ c ∈ s.toList, isSpace c = false := by
    intro c hc
    rw [hs, List.mem_append] at hc
    rcases hc with hc | hc
    · rcases hsign with rfl | rfl
      · cases hc
      · rw [List.mem_singleton.mp hc]
        rfl
    · exact Text.not_of_hexDigit (by decide +kernel) (hdigit c hc)
  have hsigned : signed (numeral s) = (1, Text.behindPlus s.toList) := by
    rw [numeral_of_plain hplain]
    unfold signed
    split
    · next cs hcs =>
      have hminus := hdigit '-' (by rw [hcs]; exact List.mem_cons_self)
      exact absurd hminus (by decide)
    · next cs hcs =>
      rw [hcs]
      rfl
    · next cs hminus hplus =>
      unfold Text.behindPlus
      split
      · next rest hrest => exact absurd hrest (hplus rest)
      · rfl
  have hunder : '_' ∉ Text.behindPlus s.toList := fun hmem => absurd (hdigit _ hmem) (by decide)
  have hfilter : (Text.behindPlus s.toList).filter (· ≠ '_') = Text.behindPlus s.toList :=
    List.filter_eq_self.mpr fun c hc => decide_eq_true fun he => hunder (he ▸ hc)
  unfold int16
  simp only [hsigned, behind0x_of_hexDigits hdigit, splitOn_of_notMem hunder, hfilter,
    mapM_digit16 hds]
  simp [hne, hn]

end

/-! ## Lower case -/

class Casing where
  /-- `str.lower`. -/
  lower : String → String

/-- ASCII letters have their lower case, and of the other characters just the Kelvin sign leaves an
ASCII character alone. -/
class LawfulCasing [Casing] : Prop where
  lower_ascii : ∀ s : String, (∀ c ∈ s.toList, c.toNat < 128) →
    Casing.lower s = String.ofList (s.toList.map Char.toLower)
  lower_other : ∀ s : String, ∀ c ∈ s.toList, 128 ≤ c.toNat →
    ∃ d ∈ (Casing.lower s).toList, 128 ≤ d.toNat ∨ d = 'k'

theorem toLower_other {c : Char} (h : 128 ≤ c.toNat) : c.toLower = c := by
  unfold Char.toLower
  rw [dif_neg]
  rintro ⟨-, hle⟩
  have hnat := UInt32.le_iff_toNat_le.mp hle
  have hz : ('Z' : Char).val.toNat = 90 := rfl
  have hc : c.val.toNat = c.toNat := rfl
  omega

/-- A word of ASCII letters without a `k` is the lower case of its ASCII spellings alone. -/
theorem lower_eq_iff [Casing] [LawfulCasing] {s w : String}
    (hw : ∀ c ∈ w.toList, c.toNat < 128 ∧ c ≠ 'k') :
    Casing.lower s = w ↔ s.toList.map Char.toLower = w.toList := by
  have hspell : ∀ l : List Char, String.ofList l = w ↔ l = w.toList := fun l =>
    ⟨fun h => by rw [← h, String.toList_ofList], fun h => by rw [h, String.ofList_toList]⟩
  constructor
  · intro h
    have hascii : ∀ c ∈ s.toList, c.toNat < 128 := by
      intro c hc
      by_contra hge
      obtain ⟨d, hd, hother⟩ := LawfulCasing.lower_other s c hc (by omega)
      obtain ⟨hlt, hk⟩ := hw d (h ▸ hd)
      rcases hother with hge | rfl
      · omega
      · exact hk rfl
    rw [LawfulCasing.lower_ascii s hascii] at h
    exact (hspell _).mp h
  · intro h
    have hascii : ∀ c ∈ s.toList, c.toNat < 128 := by
      intro c hc
      by_contra hge
      have hmem : c ∈ w.toList := by
        rw [← h, ← toLower_other (c := c) (by omega)]
        exact List.mem_map_of_mem hc
      exact hge (hw c hmem).1
    rw [LawfulCasing.lower_ascii s hascii, hspell]
    exact h

/-! ## ASCII -/

/-- The digits of plain texts. -/
abbrev asciiTables : Tables where
  decimal c := if c.isDigit then some (c.toNat - 48) else none
  isDigit := Char.isDigit
  repr s := "'" ++ s ++ "'"

/-- The letters of plain texts. -/
abbrev asciiCasing : Casing where
  lower s := String.ofList (s.toList.map Char.toLower)

theorem lawful_asciiTables : @LawfulTables asciiTables :=
  let _ := asciiTables
  ⟨fun _ h => if_pos h, fun c _ h => if_neg (by simp [h])⟩

theorem lawful_asciiCasing : @LawfulCasing asciiCasing := by
  let _ := asciiCasing
  refine ⟨fun s _ => rfl, fun s c hc h => ⟨c, ?_, .inl h⟩⟩
  show c ∈ (String.ofList (s.toList.map Char.toLower)).toList
  rw [String.toList_ofList, ← toLower_other h]
  exact List.mem_map_of_mem hc

end Python
