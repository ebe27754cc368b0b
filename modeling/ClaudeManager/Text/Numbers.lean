import Mathlib
import ClaudeManager.Text.Utf8

/-!
# Numbers in a text

* `parseInt` — an optional sign and digits
* `parseInt_ascii` — nothing else is a number
-/

namespace Text

/-- A digit sequence, as a number. -/
def digitsValue (ds : List Char) : Option Int :=
  if ds ≠ [] ∧ ds.all Char.isDigit then some (Nat.ofDigitChars 10 ds 0) else none

/-- An optional sign and digits, as a number of any size. -/
def parseInt : List Char → Option Int
  | '+' :: ds => digitsValue ds
  | '-' :: ds => (digitsValue ds).map (- ·)
  | ds => digitsValue ds

theorem isDigit_ascii {c : Char} (h : c.isDigit = true) : c.toNat < 128 := by
  unfold Char.isDigit at h
  rw [Bool.and_eq_true, decide_eq_true_eq, decide_eq_true_eq] at h
  exact lt_of_le_of_lt (UInt32.le_iff_toNat_le.mp h.2) (by decide)

theorem digitsValue_some {ds : List Char} {v : Int} (h : digitsValue ds = some v) :
    ds ≠ [] ∧ ds.all Char.isDigit = true := by
  unfold digitsValue at h
  split at h
  · assumption
  · cases h

theorem ascii_of_digits {ds : List Char} (h : ds.all Char.isDigit = true) : Ascii ds := fun c hc =>
  isDigit_ascii (List.all_eq_true.mp h c hc)

theorem parseInt_ascii {m : List Char} {v : Int} (h : parseInt m = some v) : Ascii m := by
  unfold parseInt at h
  split at h
  · intro c hc
    rcases List.mem_cons.mp hc with rfl | hc
    · decide
    · exact ascii_of_digits (digitsValue_some h).2 c hc
  · obtain ⟨w, hw, -⟩ := Option.map_eq_some_iff.mp h
    intro c hc
    rcases List.mem_cons.mp hc with rfl | hc
    · decide
    · exact ascii_of_digits (digitsValue_some hw).2 c hc
  · exact ascii_of_digits (digitsValue_some h).2

/-- Digits alone are read the same with and without a sign allowed. -/
theorem parseInt_digits {ds : List Char} {v : Int} (h : digitsValue ds = some v) : parseInt ds = some v := by
  have hdigits := (digitsValue_some h).2
  unfold parseInt
  split
  · exact absurd (List.all_eq_true.mp hdigits _ List.mem_cons_self) (by decide)
  · exact absurd (List.all_eq_true.mp hdigits _ List.mem_cons_self) (by decide)
  · exact h

end Text
