import Mathlib

/-!
# Hexadecimal numbers

* `hexDigit` — `char::to_digit(16)`
* `fromHex` — `from_str_radix(s, 16)` of an unsigned machine word
-/

namespace Text

/-- `char::to_digit(16)`. -/
def hexDigit (c : Char) : Option Nat :=
  if c.isDigit then some (c.toNat - 48)
  else if 'a' ≤ c ∧ c ≤ 'f' then some (c.toNat - 87)
  else if 'A' ≤ c ∧ c ≤ 'F' then some (c.toNat - 55)
  else none

/-- What is behind an optional plus sign. -/
def behindPlus : List Char → List Char
  | '+' :: rest => rest
  | cs => cs

/-- `from_str_radix(s, 16)` of a word of `bits` bits: digits under an optional plus sign. -/
def fromHex (bits : Nat) (s : String) : Option Nat :=
  let digits := behindPlus s.toList
  if digits = [] then none
  else
    ((digits.mapM hexDigit).map fun ds => ds.foldl (fun n d => 16 * n + d) 0).filter
      fun n => n < 2 ^ bits

theorem hexDigit_lt {c : Char} {d : Nat} (h : hexDigit c = some d) : c.toNat < 103 := by
  unfold hexDigit at h
  split at h
  · next hdigit =>
    unfold Char.isDigit at hdigit
    simp only [Bool.and_eq_true, decide_eq_true_eq] at hdigit
    exact lt_of_le_of_lt (UInt32.le_iff_toNat_le.mp hdigit.2) (by decide)
  · split at h
    · next hlower => exact lt_of_le_of_lt (UInt32.le_iff_toNat_le.mp hlower.2) (by decide)
    · split at h
      · next hupper => exact lt_of_le_of_lt (UInt32.le_iff_toNat_le.mp hupper.2) (by decide)
      · cases h

/-- What no character below `g` is that reads as a digit, no hexadecimal digit is. -/
theorem not_of_hexDigit {P : Char → Bool} (h : ∀ n < 103, (hexDigit (Char.ofNat n)).isSome = true →
    P (Char.ofNat n) = false) {c : Char} (hc : (hexDigit c).isSome = true) : P c = false := by
  obtain ⟨d, hd⟩ := Option.isSome_iff_exists.mp hc
  have hof : Char.ofNat c.toNat = c := Char.ofNat_toNat c
  have hlt := h c.toNat (hexDigit_lt hd)
  rw [hof] at hlt
  exact hlt hc

theorem behindPlus_spec (cs : List Char) :
    ∃ sign, cs = sign ++ behindPlus cs ∧ (sign = [] ∨ sign = ['+']) := by
  unfold behindPlus
  split
  · exact ⟨['+'], rfl, .inr rfl⟩
  · exact ⟨[], rfl, .inl rfl⟩

theorem fromHex_eq_some {bits : Nat} {s : String} {n : Nat} (h : fromHex bits s = some n) :
    behindPlus s.toList ≠ [] ∧ ∃ ds, (behindPlus s.toList).mapM hexDigit = some ds ∧
      n = ds.foldl (fun n d => 16 * n + d) 0 ∧ n < 2 ^ bits := by
  unfold fromHex at h
  simp only at h
  split at h
  · cases h
  · next hne =>
    obtain ⟨hmap, hlt⟩ := Option.filter_eq_some_iff.mp h
    obtain ⟨ds, hds, hn⟩ := Option.map_eq_some_iff.mp hmap
    exact ⟨hne, ds, hds, hn.symm, of_decide_eq_true hlt⟩

theorem isSome_of_mapM {cs : List Char} {ds : List Nat} (h : cs.mapM hexDigit = some ds) :
    ∀ c ∈ cs, (hexDigit c).isSome = true := by
  induction cs generalizing ds with
  | nil => simp
  | cons c cs ih =>
    rw [List.mapM_cons] at h
    obtain ⟨d, hd, h⟩ := Option.bind_eq_some_iff.mp h
    obtain ⟨ds', hds', -⟩ := Option.bind_eq_some_iff.mp h
    intro x hx
    rcases List.mem_cons.mp hx with rfl | hx
    · rw [hd]
      rfl
    · exact ih hds' x hx

end Text
