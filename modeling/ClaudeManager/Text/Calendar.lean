import Mathlib

/-!
# The Gregorian calendar

Days since the first of January 1970, of any date of the proleptic calendar.

* `daysBeforeYear_succ` — a year later, as many days as the year has
* `daysBeforeMonth_succ` — a month later, as many days as the month has
-/

namespace Calendar

/-- The year has a 29th of February. -/
def isLeap (y : Int) : Bool := y % 4 = 0 && (y % 100 ≠ 0 || y % 400 = 0)

theorem isLeap_iff (y : Int) : isLeap y = true ↔ y % 4 = 0 ∧ (y % 100 ≠ 0 ∨ y % 400 = 0) := by
  unfold isLeap
  simp only [Bool.and_eq_true, Bool.or_eq_true, decide_eq_true_eq]

def yearLength (y : Int) : Int := if isLeap y then 366 else 365

def monthLength (y m : Int) : Int :=
  if m = 2 then if isLeap y then 29 else 28
  else if m = 4 ∨ m = 6 ∨ m = 9 ∨ m = 11 then 30
  else 31

/-- The days of the years from the first of January of year 1 to that of year `y`. -/
def daysBeforeYear (y : Int) : Int := 365 * (y - 1) + (y - 1) / 4 - (y - 1) / 100 + (y - 1) / 400

theorem daysBeforeYear_succ (y : Int) : daysBeforeYear (y + 1) = daysBeforeYear y + yearLength y := by
  unfold daysBeforeYear yearLength
  by_cases h : isLeap y = true
  · rw [if_pos h]
    rw [isLeap_iff] at h
    omega
  · rw [if_neg h]
    rw [isLeap_iff] at h
    omega

/-- The leap day of a year is the one that its end counts and its start does not. -/
theorem leapDay_eq (y : Int) : (if isLeap y then 1 else 0 : Int) =
    y / 4 - y / 100 + y / 400 - ((y - 1) / 4 - (y - 1) / 100 + (y - 1) / 400) := by
  have hnext := daysBeforeYear_succ y
  unfold daysBeforeYear yearLength at hnext
  have hlast : y + 1 - 1 = y := by omega
  rw [hlast] at hnext
  split at hnext <;> rename_i h
  · rw [if_pos h]
    omega
  · rw [if_neg h]
    omega

/-- The days of the year before its `m`-th month. -/
def daysBeforeMonth (y : Int) (m : Nat) : Int :=
  ((List.range' 1 (m - 1)).map fun k : Nat => monthLength y k).sum

theorem daysBeforeMonth_succ (y : Int) {m : Nat} (h : 0 < m) :
    daysBeforeMonth y (m + 1) = daysBeforeMonth y m + monthLength y m := by
  obtain ⟨k, rfl⟩ := Nat.exists_eq_add_of_lt h
  unfold daysBeforeMonth
  have hcount : 0 + k + 1 + 1 - 1 = 0 + k + 1 - 1 + 1 := by omega
  rw [hcount, List.range'_concat, List.map_append, List.sum_append]
  simp only [List.map_cons, List.map_nil, List.sum_cons, List.sum_nil]
  rw [show 1 + 1 * (0 + k + 1 - 1) = 0 + k + 1 by omega, add_zero]

theorem daysBeforeMonth_year (y : Int) : daysBeforeMonth y 13 = yearLength y := by
  unfold daysBeforeMonth yearLength monthLength
  simp only [show List.range' 1 (13 - 1) = [1, 2, 3, 4, 5, 6, 7, 8, 9, 10, 11, 12] from rfl,
    List.map_cons, List.map_nil, List.sum_cons, List.sum_nil]
  cases isLeap y <;> norm_num

/-- In months from March, the lengths follow one line. -/
theorem daysBeforeMonth_eq (y : Int) {m : Nat} (hlow : 1 ≤ m) (hhigh : m ≤ 12) :
    daysBeforeMonth y m = if m ≤ 2 then (153 * (((m + 9) % 12 : Nat) : Int) + 2) / 5 - 306
      else (153 * (((m + 9) % 12 : Nat) : Int) + 2) / 5 + 59 + if isLeap y then 1 else 0 := by
  unfold daysBeforeMonth monthLength
  interval_cases m <;> cases isLeap y <;> rfl

/-- The days from the first of January 1970 to a date. -/
def dayNumber (y : Int) (m : Nat) (d : Int) : Int :=
  daysBeforeYear y - daysBeforeYear 1970 + daysBeforeMonth y m + (d - 1)

end Calendar
