import Mathlib

/-!
# The civil calendar

Days are counted from 1970-01-01.  The date of a day is found in the era of
400 years that contains it: eras begin on the first of March, so that a leap
day is the last day of its year.
-/

namespace Calendar

/-- Days in 400 Gregorian years. -/
def daysPerEra : Nat := 146097

/-- Days from 0000-03-01 to 1970-01-01. -/
def epochOffset : Nat := 719468

structure Date where
  year : Nat
  month : Nat
  day : Nat
deriving DecidableEq, Repr

def dateOfEra (dayOfEra : Nat) : Date :=
  let yearOfEra :=
    (dayOfEra - dayOfEra / 1460 + dayOfEra / 36524 - dayOfEra / 146096) / 365
  let dayOfYear := dayOfEra - (365 * yearOfEra + yearOfEra / 4 - yearOfEra / 100)
  let shifted := (5 * dayOfYear + 2) / 153
  let month := if shifted < 10 then shifted + 3 else shifted - 9
  { year := if month ≤ 2 then yearOfEra + 1 else yearOfEra
    month := month
    day := dayOfYear - (153 * shifted + 2) / 5 + 1 }

def dateOfDay (day : Nat) : Date :=
  let shifted := day + epochOffset
  let date := dateOfEra (shifted % daysPerEra)
  { date with year := date.year + 400 * (shifted / daysPerEra) }

def weekdayOfDay (day : Nat) : Nat := (day + 4) % 7

def isLeapYear (year : Nat) : Bool :=
  year % 4 == 0 && (year % 100 != 0 || year % 400 == 0)

def daysInMonth (year month : Nat) : Nat :=
  if month = 2 then
    if isLeapYear year then 29 else 28
  else if month = 4 ∨ month = 6 ∨ month = 9 ∨ month = 11 then
    30
  else
    31

example : dateOfDay 0 = ⟨1970, 1, 1⟩ ∧ dateOfDay 19782 = ⟨2024, 2, 29⟩ ∧
    weekdayOfDay 19782 = 4 := by decide

/-! ## The calendar repeats every 400 years -/

theorem dateOfDay_add_eras (day eras : Nat) : dateOfDay (day + daysPerEra * eras) =
    { dateOfDay day with year := (dateOfDay day).year + 400 * eras } := by
  have hshifted : day + daysPerEra * eras + epochOffset =
      day + epochOffset + daysPerEra * eras := by omega
  unfold dateOfDay
  dsimp only
  rw [hshifted, Nat.add_mul_mod_self_left, Nat.add_mul_div_left _ _ (by decide), Nat.mul_add,
    Nat.add_assoc]

theorem weekdayOfDay_add_eras (day eras : Nat) :
    weekdayOfDay (day + daysPerEra * eras) = weekdayOfDay day := by
  unfold weekdayOfDay daysPerEra
  omega

theorem daysInMonth_add_eras (year month eras : Nat) :
    daysInMonth (year + 400 * eras) month = daysInMonth year month := by
  have h4 : (year + 400 * eras) % 4 = year % 4 := by omega
  have h100 : (year + 400 * eras) % 100 = year % 100 := by omega
  unfold daysInMonth isLeapYear
  rw [h4, h100, Nat.add_mul_mod_self_left]

end Calendar
