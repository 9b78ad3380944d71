/-
# Dates

Days of the proleptic Gregorian calendar, counted from the first day of year 1, and the weeks
of the year that begin on Mondays.

A date is given by year, month and day, or by year, week and day of the week; both ways lead to
the number of the day (`dayOf`, `dayOfWeek`), and both are absent for what is no date.  Years go
from 1 to 9999, and the weeks of the last one are cut off where the year ends, while those of the
first may begin in the year before it.
-/
namespace PathAtlas.Calendar

-- Sums start at the core nought here, whatever other instances are in scope.
attribute [local instance(2000)] Zero.ofOfNat0

/-! ## 1. Years and months -/

def isLeap (year : Nat) : Bool := year % 4 == 0 && (year % 100 != 0 || year % 400 == 0)

def monthLength (year month : Nat) : Nat :=
  match month with
  | 2 => if isLeap year then 29 else 28
  | 4 | 6 | 9 | 11 => 30
  | _ => 31

/-- The number of days before the first of January. -/
def daysBeforeYear (year : Nat) : Nat :=
  let y := year - 1
  y * 365 + y / 4 - y / 100 + y / 400

/-- The number of days of a year before the first of a month. -/
def daysBeforeMonth (year month : Nat) : Nat :=
  ((List.range (month - 1)).map fun m => monthLength year (m + 1)).sum

/-! ## 2. Day numbers -/

def lastYear : Nat := 9999

/-- The number of the first of January 1970. -/
def epochDay : Nat := 719163

/-- The number of a date; absent when there is no such date. -/
def dayOf (year month day : Nat) : Option Nat :=
  if 1 ≤ year && year ≤ lastYear && 1 ≤ month && month ≤ 12
      && 1 ≤ day && day ≤ monthLength year month then
    some (daysBeforeYear year + daysBeforeMonth year month + day)
  else none

/-- The day of the week of the first of January, Monday being nought. -/
def firstWeekday (year : Nat) : Nat := (daysBeforeYear year + 7) % 7

/-- The number of the Monday of the first week: the week with the first Thursday. -/
def firstMonday (year : Nat) : Nat :=
  let monday := daysBeforeYear year + 1 - firstWeekday year
  if 3 < firstWeekday year then monday + 7 else monday

/-- Years that begin on a Thursday, and leap years that begin on a Wednesday, have 53 weeks. -/
def weeksOf (year : Nat) : Nat :=
  if firstWeekday year == 3 || (firstWeekday year == 2 && isLeap year) then 53 else 52

/-- The number of a day given by year, week and day of the week, Monday being one. -/
def dayOfWeek (year week day : Nat) : Option Nat :=
  if 1 ≤ year && year ≤ lastYear && 1 ≤ week && week ≤ weeksOf year && 1 ≤ day && day ≤ 7 then
    let n := firstMonday year + (week - 1) * 7 + day - 1
    if n < daysBeforeYear (lastYear + 1) + 1 then some n else none
  else none

example : dayOf 1970 1 1 = some epochDay := by decide
example : dayOf 2100 2 29 = none := by decide
example : dayOfWeek 2024 18 3 = dayOf 2024 5 1 := by decide

end PathAtlas.Calendar
