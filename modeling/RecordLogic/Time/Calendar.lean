/-!
# The calendar

Days are counted from the first of January of the year 1, which is day 1, under the rules for leap
years carried back and forth over all years.
-/

namespace RecordLogic.Calendar

def isLeap (year : Int) : Bool := year % 4 == 0 && (year % 100 != 0 || year % 400 == 0)

def monthLength (year : Int) (month : Nat) : Nat :=
  if month = 2 then (if isLeap year then 29 else 28)
  else if month = 4 ∨ month = 6 ∨ month = 9 ∨ month = 11 then 30
  else 31

def daysBeforeYear (year : Int) : Int :=
  let y := year - 1
  365 * y + y / 4 - y / 100 + y / 400

def daysBeforeMonth (year : Int) (month : Nat) : Nat :=
  (List.range (month - 1)).foldl (fun days m => days + monthLength year (m + 1)) 0

def firstYear : Int := -262143

def lastYear : Int := 262142

/-- The number of a date that exists. -/
def day? (year : Int) (month day : Nat) : Option Int :=
  if firstYear ≤ year ∧ year ≤ lastYear ∧ 1 ≤ month ∧ month ≤ 12 ∧ 1 ≤ day ∧ day ≤ monthLength year month then
    some (daysBeforeYear year + daysBeforeMonth year month + day)
  else none

def firstDay : Int := daysBeforeYear firstYear + 1

def lastDay : Int := daysBeforeYear (lastYear + 1)

/-- The year of a day: the mean length of a year finds it up to one. -/
def yearOf (day : Int) : Int :=
  let guess := (day - 1) * 400 / 146097 + 1
  if day ≤ daysBeforeYear guess then guess - 1
  else if daysBeforeYear (guess + 1) < day then guess + 1
  else guess

/-- The month and the day in it, for a day of the year counted from 1. -/
def monthDay (year : Int) (dayOfYear : Nat) : Nat × Nat :=
  let month := ((List.range 12).filter fun m => daysBeforeMonth year (m + 1) < dayOfYear).length
  (month, dayOfYear - daysBeforeMonth year month)

def date (day : Int) : Int × Nat × Nat :=
  let year := yearOf day
  let (month, d) := monthDay year (day - daysBeforeYear year).toNat
  (year, month, d)

end RecordLogic.Calendar
