/-! Days of the proleptic Gregorian calendar, from the year -262143 to 262142. -/
namespace Planner

namespace Calendar

def isLeap (year : Int) : Bool := year % 4 == 0 && (year % 100 != 0 || year % 400 == 0)

def monthLengths (year : Int) : List Nat :=
  [31, if isLeap year then 29 else 28, 31, 30, 31, 30, 31, 31, 30, 31, 30, 31]

/-- The number of days in a month from 1 to 12, and none in any other. -/
def daysInMonth (year : Int) (month : Nat) : Nat :=
  if month = 0 then 0 else (monthLengths year).getD (month - 1) 0

def firstYear : Int := -262143

def lastYear : Int := 262142

/-- Whether the calendar has such a day. -/
def HasDay (year : Int) (month day : Nat) : Prop :=
  firstYear ≤ year ∧ year ≤ lastYear ∧ 1 ≤ day ∧ day ≤ daysInMonth year month

instance (year : Int) (month day : Nat) : Decidable (HasDay year month day) := by
  unfold HasDay; infer_instance

/-- The days from the first day of the year 0 to the first day of a year. -/
def daysBeforeYear (year : Int) : Int :=
  365 * year + (year + 3) / 4 - (year + 99) / 100 + (year + 399) / 400

/-- The days of a year before a month. -/
def daysBeforeMonth (year : Int) (month : Nat) : Nat :=
  ((monthLengths year).take (month - 1)).foldl (· + ·) 0

/-- The year that a day falls in, counted from the first day of the year 0. The mean length of a
year gives it, or one of its neighbours. -/
def yearOfDay (n : Int) : Int :=
  let year := n * 400 / 146097
  if n < daysBeforeYear year then year - 1
  else if daysBeforeYear (year + 1) ≤ n then year + 1
  else year

/-- The month and the day in it of the given day of the year, counted from nought, with the
lengths of the months from `month` on. -/
def monthOfDay (month : Nat) : List Nat → Nat → Nat × Nat
  | [], n => (month, n + 1)
  | length :: rest, n =>
    if n < length then (month, n + 1) else monthOfDay (month + 1) rest (n - length)

end Calendar

open Calendar

structure Date where
  year : Int
  month : Nat
  day : Nat
  exists_day : HasDay year month day
deriving DecidableEq

namespace Date

def make? (year : Int) (month day : Nat) : Option Date :=
  if h : HasDay year month day then some ⟨year, month, day, h⟩ else none

/-- The first day there is. -/
def first : Date := ⟨firstYear, 1, 1, by decide⟩

/-- The days since the first day of the year 0. -/
def number (d : Date) : Int := daysBeforeYear d.year + daysBeforeMonth d.year d.month + d.day - 1

def ofNumber? (n : Int) : Option Date :=
  let year := yearOfDay n
  let (month, day) := monthOfDay 1 (monthLengths year) (n - daysBeforeYear year).toNat
  make? year month day

/-- The day so many days later, or earlier for a negative number. -/
def addDays? (d : Date) (n : Int) : Option Date := ofNumber? (d.number + n)

/-- The days since the last Sunday. -/
def daysFromSunday (d : Date) : Int := (d.number + 6) % 7

/-- The first day of the next month. -/
def nextMonth? (d : Date) : Option Date :=
  if d.month = 12 then make? (d.year + 1) 1 1 else make? d.year (d.month + 1) 1

end Date
end Planner
