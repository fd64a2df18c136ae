/-
  LedgerQuery.Time.Instant

  Points in time as civil dates and times of day in UTC, in the proleptic Gregorian calendar,
  with nanoseconds. A minute may have a leap second, its sixty-first. The order of the fields,
  year first, is the order of time.
-/

namespace LedgerQuery

/-! ## Calendar -/

namespace Calendar

def isLeapYear (year : Int) : Bool :=
  year % 4 == 0 && (year % 100 != 0 || year % 400 == 0)

def daysInMonth (year : Int) (month : Nat) : Nat :=
  if month = 2 then if isLeapYear year then 29 else 28
  else if month = 4 ∨ month = 6 ∨ month = 9 ∨ month = 11 then 30
  else 31

/-- The years that an instant may lie in. -/
def firstYear : Int := -262143

def lastYear : Int := 262142

/-- The date after a date. -/
def nextDay (year : Int) (month day : Nat) : Int × Nat × Nat :=
  if day < daysInMonth year month then (year, month, day + 1)
  else if month < 12 then (year, month + 1, 1)
  else (year + 1, 1, 1)

/-- The date before a date. -/
def previousDay (year : Int) (month day : Nat) : Int × Nat × Nat :=
  if 1 < day then (year, month, day - 1)
  else if 1 < month then (year, month - 1, daysInMonth year (month - 1))
  else (year - 1, 12, 31)

end Calendar

/-! ## Instants -/

/-- Whether fields are those of a date and time that exist. -/
def Calendar.IsCivil (year : Int) (month day hour minute second nano : Nat) : Prop :=
  (firstYear ≤ year ∧ year ≤ lastYear) ∧ (1 ≤ month ∧ month ≤ 12) ∧
    (1 ≤ day ∧ day ≤ daysInMonth year month) ∧ hour < 24 ∧ minute < 60 ∧ second ≤ 60 ∧
    nano < 1000000000

instance {year : Int} {month day hour minute second nano : Nat} :
    Decidable (Calendar.IsCivil year month day hour minute second nano) := by
  unfold Calendar.IsCivil; infer_instance

/-- A point in time. -/
structure Instant where
  year : Int
  month : Nat
  day : Nat
  hour : Nat
  minute : Nat
  second : Nat
  nano : Nat
  civil : Calendar.IsCivil year month day hour minute second nano
  deriving DecidableEq

namespace Instant

/-- The instant with the given fields, if there is one. -/
def ofCivil? (year : Int) (month day hour minute second nano : Nat) : Option Instant :=
  if h : Calendar.IsCivil year month day hour minute second nano then
    some ⟨year, month, day, hour, minute, second, nano, h⟩
  else none

/-- Midnight at the start of 1970. -/
def epoch : Instant := ⟨1970, 1, 1, 0, 0, 0, 0, by decide⟩

/-- The fields in their order of weight. -/
def key (t : Instant) : List Int :=
  [t.year, t.month, t.day, t.hour, t.minute, t.second, t.nano]

instance : Ord Instant where
  compare a b := compare a.key b.key

/-- The instant that a clock `offset` minutes ahead of UTC shows as the given fields. The offset
    is less than a day, so the date moves by one day at most. -/
def ofLocal? (year : Int) (month day hour minute second nano : Nat) (offset : Int) :
    Option Instant :=
  if Calendar.IsCivil year month day hour minute second nano then
    let minutes : Int := 60 * hour + minute - offset
    let time := (minutes % 1440).toNat
    let date :=
      if minutes < 0 then Calendar.previousDay year month day
      else if minutes < 1440 then (year, month, day)
      else Calendar.nextDay year month day
    ofCivil? date.1 date.2.1 date.2.2 (time / 60) (time % 60) second nano
  else none

end Instant

end LedgerQuery
