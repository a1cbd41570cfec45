import TypedQuery.Calendar.Span

/-!
# Dates

Days of the proleptic Gregorian calendar. A `Day` is a year, a month and a day of the month; a
`Date` is one that exists and whose year lies within the range of this calendar. Day numbers count
from the first of March of year zero, so that a leap day ends a year.

* `Day.number`, `Day.ofNumber`: days and their numbers.
* `Date.ofDay?`: the dates among the days.
-/

namespace TypedQuery

/-- A year, a month and a day of the month. -/
structure Day where
  year : Int
  month : Nat
  day : Nat
  deriving DecidableEq, Repr

namespace Day

/-- Whether a year has a leap day. -/
def isLeap (year : Int) : Bool := year % 4 == 0 && (year % 100 != 0 || year % 400 == 0)

/-- The number of days of a month. -/
def monthLength (year : Int) (month : Nat) : Nat :=
  if month = 2 then (if isLeap year then 29 else 28)
  else if month = 4 ∨ month = 6 ∨ month = 9 ∨ month = 11 then 30
  else 31

/-- The least year of the calendar. -/
def leastYear : Int := -262143

/-- The greatest year of the calendar. -/
def greatestYear : Int := 262142

/-- Whether a day exists and its year is in range. -/
def Exists (d : Day) : Prop :=
  (leastYear ≤ d.year ∧ d.year ≤ greatestYear) ∧ (1 ≤ d.month ∧ d.month ≤ 12)
    ∧ (1 ≤ d.day ∧ d.day ≤ monthLength d.year d.month)

instance (d : Day) : Decidable d.Exists := inferInstanceAs (Decidable (_ ∧ _ ∧ _))

/-- Days since the first of March of year zero. -/
def number (d : Day) : Int :=
  let year := if d.month ≤ 2 then d.year - 1 else d.year
  let era := year.fdiv 400
  let yearOfEra := year - era * 400
  let monthOfYear : Int := if d.month ≤ 2 then d.month + 9 else d.month - 3
  let dayOfYear := (153 * monthOfYear + 2) / 5 + d.day - 1
  era * 146097 + yearOfEra * 365 + yearOfEra / 4 - yearOfEra / 100 + dayOfYear

/-- The day with a number. -/
def ofNumber (n : Int) : Day :=
  let era := n.fdiv 146097
  let dayOfEra := n - era * 146097
  let yearOfEra := (dayOfEra - dayOfEra / 1460 + dayOfEra / 36524 - dayOfEra / 146096) / 365
  let dayOfYear := dayOfEra - (365 * yearOfEra + yearOfEra / 4 - yearOfEra / 100)
  let monthOfYear := (5 * dayOfYear + 2) / 153
  let day := dayOfYear - (153 * monthOfYear + 2) / 5 + 1
  let month := if monthOfYear < 10 then monthOfYear + 3 else monthOfYear - 9
  let year := yearOfEra + era * 400
  ⟨if month ≤ 2 then year + 1 else year, month.toNat, day.toNat⟩

/-- Years from 0 to 9999 have four digits; others have a sign and at least four. -/
def yearText (year : Int) : String :=
  if 0 ≤ year ∧ year ≤ 9999 then padded 4 year.toNat
  else (if year < 0 then "-" else "+") ++ padded 4 year.natAbs

/-- Year, month and day with hyphens. -/
def text (d : Day) : String :=
  yearText d.year ++ "-" ++ padded 2 d.month ++ "-" ++ padded 2 d.day

/-- The order of days. -/
def compare (a b : Day) : Ordering :=
  (Ord.compare a.year b.year).then ((Ord.compare a.month b.month).then (Ord.compare a.day b.day))

end Day

/-- A day of the calendar. -/
structure Date where
  day : Day
  exists_day : day.Exists
  deriving DecidableEq

namespace Date

/-- The day as a date, if it is one. -/
def ofDay? (d : Day) : Option Date := if h : d.Exists then some ⟨d, h⟩ else none

/-- The date a number of days later, if the calendar has it. -/
def addDays? (d : Date) (n : Int) : Option Date := ofDay? (Day.ofNumber (d.day.number + n))

/-- Year, month and day with hyphens. -/
def text (d : Date) : String := d.day.text

/-- The order of dates. -/
def compare (a b : Date) : Ordering := a.day.compare b.day

end Date

end TypedQuery
