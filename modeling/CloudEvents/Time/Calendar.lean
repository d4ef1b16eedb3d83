/-
  The civil calendar: dates and day numbers.

  Days are counted from 1 January 1970, forwards and backwards without end.  The count works on years
  that begin in March, so that the day a leap year adds is the last one of its year, and on eras of
  four hundred years, after which the calendar repeats: an era has 146097 days.  Within a year the
  months from March on have 31, 30, 31, 30, 31 days over and over, which `(153 * m + 2) / 5` counts.
-/

namespace CloudEvents.Time

/-- A year of the calendar, without end in both directions; there is a year 0, and it is a leap
year. -/
structure Date where
  year : Int
  month : Nat
  day : Nat
  deriving DecidableEq, Repr

/-- Every fourth year, of the centuries only every fourth. -/
def isLeapYear (y : Int) : Bool := y % 4 == 0 && (y % 100 != 0 || y % 400 == 0)

/-- The length of a month; 0 if there is no such month. -/
def daysInMonth (y : Int) (m : Nat) : Nat :=
  match m with
  | 1 | 3 | 5 | 7 | 8 | 10 | 12 => 31
  | 4 | 6 | 9 | 11 => 30
  | 2 => if isLeapYear y then 29 else 28
  | _ => 0

/-- A date that the calendar has. -/
def Date.exists (d : Date) : Bool := 1 ≤ d.day && d.day ≤ daysInMonth d.year d.month

/-- The number of days in an era. -/
def eraDays : Int := 146097

/-- The days of an era that stand before a year of it. -/
def daysBeforeYear (y : Nat) : Nat := 365 * y + y / 4 - y / 100

/-- The days of a year that stand before a month of it, counted from March as month 0. -/
def daysBeforeMonth (m : Nat) : Nat := (153 * m + 2) / 5

/-- The day number of a date. -/
def Date.dayNumber (d : Date) : Int :=
  let y := if d.month ≤ 2 then d.year - 1 else d.year
  let m := if d.month ≤ 2 then d.month + 9 else d.month - 3
  let era := y / 400
  let yearOfEra := (y % 400).toNat
  era * eraDays + (daysBeforeYear yearOfEra + daysBeforeMonth m + (d.day - 1) : Nat) - 719468

/-- The date of a day number. -/
def Date.ofDayNumber (n : Int) : Date :=
  let z := n + 719468
  let era := z / eraDays
  let dayOfEra := (z % eraDays).toNat
  -- Without the leap days of the years before it, every year has 365 days.
  let yearOfEra := (dayOfEra - dayOfEra / 1460 + dayOfEra / 36524 - dayOfEra / 146096) / 365
  let dayOfYear := dayOfEra - daysBeforeYear yearOfEra
  let m := (5 * dayOfYear + 2) / 153
  let day := dayOfYear - daysBeforeMonth m + 1
  let month := if m < 10 then m + 3 else m - 9
  let y := (yearOfEra : Int) + era * 400
  ⟨if month ≤ 2 then y + 1 else y, month, day⟩

example : (Date.mk 1970 1 1).dayNumber = 0 := by decide
example : Date.ofDayNumber 19723 = ⟨2024, 1, 1⟩ := by decide
example : Date.ofDayNumber (-719529) = ⟨-1, 12, 31⟩ := by decide
example : (Date.mk 2000 2 29).exists = true ∧ (Date.mk 1900 2 29).exists = false := by decide

end CloudEvents.Time
