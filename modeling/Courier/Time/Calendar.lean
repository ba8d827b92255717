set_option autoImplicit false

/-! # The Gregorian calendar

Dates of the Gregorian calendar extended to all years, counted in days from 1 January 1970.

A year is reckoned from March, so that the leap day is its last one: the day number of a date is
then a sum of whole years and of months whose lengths follow one linear rule. Four hundred years
have 146097 days. -/

namespace Courier

/-- A day of the calendar: `month` from 1 to 12, `day` from 1. -/
structure Date where
  year : Int
  month : Nat
  day : Nat
  deriving DecidableEq

/-- A day of the week, from `0` for Monday. -/
abbrev Weekday := Nat

/-! ## Lengths -/

/-- Every fourth year is a leap year, but of the full centuries only every fourth. -/
def Date.isLeapYear (year : Int) : Bool :=
  year % 4 == 0 && (year % 100 != 0 || year % 400 == 0)

/-- The number of days of a month; no days for a month that does not exist. -/
def Date.daysInMonth (year : Int) (month : Nat) : Nat :=
  match month with
  | 1 | 3 | 5 | 7 | 8 | 10 | 12 => 31
  | 4 | 6 | 9 | 11 => 30
  | 2 => if Date.isLeapYear year then 29 else 28
  | _ => 0

/-- Whether the calendar has this day. -/
def Date.isReal (d : Date) : Bool := 1 ≤ d.day && d.day ≤ Date.daysInMonth d.year d.month

/-! ## Day numbers -/

/-- The number of days from 1 January 1970 to a date. -/
def Date.dayNumber (d : Date) : Int :=
  let year := if d.month ≤ 2 then d.year - 1 else d.year
  let era := year.fdiv 400
  let yearOfEra := year - era * 400
  let month : Int := if d.month ≤ 2 then d.month + 9 else d.month - 3
  let dayOfYear := (153 * month + 2) / 5 + d.day - 1
  let dayOfEra := yearOfEra * 365 + yearOfEra / 4 - yearOfEra / 100 + dayOfYear
  era * 146097 + dayOfEra - 719468

/-- The date that is a number of days after 1 January 1970. -/
def Date.ofDayNumber (n : Int) : Date :=
  let z := n + 719468
  let era := z.fdiv 146097
  let dayOfEra := z - era * 146097
  let yearOfEra := (dayOfEra - dayOfEra / 1460 + dayOfEra / 36524 - dayOfEra / 146096) / 365
  let dayOfYear := dayOfEra - (365 * yearOfEra + yearOfEra / 4 - yearOfEra / 100)
  let month := (5 * dayOfYear + 2) / 153
  let day := dayOfYear - (153 * month + 2) / 5 + 1
  let month := if month < 10 then month + 3 else month - 9
  let year := yearOfEra + era * 400
  ⟨if month ≤ 2 then year + 1 else year, month.toNat, day.toNat⟩

/-- The weekday of a day number; 1 January 1970 was a Thursday. -/
def Date.weekdayOf (dayNumber : Int) : Weekday := ((dayNumber + 3) % 7).toNat

/-- The weekday of a date. -/
def Date.weekday (d : Date) : Weekday := Date.weekdayOf d.dayNumber

/-! ## Names -/

/-- The short names of the weekdays, from Monday. -/
def Date.weekdayNames : List String := ["Mon", "Tue", "Wed", "Thu", "Fri", "Sat", "Sun"]

/-- The short names of the months, from January. -/
def Date.monthNames : List String :=
  ["Jan", "Feb", "Mar", "Apr", "May", "Jun", "Jul", "Aug", "Sep", "Oct", "Nov", "Dec"]

end Courier
