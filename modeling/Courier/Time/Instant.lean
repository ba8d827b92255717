import Courier.Time.Calendar

set_option autoImplicit false

/-! # Instants

Points in universal time, in seconds from the beginning of 1970 and nanoseconds. A leap second is a
second counted on past a billion nanoseconds. Universal time has them at the ends of minutes alone;
an instant may have one in any second. -/

namespace Courier

/-- The first second that has an instant: the start of the year −262143. -/
def Instant.first : Int := -8334601228800

/-- The last second that has an instant: the end of the year 262142. -/
def Instant.last : Int := 8210266876799

/-- A point in time. -/
structure Instant where
  seconds : Int
  nanos : Nat
  nanos_lt : nanos < 2000000000
  /-- The calendar is bounded. -/
  in_range : Instant.first ≤ seconds ∧ seconds ≤ Instant.last
  deriving DecidableEq

/-- The instant with these parts, if there is one. -/
def Instant.of? (seconds : Int) (nanos : Nat) : Option Instant :=
  if h : nanos < 2000000000 ∧ Instant.first ≤ seconds ∧ seconds ≤ Instant.last then
    some ⟨seconds, nanos, h.1, h.2⟩
  else none

/-- The instant with these parts, if universal time has it: a leap second must end a minute. -/
def Instant.ofUnix? (seconds : Int) (nanos : Nat) : Option Instant :=
  if 1000000000 ≤ nanos ∧ seconds % 60 ≠ 59 then none else Instant.of? seconds nanos

/-- Whether an instant falls in a leap second. -/
def Instant.isLeap (t : Instant) : Bool := 1000000000 ≤ t.nanos

/-- The day number of the day that an instant lies in. -/
def Instant.dayNumber (t : Instant) : Int := t.seconds.fdiv 86400

/-- The date of the day that an instant lies in. -/
def Instant.date (t : Instant) : Date := Date.ofDayNumber t.dayNumber

/-- The year that an instant lies in. -/
def Instant.year (t : Instant) : Int := t.date.year

/-- The seconds since midnight. -/
def Instant.secondOfDay (t : Instant) : Nat := (t.seconds.fmod 86400).toNat

/-- The nanoseconds of a second begin with none. -/
theorem Instant.zero_lt_nanos : 0 < 2000000000 := by decide

/-- The nanoseconds of a leap second begin with a billion. -/
theorem Instant.leap_lt_nanos : 1000000000 < 2000000000 := by decide

/-- An instant without its fraction of a second; a leap second stays one. -/
def Instant.wholeSecond (t : Instant) : Instant :=
  if t.isLeap then ⟨t.seconds, 1000000000, Instant.leap_lt_nanos, t.in_range⟩
  else ⟨t.seconds, 0, Instant.zero_lt_nanos, t.in_range⟩

/-- The order in time: by seconds, then by nanoseconds. -/
def Instant.le (a b : Instant) : Bool :=
  a.seconds < b.seconds || (a.seconds == b.seconds && a.nanos ≤ b.nanos)

end Courier
