import Courier.Number.Binary64

set_option autoImplicit false

/-! # Durations

Spans of time in whole nanoseconds, the text that log messages show for one, and the way to and from
seconds as a binary number. -/

namespace Courier

/-- A span of time. -/
structure Duration where
  nanos : Nat
  deriving DecidableEq

/-- A span of whole seconds. -/
def Duration.ofSeconds (n : Nat) : Duration := ⟨n * 1000000000⟩

/-- A span of whole milliseconds. -/
def Duration.ofMillis (n : Nat) : Duration := ⟨n * 1000000⟩

/-- No time at all. -/
def Duration.zero : Duration := ⟨0⟩

/-- The longest span: its whole seconds are the greatest number of 64 bits. -/
def Duration.longest : Duration := ⟨(0x10000000000000000 - 1) * 1000000000 + 999999999⟩

/-- The longer of two spans. -/
def Duration.max (a b : Duration) : Duration := ⟨Nat.max a.nanos b.nanos⟩

/-- The shorter of two spans. -/
def Duration.min (a b : Duration) : Duration := ⟨Nat.min a.nanos b.nanos⟩

/-- The whole milliseconds that a wait of this span takes: a begun millisecond counts. -/
def Duration.ceilMillis (d : Duration) : Nat := (d.nanos + 999999) / 1000000

/-- A wait is never shorter than its span, and less than a millisecond longer. -/
theorem Duration.ceilMillis_bounds (d : Duration) :
    d.nanos ≤ d.ceilMillis * 1000000 ∧ d.ceilMillis * 1000000 < d.nanos + 1000000 := by
  unfold Duration.ceilMillis; omega

/-! ## Seconds as a binary number -/

/-- The span in seconds: the whole seconds plus the nanoseconds divided by a billion, each step
    rounded. -/
def Duration.toSeconds (d : Duration) : Binary64 :=
  (Binary64.ofNat (d.nanos / 1000000000)).add
    ((Binary64.ofNat (d.nanos % 1000000000)).div (Binary64.ofNat 1000000000))

/-- The span nearest to a number of seconds, of two equally near ones the even one. Negative
numbers, numbers that are not finite, and spans beyond the longest have none. -/
def Duration.ofBinary64? : Binary64 → Option Duration
  | .nan => none
  | .infinity _ => none
  | .finite s m e =>
    if s ∧ m ≠ 0 then none
    else
      let (num, den) := Binary64.magnitude m e
      let d : Duration := ⟨roundHalfEven (num * 1000000000) den⟩
      if d.nanos ≤ Duration.longest.nanos then some d else none

/-! ## Text -/

/-- A decimal fraction of `width` digits without the zeros at its end. -/
def Duration.fraction (n width : Nat) : String :=
  let digits := (toString n).toList
  let padded := List.replicate (width - digits.length) '0' ++ digits
  let kept := (padded.reverse.dropWhile (· == '0')).reverse
  if kept.isEmpty then "" else "." ++ String.ofList kept

/-- The span in its largest unit that gives a whole part: `2.5s`, `1.5ms`, `1.5µs`, `1ns`. -/
def Duration.text (d : Duration) : String :=
  let n := d.nanos
  if 1000000000 ≤ n then
    toString (n / 1000000000) ++ Duration.fraction (n % 1000000000) 9 ++ "s"
  else if 1000000 ≤ n then toString (n / 1000000) ++ Duration.fraction (n % 1000000) 6 ++ "ms"
  else if 1000 ≤ n then toString (n / 1000) ++ Duration.fraction (n % 1000) 3 ++ "µs"
  else toString n ++ "ns"

end Courier
