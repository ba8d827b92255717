import Courier.Number.Binary64

set_option autoImplicit false

/-! # Decimal texts of binary numbers

The shortest decimal that reads back as a given number, and the texts made from its digits. The
digits are found on the grids of one, two, … seventeen significant digits: the first grid with a
point among the decimals that round to the number wins, and of two points on it the nearer.

A `Decimal.Style` says how digits are laid out: where positional notation ends, whether whole
numbers keep a fraction, and how an exponent is signed. -/

namespace Courier

/-- The decimal `digits * 10 ^ exponent`. -/
structure Decimal where
  digits : Nat
  exponent : Int
  deriving DecidableEq

/-! ## Shortest digits -/

/-- Whether `a / b ≤ c / d`. -/
def Ratio.le (a b c d : Nat) : Bool := a * d ≤ c * b

/-- The power `10 ^ e` as numerator and denominator. -/
def Decimal.power (e : Int) : Nat × Nat := (Nat.pow 10 e.toNat, Nat.pow 10 (-e).toNat)

/-- The exponent `k` with `10 ^ k ≤ num / den < 10 ^ (k + 1)`, for a positive quotient. -/
def Decimal.magnitude (num den : Nat) : Int :=
  let guess : Int := ((num.log2 : Int) - (den.log2 : Int)) * 30103 / 100000
  let atLeast (k : Int) : Bool :=
    let (p, q) := Decimal.power k
    Ratio.le p q num den
  if atLeast (guess + 1) then guess + 1
  else if atLeast guess then guess
  else guess - 1

/-- The decimals that read back as a number: from `low` to `high` in units of `1 / den`, the ends
    included if `closed`, around `value`. -/
structure Decimal.Interval where
  value : Nat
  low : Nat
  high : Nat
  den : Nat
  closed : Bool

/-- The interval of a positive number `m * 2 ^ e`. Its ends are half way to the neighbours, and
    belong to it when the significand is even. -/
def Decimal.Interval.around (m : Nat) (e : Int) : Decimal.Interval :=
  let p := Nat.pow 2 (e - 2).toNat
  let below := if m = 0x10000000000000 ∧ -1074 < e then 1 else 2
  ⟨4 * m * p, (4 * m - below) * p, (4 * m + 2) * p, Nat.pow 2 (2 - e).toNat, m % 2 = 0⟩

/-- Whether `digits * 10 ^ exponent` lies in an interval. -/
def Decimal.Interval.contains (i : Decimal.Interval) (d : Decimal) : Bool :=
  let (p, q) := Decimal.power d.exponent
  let n := d.digits * p
  if i.closed then Ratio.le i.low i.den n q && Ratio.le n q i.high i.den
  else !(Ratio.le n q i.low i.den) && !(Ratio.le i.high i.den n q)

/-- The decimal on the grid of multiples of `10 ^ e` that reads back as the number, if there is
    one; of two the nearer, and the even one of two equally near. -/
def Decimal.Interval.onGrid? (i : Decimal.Interval) (e : Int) : Option Decimal :=
  let (p, q) := Decimal.power e
  let floor := i.value * q / (i.den * p)
  let below : Decimal := ⟨floor, e⟩
  let above : Decimal := ⟨floor + 1, e⟩
  match i.contains below, i.contains above with
  | true, false => some below
  | false, true => some above
  | false, false => none
  | true, true =>
    let rest := 2 * (i.value * q - floor * (i.den * p))
    if rest < i.den * p ∨ (rest = i.den * p ∧ floor % 2 = 0) then some below else some above

/-- Tries grids of `n`, `n + 1`, … significant digits. -/
def Decimal.search (i : Decimal.Interval) (k : Int) : Nat → Nat → Decimal
  | 0, n => ⟨i.value / i.den, n⟩
  | left + 1, n =>
    match i.onGrid? (k + 1 - n) with
    | some d => d
    | none => Decimal.search i k left (n + 1)

/-- Moves the zeros at the end of the digits into the exponent. -/
def Decimal.strip (fuel : Nat) (d : Decimal) : Decimal :=
  match fuel with
  | 0 => d
  | fuel + 1 =>
    if d.digits ≠ 0 ∧ d.digits % 10 = 0 then Decimal.strip fuel ⟨d.digits / 10, d.exponent + 1⟩
    else d

/-- The shortest decimal that reads back as `m * 2 ^ e`. -/
def Decimal.shortest (m : Nat) (e : Int) : Decimal :=
  if m = 0 then ⟨0, 0⟩
  else
    let i := Decimal.Interval.around m e
    Decimal.strip 20 (Decimal.search i (Decimal.magnitude i.value i.den) 17 1)

/-! ## Layout -/

/-- How digits are laid out. Positional notation is used when the exponent of the first digit is
    from `leastPlain` to `greatestPlain` (always, if `exponential` is off). -/
structure Decimal.Style where
  exponential : Bool
  leastPlain : Int
  greatestPlain : Int
  /-- Whether a whole number is written with a fraction of `.0`. -/
  keepsFraction : Bool
  /-- Whether a positive exponent is written with its sign. -/
  signsExponent : Bool

/-- The style that tells a number with a fraction part from a whole number. -/
def Decimal.Style.literal : Decimal.Style := ⟨true, -5, 15, true, false⟩

/-- The style that never uses an exponent. -/
def Decimal.Style.plain : Decimal.Style := ⟨false, 0, 0, false, false⟩

/-- The style of numbers in JSON texts. -/
def Decimal.Style.json : Decimal.Style := ⟨true, -5, 15, true, true⟩

/-- The text of `n` copies of the digit zero. -/
def Decimal.zeros (n : Nat) : String := String.ofList (List.replicate n '0')

/-- Digits with the point in its place. -/
def Decimal.positional (keepsFraction : Bool) (d : Decimal) : String :=
  let text := toString d.digits
  if 0 ≤ d.exponent then
    text ++ (if d.digits = 0 then "" else Decimal.zeros d.exponent.toNat) ++
      (if keepsFraction then ".0" else "")
  else
    let places := (-d.exponent).toNat
    if places < text.length then
      String.ofList (text.toList.take (text.length - places)) ++ "." ++
        String.ofList (text.toList.drop (text.length - places))
    else "0." ++ Decimal.zeros (places - text.length) ++ text

/-- One digit before the point, and an exponent. -/
def Decimal.scientific (signsExponent : Bool) (d : Decimal) : String :=
  let text := toString d.digits
  let e : Int := d.exponent + (text.length : Int) - 1
  let head := String.ofList (text.toList.take 1)
  let tail := String.ofList (text.toList.drop 1)
  let sign := if e < 0 then "-" else if signsExponent then "+" else ""
  head ++ (if tail.isEmpty then "" else "." ++ tail) ++ "e" ++ sign ++ toString e.natAbs

/-- A nonnegative decimal in a style. -/
def Decimal.text (style : Decimal.Style) (d : Decimal) : String :=
  let first : Int := d.exponent + ((toString d.digits).length : Int) - 1
  if d.digits = 0 || !style.exponential ||
      (style.leastPlain ≤ first && first ≤ style.greatestPlain) then
    d.positional style.keepsFraction
  else d.scientific style.signsExponent

/-- The text of a number in a style. -/
def Binary64.text (style : Decimal.Style) : Binary64 → String
  | .nan => "NaN"
  | .infinity s => if s then "-inf" else "inf"
  | .finite s m e => (if s then "-" else "") ++ (Decimal.shortest m e).text style

end Courier
