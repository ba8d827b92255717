set_option autoImplicit false

/-! # Binary floating point, 64 bits

Numbers of the 64-bit binary format, held as sign, significand and exponent, with the operations
that backoff delays and number texts need. Every operation is the exact rational result followed by
one rounding: to the nearest number of the format, and of two equally near ones to the one whose
significand is even. All of it is integer arithmetic, so statements about delays reduce to
statements about `Nat` and `Int`. -/

namespace Courier

/-- A number of the 64-bit binary format. The magnitude of a finite one is
    `significand * 2 ^ exponent`; numbers made by `Binary64.ofRatio` have a significand below
    `2 ^ 53`, and at least `2 ^ 52` unless the exponent is the least one, `-1074`. -/
inductive Binary64
  | nan
  | infinity (negative : Bool)
  | finite (negative : Bool) (significand : Nat) (exponent : Int)
  deriving DecidableEq

/-! ## Rounding -/

/-- The whole number nearest to a quotient, the even one of two equally near. -/
def roundHalfEven (num den : Nat) : Nat :=
  let q := num / den
  let r := num % den
  if 2 * r < den then q
  else if den < 2 * r then q + 1
  else if q % 2 = 0 then q else q + 1

/-- The magnitude `num / den` divided by `2 ^ e`, as a pair of numerator and denominator. -/
def Binary64.scaled (num den : Nat) (e : Int) : Nat × Nat :=
  (num * Nat.pow 2 (-e).toNat, den * Nat.pow 2 e.toNat)

/-- The exponent at which `num / den` has a significand of 53 bits, or the least exponent. -/
def Binary64.exponentOf (num den : Nat) : Int :=
  let guess : Int := (num.log2 : Int) - (den.log2 : Int) - 52
  let (n, d) := Binary64.scaled num den guess
  max (-1074) (if n < d * 0x10000000000000 then guess - 1 else guess)

/-- The number nearest to `num / den`, with the given sign. -/
def Binary64.ofRatio (negative : Bool) (num den : Nat) : Binary64 :=
  if num = 0 then .finite negative 0 (-1074)
  else
    let e := Binary64.exponentOf num den
    let (n, d) := Binary64.scaled num den e
    let q := roundHalfEven n d
    let (q, e) := if q = 0x20000000000000 then (0x10000000000000, e + 1) else (q, e)
    if 971 < e then .infinity negative else .finite negative q e

/-- The number nearest to a whole number. -/
def Binary64.ofNat (n : Nat) : Binary64 := Binary64.ofRatio false n 1

/-- The number nearest to `digits * 10 ^ exponent`. Exponents far beyond the range of the format
    are cut down first: the result is the same and the powers stay small. -/
def Binary64.ofDecimal (negative : Bool) (digits : Nat) (exponent : Int) : Binary64 :=
  if digits = 0 then .finite negative 0 (-1074)
  else if 400 < exponent then .infinity negative
  else if exponent < -400 - 2 * (digits.log2 : Int) then .finite negative 0 (-1074)
  else
    Binary64.ofRatio negative (digits * Nat.pow 10 exponent.toNat) (Nat.pow 10 (-exponent).toNat)

/-! ## Arithmetic -/

/-- The sign of a number, `true` for negative. -/
def Binary64.negative : Binary64 → Bool
  | .nan => false
  | .infinity s => s
  | .finite s _ _ => s

/-- A finite magnitude as numerator and denominator. -/
def Binary64.magnitude (m : Nat) (e : Int) : Nat × Nat :=
  (m * Nat.pow 2 e.toNat, Nat.pow 2 (-e).toNat)

/-- The rounded product. -/
def Binary64.mul : Binary64 → Binary64 → Binary64
  | .nan, _ => .nan
  | _, .nan => .nan
  | .infinity s, .infinity t => .infinity (s != t)
  | .infinity s, .finite t m _ => if m = 0 then .nan else .infinity (s != t)
  | .finite s m _, .infinity t => if m = 0 then .nan else .infinity (s != t)
  | .finite s m e, .finite t n f =>
    let (num, den) := Binary64.magnitude (m * n) (e + f)
    Binary64.ofRatio (s != t) num den

/-- The rounded quotient. -/
def Binary64.div : Binary64 → Binary64 → Binary64
  | .nan, _ => .nan
  | _, .nan => .nan
  | .infinity _, .infinity _ => .nan
  | .infinity s, .finite t _ _ => .infinity (s != t)
  | .finite s _ _, .infinity t => .finite (s != t) 0 (-1074)
  | .finite s m e, .finite t n f =>
    if n = 0 then (if m = 0 then .nan else .infinity (s != t))
    else
      let (num, den) := Binary64.magnitude m (e - f)
      Binary64.ofRatio (s != t) num (den * n)

/-- A finite number as a whole multiple of `2 ^ -1074`. -/
def Binary64.units (s : Bool) (m : Nat) (e : Int) : Int :=
  let n : Int := (m * Nat.pow 2 (e + 1074).toNat : Nat)
  if s then -n else n

/-- The rounded sum. -/
def Binary64.add : Binary64 → Binary64 → Binary64
  | .nan, _ => .nan
  | _, .nan => .nan
  | .infinity s, .infinity t => if s = t then .infinity s else .nan
  | .infinity s, .finite _ _ _ => .infinity s
  | .finite _ _ _, .infinity t => .infinity t
  | .finite s m e, .finite t n f =>
    let sum := Binary64.units s m e + Binary64.units t n f
    if sum = 0 then .finite (s && t) 0 (-1074)
    else Binary64.ofRatio (sum < 0) sum.natAbs (Nat.pow 2 1074)

/-- Squares `base` as often as `n` has binary digits and multiplies the squares of its set digits
    together, least digit first; `fuel` bounds the number of digits. -/
def Binary64.powLoop (fuel : Nat) (base acc : Binary64) (n : Nat) : Binary64 :=
  match fuel with
  | 0 => acc
  | fuel + 1 =>
    let acc := if n % 2 = 1 then acc.mul base else acc
    if n / 2 = 0 then acc else Binary64.powLoop fuel (base.mul base) acc (n / 2)

/-- A power with a whole exponent by repeated squaring, each product rounded. -/
def Binary64.pow (base : Binary64) (n : Nat) : Binary64 :=
  Binary64.powLoop (n.log2 + 1) base (Binary64.ofNat 1) n

/-! ## Comparison -/

/-- Whether one number is less than another; nothing compares with a NaN. -/
def Binary64.lt : Binary64 → Binary64 → Bool
  | .nan, _ => false
  | _, .nan => false
  | .infinity s, .infinity t => s && !t
  | .infinity s, .finite _ _ _ => s
  | .finite _ _ _, .infinity t => !t
  | .finite s m e, .finite t n f => Binary64.units s m e < Binary64.units t n f

/-- Whether one number is at most another; nothing compares with a NaN. -/
def Binary64.le : Binary64 → Binary64 → Bool
  | .nan, _ => false
  | _, .nan => false
  | x, y => !(y.lt x)

/-- The lesser of two numbers; a NaN gives way to the other one. -/
def Binary64.min (x y : Binary64) : Binary64 :=
  match x, y with
  | .nan, y => y
  | x, .nan => x
  | x, y => if y.lt x then y else x

/-- Whether the two numbers are equal as numbers: both zeros are, and no NaN is. -/
def Binary64.sameNumber (x y : Binary64) : Bool := x.le y && y.le x

/-- Whether a number is finite. -/
def Binary64.isFinite : Binary64 → Bool
  | .finite _ _ _ => true
  | _ => false

end Courier
