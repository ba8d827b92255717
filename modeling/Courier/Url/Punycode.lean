set_option autoImplicit false

/-! # Punycode

Labels of domain names that stand for text outside ASCII begin with `xn--`; what follows spells the
text in letters, digits and hyphens. -/

namespace Courier

/-- The value of a digit: letters are 0 to 25, digits 26 to 35. -/
def Punycode.digit? (c : Char) : Option Nat :=
  if c.isLower then some (c.toNat - 97)
  else if c.isUpper then some (c.toNat - 65)
  else if c.isDigit then some (c.toNat - 22)
  else none

/-- Halves a bias step until it is small; `fuel` bounds the steps. -/
def Punycode.settle : Nat → Nat → Nat → Nat × Nat
  | 0, delta, k => (delta, k)
  | fuel + 1, delta, k =>
    if 455 < delta then Punycode.settle fuel (delta / 35) (k + 36) else (delta, k)

/-- The bias after a code point has been placed. -/
def Punycode.adapt (delta count : Nat) (first : Bool) : Nat :=
  let delta := if first then delta / 700 else delta / 2
  let (delta, k) := Punycode.settle 20 (delta + delta / count) 0
  k + 36 * delta / (delta + 38)

/-- One number of variable length from the digits: its value and the digits after it. -/
def Punycode.number? (bias : Nat) : Nat → Nat → Nat → List Char → Option (Nat × List Char)
  | _, _, _, [] => none
  | k, weight, acc, c :: s =>
    match Punycode.digit? c with
    | none => none
    | some d =>
      let threshold := if k ≤ bias then 1 else min 26 (k - bias)
      let acc := acc + d * weight
      if d < threshold then some (acc, s)
      else Punycode.number? bias (k + 36) (weight * (36 - threshold)) acc s

/-- The code points that the digits place among those so far; `fuel` bounds their number. -/
def Punycode.place? : Nat → Nat → Nat → Nat → List Nat → List Char → Option (List Nat)
  | _, _, _, _, out, [] => some out
  | 0, _, _, _, _, _ => none
  | fuel + 1, n, i, bias, out, s =>
    match Punycode.number? bias 36 1 0 s with
    | none => none
    | some (delta, rest) =>
      let count := out.length + 1
      let n := n + (i + delta) / count
      let index := (i + delta) % count
      if 0x10FFFF < n ∨ (0xD800 ≤ n ∧ n ≤ 0xDFFF) then none
      else
        Punycode.place? fuel n (index + 1) (Punycode.adapt delta count (i == 0))
          (out.take index ++ n :: out.drop index) rest

/-- The code points that a label after its `xn--` spells. -/
def Punycode.decode? (s : List Char) : Option (List Nat) :=
  let tail := s.reverse.takeWhile (· ≠ '-')
  let digits := tail.reverse
  let basic := (s.take (s.length - digits.length)).dropLast
  Punycode.place? (s.length + 1) 128 0 72 (basic.map Char.toNat) digits

/-- Whether a label in lower case can stand in a name: one that spells other text must spell some
    text that is not all ASCII. -/
def Punycode.isPermitted (label : List Char) : Bool :=
  if label.take 4 = ['x', 'n', '-', '-'] then
    match Punycode.decode? (label.drop 4) with
    | some points => points.any (128 ≤ ·)
    | none => false
  else true

end Courier
