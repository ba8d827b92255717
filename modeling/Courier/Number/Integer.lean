set_option autoImplicit false

/-! # Whole numbers in decimal -/

namespace Courier

/-- The number that decimal digits stand for. -/
def decimalValue (digits : List Char) : Nat := digits.foldl (fun n c => n * 10 + (c.toNat - 48)) 0

/-- The number that a text of ASCII digits stands for; the text must not be empty. -/
def readDigits? (digits : List Char) : Option Nat :=
  if digits.isEmpty ∨ !digits.all Char.isDigit then none else some (decimalValue digits)

/-- Reads a whole number that may have a plus sign. -/
def readUnsigned? (text : String) : Option Nat :=
  match text.toList with
  | '+' :: digits => readDigits? digits
  | digits => readDigits? digits

/-- Reads a whole number that may have a sign. -/
def readSigned? (text : String) : Option Int :=
  match text.toList with
  | '-' :: digits => (readDigits? digits).map fun n => -(n : Int)
  | '+' :: digits => (readDigits? digits).map Int.ofNat
  | digits => (readDigits? digits).map Int.ofNat

/-- Reads a whole number below `2 ^ 64`. -/
def readUnsigned64? (text : String) : Option Nat :=
  (readUnsigned? text).filter fun n => n < 0x10000000000000000

/-- Reads a whole number from `-2 ^ 63` on and below `2 ^ 63`. -/
def readSigned64? (text : String) : Option Int :=
  (readSigned? text).filter fun n => -0x8000000000000000 ≤ n ∧ n < 0x8000000000000000

end Courier
