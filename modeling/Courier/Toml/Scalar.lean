import Courier.Number.Integer
import Courier.Time.Calendar
import Courier.Toml.Text

set_option autoImplicit false

/-! # TOML numbers and moments

Values that are written without quotes: truth values, whole numbers in four bases, floating-point
numbers, and dates and times. In numbers a low line may part two digits. -/

namespace Courier

/-! ## Numbers -/

/-- Digits without the low lines between them. The flag says whether a digit came before. -/
def Toml.joinDigits (isDigit : Char → Bool) : Bool → List Char → Option (List Char)
  | afterDigit, [] => if afterDigit then some [] else none
  | afterDigit, c :: s =>
    if isDigit c then (Toml.joinDigits isDigit true s).map (c :: ·)
    else if c = '_' ∧ afterDigit then Toml.joinDigits isDigit false s
    else none

/-- The digits of a decimal number, which does not begin with a zero that could be left out. -/
def Toml.decimalDigits (s : List Char) : Option (List Char) :=
  (Toml.joinDigits Char.isDigit false s).filter fun digits =>
    digits.length = 1 ∨ digits.head? ≠ some '0'

/-- A whole number in a base of at most sixteen. -/
def Toml.ofBase (base : Nat) (s : List Char) : Option Nat := do
  let isDigit (c : Char) : Bool := (Toml.hexDigit? c).any fun d => d < base
  let digits ← Toml.joinDigits isDigit false s
  return digits.foldl (fun n c => n * base + (Toml.hexDigit? c).getD 0) 0

/-- The exponent after its letter. -/
def Toml.readExponent? (s : List Char) : Option Int :=
  match s with
  | '-' :: s =>
    (Toml.joinDigits Char.isDigit false s).map fun digits => -(decimalValue digits : Int)
  | '+' :: s => (Toml.joinDigits Char.isDigit false s).map fun digits => (decimalValue digits : Int)
  | s => (Toml.joinDigits Char.isDigit false s).map fun digits => (decimalValue digits : Int)

/-- A floating-point number after its sign: it has a fraction or an exponent and must not be too
    large. -/
def Toml.readFloat? (negative : Bool) (s : List Char) : Option Binary64 := do
  let isMark (c : Char) : Bool := c = '.' || c = 'e' || c = 'E'
  let whole ← Toml.decimalDigits (s.takeWhile fun c => !isMark c)
  let (fraction, rest) ← match s.dropWhile fun c => !isMark c with
    | '.' :: s => do
      let digits ← Toml.joinDigits Char.isDigit false (s.takeWhile fun c => c ≠ 'e' && c ≠ 'E')
      pure (digits, s.dropWhile fun c => c ≠ 'e' && c ≠ 'E')
    | s => pure ([], s)
  let exponent ← match rest with
    | [] => pure 0
    | _ :: s => Toml.readExponent? s
  let x :=
    Binary64.ofDecimal negative (decimalValue (whole ++ fraction)) (exponent - fraction.length)
  if x.isFinite then some x else none

/-- A number after its sign. -/
def Toml.readMagnitude? (negative : Bool) (s : List Char) : Option Toml :=
  if s = "inf".toList then some (.float (.infinity negative))
  else if s = "nan".toList then some (.float .nan)
  else if s.any fun c => c = '.' || c = 'e' || c = 'E' then (Toml.readFloat? negative s).map .float
  else
    (Toml.decimalDigits s).map fun digits =>
      let n : Int := decimalValue digits
      .int (if negative then -n else n)

/-- A number. Only decimal numbers may have a sign. -/
def Toml.readNumber? (s : List Char) : Option Toml :=
  match s with
  | '0' :: 'x' :: s => (Toml.ofBase 16 s).map fun n => .int n
  | '0' :: 'o' :: s => (Toml.ofBase 8 s).map fun n => .int n
  | '0' :: 'b' :: s => (Toml.ofBase 2 s).map fun n => .int n
  | '+' :: s => Toml.readMagnitude? false s
  | '-' :: s => Toml.readMagnitude? true s
  | s => Toml.readMagnitude? false s

/-! ## Moments -/

/-- Reads two digits of a number below a bound. -/
def Toml.readPair (bound : Nat) : Toml.Reader String
  | a :: b :: s =>
    match readDigits? [a, b] with
    | some n => if n < bound then some (String.ofList [a, b], s) else none
    | none => none
  | _ => none

/-- Reads a date. -/
def Toml.readDate (s : List Char) : Option (String × List Char) := do
  let year ← readDigits? (s.take 4)
  match s.drop 4 with
  | '-' :: m => do
    let month ← readDigits? (m.take 2)
    match m.drop 2 with
    | '-' :: d => do
      let day ← readDigits? (d.take 2)
      if 2 ≤ d.length ∧ Date.isReal ⟨year, month, day⟩ then
        some (String.ofList (s.take 10), s.drop 10)
      else none
    | _ => none
  | _ => none

/-- The fraction of a second to nine places, without zeros at its end. -/
def Toml.fractionText (digits : List Char) : String :=
  match ((digits.take 9).reverse.dropWhile (· = '0')).reverse with
  | [] => ""
  | shown => String.ofList ('.' :: shown)

/-- Reads a time of day. The seconds may be left out. -/
def Toml.readTime (s : List Char) : Option (String × List Char) := do
  let (hour, s) ← Toml.readPair 24 s
  match s with
  | ':' :: s => do
    let (minute, s) ← Toml.readPair 60 s
    match s with
    | ':' :: s => do
      let (second, s) ← Toml.readPair 61 s
      let text := hour ++ ":" ++ minute ++ ":" ++ second
      match s with
      | '.' :: s =>
        match s.takeWhile Char.isDigit with
        | [] => none
        | digits => some (text ++ Toml.fractionText digits, s.dropWhile Char.isDigit)
      | s => some (text, s)
    | s => some (hour ++ ":" ++ minute, s)
  | _ => none

/-- Reads the distance from universal time, if there is one. -/
def Toml.readOffset (s : List Char) : Option (String × List Char) :=
  let distance (sign : String) (s : List Char) : Option (String × List Char) := do
    let (hour, s) ← Toml.readPair 24 s
    match s with
    | ':' :: s => do
      let (minute, s) ← Toml.readPair 60 s
      let sign := if hour = "00" ∧ minute = "00" then "+" else sign
      some (sign ++ hour ++ ":" ++ minute, s)
    | _ => none
  match s with
  | 'Z' :: s => some ("Z", s)
  | 'z' :: s => some ("Z", s)
  | '+' :: s => distance "+" s
  | '-' :: s => distance "-" s
  | s => some ("", s)

/-- The text of a date, a time, or a date with a time. -/
def Toml.readMoment? (s : List Char) : Option String :=
  match Toml.readDate s with
  | some (date, []) => some date
  | some (date, c :: s) =>
    if c = 'T' ∨ c = 't' ∨ c = ' ' then do
      let (time, s) ← Toml.readTime s
      let (offset, s) ← Toml.readOffset s
      if s.isEmpty then some (date ++ "T" ++ time ++ offset) else none
    else none
  | none => do
    let (time, s) ← Toml.readTime s
    if s.isEmpty then some time else none

/-! ## Scalars -/

/-- Whether a character may stand in a value without quotes. -/
def Toml.isScalarChar (c : Char) : Bool := Toml.isBare c || c = '+' || c = '.' || c = ':'

/-- The value of a word. -/
def Toml.ofWord? (word : List Char) : Option Toml :=
  if word = "true".toList then some (.bool true)
  else if word = "false".toList then some (.bool false)
  else
    match Toml.readNumber? word with
    | some v => some v
    | none => (Toml.readMoment? word).map .moment

/-- The word at the front of a text and the rest. A blank may part a date and a time. -/
def Toml.splitWord (s : List Char) : List Char × List Char :=
  let word := s.takeWhile Toml.isScalarChar
  let rest := s.dropWhile Toml.isScalarChar
  match rest with
  | ' ' :: next =>
    let time := next.takeWhile Toml.isScalarChar
    if (Toml.readDate word).isSome ∧ word.length = 10 ∧ time[2]? = some ':' then
      (word ++ ' ' :: time, next.dropWhile Toml.isScalarChar)
    else (word, rest)
  | _ => (word, rest)

/-- Reads a value that is written without quotes. -/
def Toml.readScalar (s : List Char) : Option (Toml × List Char) :=
  let (word, rest) := Toml.splitWord s
  (Toml.ofWord? word).map (·, rest)

end Courier
