import Courier.Text.Hex
import Courier.Toml.Value

set_option autoImplicit false

/-! # TOML strings

A string stands between quotes or between apostrophes. Between quotes a backslash begins an escape.
Three of either stand around a string of several lines; the line end right after the opening ones is
left out, and up to two more of them may stand before the closing ones. -/

namespace Courier

/-! ## Escapes -/

/-- The value of a hexadecimal digit. -/
def Toml.hexDigit? (c : Char) : Option Nat :=
  if c.toNat < 128 then hexValue? (UInt8.ofNat c.toNat) else none

/-- Reads a character that is given by so many hexadecimal digits. -/
def Toml.readCode (n : Nat) (s : List Char) : Option (Char × List Char) := do
  if s.length < n then none
  let digits ← (s.take n).mapM Toml.hexDigit?
  let code := digits.foldl (fun m d => m * 16 + d) 0
  if code.isValidChar then some (Char.ofNat code, s.drop n) else none

/-- Reads an escape after its backslash. -/
def Toml.readEscape : Toml.Reader Char
  | 'b' :: s => some ('\x08', s)
  | 't' :: s => some ('\t', s)
  | 'n' :: s => some ('\n', s)
  | 'f' :: s => some ('\x0c', s)
  | 'r' :: s => some ('\r', s)
  | 'e' :: s => some ('\x1b', s)
  | '"' :: s => some ('"', s)
  | '\\' :: s => some ('\\', s)
  | 'x' :: s => Toml.readCode 2 s
  | 'u' :: s => Toml.readCode 4 s
  | 'U' :: s => Toml.readCode 8 s
  | _ => none

/-! ## Strings in one line -/

/-- Reads a string after its opening quote. -/
def Toml.readQuoted : Nat → Toml.Reader (List Char)
  | 0, _ => none
  | _ + 1, [] => none
  | _ + 1, '"' :: s => some ([], s)
  | fuel + 1, '\\' :: s => do
    let (c, s) ← Toml.readEscape s
    let (cs, s) ← Toml.readQuoted fuel s
    return (c :: cs, s)
  | fuel + 1, c :: s => do
    if !Toml.isPlain c then none
    let (cs, s) ← Toml.readQuoted fuel s
    return (c :: cs, s)

/-- Reads a string after its opening apostrophe. -/
def Toml.readLiteral : Toml.Reader (List Char)
  | [] => none
  | '\'' :: s => some ([], s)
  | c :: s => if Toml.isPlain c then (Toml.readLiteral s).map fun (cs, s) => (c :: cs, s) else none

/-! ## Strings of several lines -/

/-- What follows three closing marks: up to two more of them still belong to the string. -/
def Toml.closeLines (mark : Char) (s : List Char) : List Char × List Char :=
  let extra := min 2 (s.takeWhile (· = mark)).length
  (s.take extra, s.drop extra)

/-- Whether a backslash stands before the end of a line: the line end and the blanks around it are
then left out. -/
def Toml.isJoin (s : List Char) : Bool :=
  match Toml.skipSpace s with
  | '\n' :: _ => true
  | '\r' :: '\n' :: _ => true
  | _ => false

/-- A text from the first character that is neither a blank nor a line end. -/
def Toml.skipLines : List Char → List Char
  | '\n' :: s => Toml.skipLines s
  | '\r' :: '\n' :: s => Toml.skipLines s
  | c :: s => if Toml.isSpace c then Toml.skipLines s else c :: s
  | [] => []

/-- Reads a string of several lines between marks, which are quotes or apostrophes. -/
def Toml.readLines (mark : Char) : Nat → Toml.Reader (List Char)
  | 0, _ => none
  | _ + 1, [] => none
  | fuel + 1, c :: s =>
    let more (cs rest : List Char) : Option (List Char × List Char) :=
      (Toml.readLines mark fuel rest).map fun (tail, rest) => (cs ++ tail, rest)
    if c = mark ∧ s.take 2 = [mark, mark] then some (Toml.closeLines mark (s.drop 2))
    else if c = '\\' ∧ mark = '"' then
      if Toml.isJoin s then more [] (Toml.skipLines s)
      else (Toml.readEscape s).bind fun (c, s) => more [c] s
    else if c = '\n' then more [c] s
    else if c = '\r' then
      match s with
      | '\n' :: s => more ['\r', '\n'] s
      | _ => none
    else if Toml.isPlain c then more [c] s
    else none

/-- Reads a string of several lines after its opening marks. -/
def Toml.readBlock (mark : Char) (s : List Char) : Option (List Char × List Char) :=
  let s := match s with
    | '\n' :: s => s
    | '\r' :: '\n' :: s => s
    | s => s
  Toml.readLines mark (s.length + 1) s

/-! ## Keys -/

/-- Whether a character may stand in a key without quotes. -/
def Toml.isBare (c : Char) : Bool := c.isAlphanum || c = '-' || c = '_'

/-- Reads one part of a key. -/
def Toml.readKeyPart (s : List Char) : Option (String × List Char) :=
  match s with
  | '"' :: s => (Toml.readQuoted (s.length + 1) s).map fun (cs, s) => (String.ofList cs, s)
  | '\'' :: s => (Toml.readLiteral s).map fun (cs, s) => (String.ofList cs, s)
  | s =>
    match s.takeWhile Toml.isBare with
    | [] => none
    | name => some (String.ofList name, s.dropWhile Toml.isBare)

/-- Reads a key: parts with points between them. -/
def Toml.readKeyParts : Nat → Toml.Reader (List String)
  | 0, _ => none
  | fuel + 1, s => do
    let (name, s) ← Toml.readKeyPart s
    match Toml.skipSpace s with
    | '.' :: s =>
      (Toml.readKeyParts fuel (Toml.skipSpace s)).map fun (names, s) => (name :: names, s)
    | s => return ([name], s)

/-- Reads a key. -/
def Toml.readKey (s : List Char) : Option (List String × List Char) :=
  Toml.readKeyParts (s.length + 1) s

end Courier
