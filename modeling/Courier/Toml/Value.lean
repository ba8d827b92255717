import Courier.Number.Binary64

set_option autoImplicit false

/-! # TOML values

What a settings text holds: texts, numbers, truth values, points in time, and arrays and tables of
these. A table names each of its members once, in the order in which they were written. -/

namespace Courier

/-- A value of the format. -/
inductive Toml
  | text (s : String)
  | int (n : Int)
  | float (x : Binary64)
  | bool (b : Bool)
  /-- A date, a time, or both, in its usual text. -/
  | moment (text : String)
  | array (items : List Toml)
  | table (members : List (String × Toml))
  deriving Inhabited

/-- Something that is read from the front of a text gives itself and the rest of the text. -/
abbrev Toml.Reader (α : Type) := List Char → Option (α × List Char)

/-- The number of arrays and inline tables that may stand in one another. -/
def Toml.depthLimit : Nat := 80

/-! ## Characters -/

/-- Whether a character may stand as itself in strings and comments: all but the control characters
    other than the tab. -/
def Toml.isPlain (c : Char) : Bool := c = '\t' || (32 ≤ c.toNat && c.toNat ≠ 127)

/-- Whether a character is a blank within a line. -/
def Toml.isSpace (c : Char) : Bool := c = ' ' || c = '\t'

/-- A text from the first character that is not a blank. -/
def Toml.skipSpace (s : List Char) : List Char := s.dropWhile Toml.isSpace

/-- A text from the first character that belongs neither to a blank, a line end nor a comment. The
    flag says whether the text begins in a comment. -/
def Toml.skipGaps : Bool → List Char → Option (List Char)
  | _, [] => some []
  | _, '\n' :: rest => Toml.skipGaps false rest
  | _, '\r' :: '\n' :: rest => Toml.skipGaps false rest
  | true, c :: rest => if Toml.isPlain c then Toml.skipGaps true rest else none
  | false, c :: rest =>
    if Toml.isSpace c then Toml.skipGaps false rest
    else if c = '#' then Toml.skipGaps true rest
    else some (c :: rest)

/-- What follows a comment up to the end of its line. -/
def Toml.skipComment : List Char → Option (List Char)
  | [] => some []
  | '\n' :: rest => some rest
  | '\r' :: '\n' :: rest => some rest
  | c :: rest => if Toml.isPlain c then Toml.skipComment rest else none

/-- The next line; before it only blanks and a comment may stand. -/
def Toml.endLine (s : List Char) : Option (List Char) :=
  match Toml.skipSpace s with
  | [] => some []
  | '\n' :: rest => some rest
  | '\r' :: '\n' :: rest => some rest
  | '#' :: rest => Toml.skipComment rest
  | _ => none

end Courier
