import Courier.Number.Decimal
import Courier.Text.Hex
import Courier.Text.Utf8

set_option autoImplicit false

/-! # JSON values

The values of the data format and their compact text. The members of an object are kept in the order
of their names, each name once; whole numbers that fit 64 bits are whole, all others are binary
floating point. -/

namespace Courier

/-- A value of the data format. -/
inductive Json
  | null
  | bool (b : Bool)
  | int (n : Int)
  | float (x : Binary64)
  | string (text : String)
  | array (items : List Json)
  | object (members : List (String × Json))
  deriving Inhabited

/-! ## Objects -/

/-- Members with one more; a member of the same name gives way, and the order of names is kept. -/
def Json.insert (name : String) (value : Json) : List (String × Json) → List (String × Json)
  | [] => [(name, value)]
  | (n, v) :: rest =>
    if name = n then (n, value) :: rest
    else if name < n then (name, value) :: (n, v) :: rest
    else (n, v) :: Json.insert name value rest

/-- An object of some members, of which the last one of each name counts. -/
def Json.ofMembers (members : List (String × Json)) : Json :=
  .object (members.foldl (fun acc m => Json.insert m.1 m.2 acc) [])

/-! ## Text -/

/-- How a character stands inside a quoted string. -/
def Json.escape (c : Char) : List Char :=
  match c with
  | '"' => ['\\', '"']
  | '\\' => ['\\', '\\']
  | '\x08' => ['\\', 'b']
  | '\x0c' => ['\\', 'f']
  | '\n' => ['\\', 'n']
  | '\r' => ['\\', 'r']
  | '\t' => ['\\', 't']
  | c =>
    if c.toNat < 32 then ['\\', 'u', '0', '0', hexDigit (c.toNat / 16), hexDigit (c.toNat % 16)]
    else [c]

/-- A text as a quoted string. -/
def Json.quote (text : String) : String :=
  String.ofList ('"' :: text.toList.flatMap Json.escape ++ ['"'])

mutual

/-- The compact text of a value. -/
def Json.text : Json → String
  | .null => "null"
  | .bool b => if b then "true" else "false"
  | .int n => toString n
  | .float x => if x.isFinite then x.text Decimal.Style.json else "null"
  | .string s => Json.quote s
  | .array items => "[" ++ String.intercalate "," (Json.itemTexts items) ++ "]"
  | .object members => "\x7b" ++ String.intercalate "," (Json.memberTexts members) ++ "\x7d"

/-- The texts of the items of an array. -/
def Json.itemTexts : List Json → List String
  | [] => []
  | v :: rest => v.text :: Json.itemTexts rest

/-- The texts of the members of an object. -/
def Json.memberTexts : List (String × Json) → List String
  | [] => []
  | (name, v) :: rest => (Json.quote name ++ ":" ++ v.text) :: Json.memberTexts rest

end

end Courier
