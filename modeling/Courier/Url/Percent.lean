import Courier.Text.Hex
import Courier.Text.Utf8

set_option autoImplicit false

/-! # Percent encoding

A character that a part of a URL cannot hold is written as its UTF-8 octets, each as a percent sign
and two hexadecimal digits. Which ASCII characters that are depends on the part; all others always
are. The form encoding of names and values writes a space as a plus sign. -/

namespace Courier

/-! ## Octets -/

/-- A hexadecimal digit in upper case. -/
def Percent.digit (n : Nat) : Char := Char.ofNat (if n < 10 then 48 + n else 55 + n)

/-- An octet as a percent sign and two digits. -/
def Percent.octet (b : UInt8) : List Char :=
  ['%', Percent.digit (b.toNat / 16), Percent.digit (b.toNat % 16)]

/-! ## Sets -/

/-- Whether a character is outside ASCII or a control character. -/
def Percent.isControl (c : Char) : Bool := c.toNat < 32 || 127 ≤ c.toNat

/-- The characters that a fragment cannot hold. -/
def Percent.inFragment (c : Char) : Bool :=
  Percent.isControl c || c == ' ' || c == '"' || c == '<' || c == '>' || c == '\x60'

/-- The characters that a path cannot hold. -/
def Percent.inPath (c : Char) : Bool :=
  Percent.inFragment c || c == '#' || c == '?' || c == '\x7b' || c == '\x7d'

/-- The characters that a user name or a password cannot hold. -/
def Percent.inUserInfo (c : Char) : Bool :=
  Percent.inPath c || c == '/' || c == ':' || c == ';' || c == '=' || c == '@' || c == '[' ||
    c == '\\' || c == ']' || c == '^' || c == '|'

/-- The characters that a query cannot hold; the schemes of the web also exclude the apostrophe. -/
def Percent.inQuery (special : Bool) (c : Char) : Bool :=
  Percent.isControl c || c == ' ' || c == '"' || c == '#' || c == '<' || c == '>' ||
    (special && c == '\'')

/-! ## Encoding -/

/-- The encoding of one character. -/
def Percent.encodeChar (set : Char → Bool) (c : Char) : List Char :=
  if set c then (String.utf8EncodeChar c).flatMap Percent.octet else [c]

/-- The encoding of some text. -/
def Percent.encode (set : Char → Bool) (s : List Char) : List Char :=
  s.flatMap (Percent.encodeChar set)

/-- Encoding goes character by character. -/
theorem Percent.encode_append (set : Char → Bool) (s t : List Char) :
    Percent.encode set (s ++ t) = Percent.encode set s ++ Percent.encode set t := by
  simp [Percent.encode]

/-! ## Decoding -/

/-- The octets of some text with every percent sign before two hexadecimal digits resolved. -/
def Percent.decode : Bytes → Bytes
  | 0x25 :: a :: b :: s =>
    match hexValue? a, hexValue? b with
    | some x, some y => UInt8.ofNat (x * 16 + y) :: Percent.decode s
    | _, _ => 0x25 :: Percent.decode (a :: b :: s)
  | b :: s => b :: Percent.decode s
  | [] => []

/-! ## Forms -/

/-- Whether a form holds an octet as it is. -/
def Form.isPlain (b : UInt8) : Bool :=
  (0x30 ≤ b && b ≤ 0x39) || (0x41 ≤ b && b ≤ 0x5A) || (0x61 ≤ b && b ≤ 0x7A) ||
    b == 0x2A || b == 0x2D || b == 0x2E || b == 0x5F

/-- The form encoding of an octet. -/
def Form.encodeOctet (b : UInt8) : List Char :=
  if Form.isPlain b then [Char.ofNat b.toNat]
  else if b = 0x20 then ['+']
  else Percent.octet b

/-- The form encoding of a name or a value. -/
def Form.encode (text : String) : List Char := (Utf8.encode text).flatMap Form.encodeOctet

/-- A name and its value in a form. -/
def Form.pair (field : String × String) : List Char :=
  Form.encode field.1 ++ '=' :: Form.encode field.2

/-- Appends fields to an encoded form, with an ampersand before each that is not the first. -/
def Form.extend (form : List Char) (fields : List (String × String)) : List Char :=
  fields.foldl
    (fun acc field => acc ++ (if acc.isEmpty then [] else ['&']) ++ Form.pair field) form

/-- The text of a form. -/
def Form.text (fields : List (String × String)) : String := String.ofList (Form.extend [] fields)

end Courier
