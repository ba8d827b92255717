import Courier.Text.Hex
import Courier.Text.Visible

set_option autoImplicit false

/-! # Quoted texts

A text between double quotes, as messages show it: quotes and backslashes are marked with a
backslash, a few controls have short names, and all other characters that are not visible are given
by their numbers. -/

namespace Courier

/-- How a character stands in a quoted text. -/
def Quoted.escape (c : Char) : List Char :=
  match c with
  | '\x00' => ['\\', '0']
  | '\t' => ['\\', 't']
  | '\r' => ['\\', 'r']
  | '\n' => ['\\', 'n']
  | '\\' => ['\\', '\\']
  | '"' => ['\\', '"']
  | c => if isVisible c then [c] else ['\\', 'u', '\x7b'] ++ hexText c.toNat ++ ['\x7d']

/-- A text in double quotes. -/
def quoted (text : String) : String :=
  String.ofList ('"' :: text.toList.flatMap Quoted.escape ++ ['"'])

end Courier
