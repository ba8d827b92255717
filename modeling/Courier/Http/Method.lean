set_option autoImplicit false

/-! # Methods of HTTP requests -/

namespace Courier

/-- Whether a character may occur in a token of HTTP: letters, digits and a few marks. -/
def isTokenChar (c : Char) : Bool := c.isAlphanum || "!#$%&'*+-.^_\x60|~".toList.contains c

/-- The method of a request, named as it is written. -/
structure Method where
  name : String
  deriving DecidableEq

/-- The method that asks for a representation. -/
def Method.get : Method := ⟨"GET"⟩

/-- The method that a token names; case counts. -/
def Method.parse? (text : String) : Option Method :=
  if !text.isEmpty && text.toList.all isTokenChar then some ⟨text⟩ else none

end Courier
