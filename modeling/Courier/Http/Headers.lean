import Courier.Http.Method
import Courier.Text.Utf8
import Std.Data.HashSet

set_option autoImplicit false

/-! # Headers

Header fields in the order in which they were added. Names are held in lower case, so that they
compare without regard to case; a name may have several values. -/

namespace Courier

/-- The name of a header, in lower case. -/
structure HeaderName where
  text : String
  deriving DecidableEq, Hashable

/-- The name that a token stands for; its case does not count. -/
def HeaderName.parse? (text : String) : Option HeaderName :=
  if !text.isEmpty && text.length ≤ 65535 && text.toList.all isTokenChar then
    some ⟨String.ofList (text.toList.map Char.toLower)⟩
  else none

/-- The value of a header: octets without control characters. -/
structure HeaderValue where
  octets : Bytes
  deriving DecidableEq

/-- Whether an octet may occur in a header value. -/
def HeaderValue.isOctet (b : UInt8) : Bool := (32 ≤ b && b != 127) || b == 9

/-- The value with these octets. -/
def HeaderValue.ofBytes? (octets : Bytes) : Option HeaderValue :=
  if octets.all HeaderValue.isOctet then some ⟨octets⟩ else none

/-- The value that holds a text. -/
def HeaderValue.parse? (text : String) : Option HeaderValue :=
  HeaderValue.ofBytes? (Utf8.encode text)

/-- The text of a value that is ASCII throughout. -/
def HeaderValue.text? (v : HeaderValue) : Option String :=
  if v.octets.all fun b => (32 ≤ b && b < 127) || b == 9 then
    some (String.ofList (v.octets.map fun b => Char.ofNat b.toNat))
  else none

/-- Header fields. -/
abbrev Headers := List (HeaderName × HeaderValue)

/-- Adds a field after all others. -/
def Headers.append (h : Headers) (name : HeaderName) (value : HeaderValue) : Headers :=
  h ++ [(name, value)]

/-- Makes a value the only one of its name. -/
def Headers.set (h : Headers) (name : HeaderName) (value : HeaderValue) : Headers :=
  h.filter (fun f => f.1 != name) ++ [(name, value)]

/-- Sets fields one after another. -/
def Headers.setAll (h fields : Headers) : Headers :=
  fields.foldl (fun headers field => headers.set field.1 field.2) h

/-- The values of a name. -/
def Headers.values (h : Headers) (name : HeaderName) : List HeaderValue :=
  (h.filter fun f => f.1 == name).map (·.2)

/-- The first value of a name, if it is text. -/
def Headers.text? (h : Headers) (name : String) : Option String :=
  (h.values ⟨name⟩).head?.bind HeaderValue.text?

/-- After a value has been set it is the only one of its name. -/
theorem Headers.values_set_self (h : Headers) (name : HeaderName) (value : HeaderValue) :
    (h.set name value).values name = [value] := by
  simp [Headers.set, Headers.values, List.filter_append, List.filter_filter]

/-- Setting a value leaves all other names alone. -/
theorem Headers.values_set_ne (h : Headers) {name other : HeaderName} (value : HeaderValue)
    (ne : other ≠ name) : (h.set name value).values other = h.values other := by
  have hne : (name == other) = false := by simp [Ne.symm ne]
  simp only [Headers.set, Headers.values, List.filter_append, List.filter_filter]
  congr 1
  rw [show List.filter (fun f : HeaderName × HeaderValue => f.1 == other) [(name, value)] = [] by
    simp [hne], List.append_nil]
  apply List.filter_congr
  intro f _
  by_cases h : f.1 = other
  · simp [h, ne]
  · simp [h]

/-! ## Room

A map of headers has an end. Where that is depends on what has been set before, in its order. -/

/-- Whether a map has room for another field after some have been set. -/
abbrev HeaderRoom := Array (HeaderName × HeaderValue) → Bool

/-- A map without an end. -/
def HeaderRoom.unlimited : HeaderRoom := fun _ => true

/-- A map of at most `2 ^ 15` slots, a quarter of which stays free. A full map takes no field at
all, not even one of a name that it has. -/
def HeaderRoom.standard : HeaderRoom := fun given =>
  given.size < 24576 || (Std.HashSet.ofList (given.toList.map Prod.fst)).size < 24576

end Courier
