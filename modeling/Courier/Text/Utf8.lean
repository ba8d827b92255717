set_option autoImplicit false

/-! # Octets and UTF-8

Content that travels is a list of octets; text is a sequence of Unicode characters. This file holds
the way between the two: the encoding of a text, the strict reading of octets that refuses anything
that is not UTF-8, and the lenient reading that puts U+FFFD in place of each ill-formed part.

Both readings share one scanner. It walks the octets once and keeps the character that is under way;
an octet that cannot continue it ends the ill-formed part and is looked at afresh. -/

namespace Courier

/-- A content of octets. -/
abbrev Bytes := List UInt8

/-! ## Encoding -/

/-- The octets of a text. -/
def Utf8.encode (text : String) : Bytes := text.toList.flatMap String.utf8EncodeChar

@[simp] theorem Utf8.encode_empty : Utf8.encode "" = [] := rfl

/-- The octets of a text one after another are the octets of the joined text. -/
theorem Utf8.encode_append (a b : String) :
    Utf8.encode (a ++ b) = Utf8.encode a ++ Utf8.encode b := by
  simp [Utf8.encode]

/-! ## Scanning -/

/-- A character of which some octets have been read: how many are missing, the bits so far, and
    the range that the next octet must lie in. -/
structure Utf8.Pending where
  missing : Nat
  bits : Nat
  low : UInt8
  high : UInt8

/-- What the first octet of a character announces. -/
inductive Utf8.Lead
  | char (c : Char)
  | pending (p : Utf8.Pending)
  | bad

/-- The well-formed first octets: those below `80` stand alone, `C2` to `F4` open a longer
    character. The range of the second octet excludes overlong forms, surrogates, and numbers
    above `10FFFF`. -/
def Utf8.lead (b : UInt8) : Utf8.Lead :=
  let n := b.toNat
  if n < 0x80 then .char (Char.ofNat n)
  else if n < 0xC2 then .bad
  else if n < 0xE0 then .pending ⟨1, n - 0xC0, 0x80, 0xBF⟩
  else if n < 0xF0 then
    .pending ⟨2, n - 0xE0, if n = 0xE0 then 0xA0 else 0x80, if n = 0xED then 0x9F else 0xBF⟩
  else if n < 0xF5 then
    .pending ⟨3, n - 0xF0, if n = 0xF0 then 0x90 else 0x80, if n = 0xF4 then 0x8F else 0xBF⟩
  else .bad

/-- The characters of some octets, `none` for each maximal ill-formed part. -/
def Utf8.scan : Option Utf8.Pending → Bytes → List (Option Char)
  | none, [] => []
  | some _, [] => [none]
  | none, b :: rest =>
    match Utf8.lead b with
    | .char c => some c :: Utf8.scan none rest
    | .pending p => Utf8.scan (some p) rest
    | .bad => none :: Utf8.scan none rest
  | some p, b :: rest =>
    if p.low ≤ b ∧ b ≤ p.high then
      let bits := p.bits * 64 + (b.toNat - 0x80)
      if p.missing = 1 then some (Char.ofNat bits) :: Utf8.scan none rest
      else Utf8.scan (some ⟨p.missing - 1, bits, 0x80, 0xBF⟩) rest
    else
      match Utf8.lead b with
      | .char c => none :: some c :: Utf8.scan none rest
      | .pending q => none :: Utf8.scan (some q) rest
      | .bad => none :: none :: Utf8.scan none rest

/-! ## Reading -/

/-- The text that some octets encode, if they are UTF-8 throughout. -/
def Utf8.decode? (bytes : Bytes) : Option String :=
  ((Utf8.scan none bytes).mapM id).map String.ofList

/-- The text of some octets, with U+FFFD in place of each ill-formed part. -/
def Utf8.lossy (bytes : Bytes) : String :=
  String.ofList ((Utf8.scan none bytes).map (·.getD '\uFFFD'))

end Courier
