import Courier.Json.Value

set_option autoImplicit false

/-! # Reading JSON texts

Readers walk the octets of a text once, from left to right, and stop at the first fault. A fault is
one of three kinds: the text ends too early, it is not well formed, or it is well formed but not of
the kind that was asked for. Which of two faults counts is decided by their order in the text.

Arrays and objects that are kept may be nested 127 deep. Values that are skipped are checked for
their form only, at any depth. -/

namespace Courier

/-- The kinds of fault. -/
inductive Json.Fault
  | ended
  | illFormed
  | wrongKind
  deriving DecidableEq

/-- The wording of a fault. -/
def Json.Fault.message : Json.Fault → String
  | .ended => "the text ends too early"
  | .illFormed => "the text is not well formed"
  | .wrongKind => "the text is not of the expected form"

/-- A reader of one value from the front of some octets gives the value and the octets after it. The
    number says how many further levels of nesting are allowed. -/
abbrev Json.Reader (α : Type) := Nat → Bytes → Except Json.Fault (α × Bytes)

/-- The depth to which kept values may be nested. -/
def Json.depthLimit : Nat := 127

/-! ## Blanks and words -/

/-- Whether an octet is a blank of the format. -/
def Json.isBlank (b : UInt8) : Bool := b == 0x20 || b == 0x0A || b == 0x09 || b == 0x0D

/-- The octets from the first one that is not blank. -/
def Json.skipBlanks (s : Bytes) : Bytes := s.dropWhile Json.isBlank

/-- Whether an octet is a decimal digit. -/
def Json.isDigit (b : UInt8) : Bool := 0x30 ≤ b && b ≤ 0x39

/-- The rest of a word whose first letter has been read. -/
def Json.readWord : Bytes → Bytes → Except Json.Fault Bytes
  | [], s => .ok s
  | _ :: _, [] => .error .ended
  | w :: word, b :: s => if w = b then Json.readWord word s else .error .illFormed

/-! ## Strings -/

/-- Four hexadecimal digits. -/
def Json.readHex4 : Bytes → Except Json.Fault (Nat × Bytes)
  | a :: b :: c :: d :: s =>
    match hexValue? a, hexValue? b, hexValue? c, hexValue? d with
    | some a, some b, some c, some d => .ok (((a * 16 + b) * 16 + c) * 16 + d, s)
    | _, _, _, _ => .error .illFormed
  | _ => .error .ended

/-- The character of a numeric escape, after its `\u`. A pair of surrogates is one character; a
    lone one is none. -/
def Json.readUnicode (s : Bytes) : Except Json.Fault (Char × Bytes) := do
  let (n, s) ← Json.readHex4 s
  if n < 0xD800 ∨ 0xDFFF < n then pure (Char.ofNat n, s)
  else if 0xDC00 ≤ n then throw .illFormed
  else
    match s with
    | [] => throw .ended
    | 0x5C :: [] => throw .ended
    | 0x5C :: 0x75 :: s =>
      let (m, s) ← Json.readHex4 s
      if 0xDC00 ≤ m ∧ m ≤ 0xDFFF then
        pure (Char.ofNat (0x10000 + (n - 0xD800) * 0x400 + (m - 0xDC00)), s)
      else throw .illFormed
    | _ => throw .illFormed

/-- The octet that a plain escape stands for. -/
def Json.plainEscape? (b : UInt8) : Option UInt8 :=
  match b with
  | 0x22 => some 0x22
  | 0x5C => some 0x5C
  | 0x2F => some 0x2F
  | 0x62 => some 0x08
  | 0x66 => some 0x0C
  | 0x6E => some 0x0A
  | 0x72 => some 0x0D
  | 0x74 => some 0x09
  | _ => none

/-- The octets of a string whose opening quote has been read, in reverse order after `acc`; `fuel`
    bounds the characters. -/
def Json.readStringOctets : Nat → Bytes → Bytes → Except Json.Fault (Bytes × Bytes)
  | 0, _, _ => .error .ended
  | _ + 1, _, [] => .error .ended
  | fuel + 1, acc, b :: s =>
    if b = 0x22 then .ok (acc.reverse, s)
    else if b = 0x5C then
      match s with
      | [] => .error .ended
      | e :: s =>
        if e = 0x75 then
          match Json.readUnicode s with
          | .ok (c, s) => Json.readStringOctets fuel ((String.utf8EncodeChar c).reverse ++ acc) s
          | .error f => .error f
        else
          match Json.plainEscape? e with
          | some o => Json.readStringOctets fuel (o :: acc) s
          | none => .error .illFormed
    else if b < 0x20 then .error .illFormed
    else Json.readStringOctets fuel (b :: acc) s

/-- A string whose opening quote has been read. Its octets must be UTF-8. -/
def Json.readString (s : Bytes) : Except Json.Fault (String × Bytes) := do
  let (octets, s) ← Json.readStringOctets (s.length + 1) [] s
  match Utf8.decode? octets with
  | some text => pure (text, s)
  | none => throw .illFormed

/-- Passes over a string whose opening quote has been read. -/
def Json.skipString : Nat → Bytes → Except Json.Fault Bytes
  | 0, _ => .error .ended
  | _ + 1, [] => .error .ended
  | fuel + 1, b :: s =>
    if b = 0x22 then .ok s
    else if b = 0x5C then
      match s with
      | [] => .error .ended
      | e :: s =>
        if e = 0x75 then
          match Json.readHex4 s with
          | .ok (_, s) => Json.skipString fuel s
          | .error f => .error f
        else if (Json.plainEscape? e).isSome then Json.skipString fuel s
        else .error .illFormed
    else if b < 0x20 then .error .illFormed
    else Json.skipString fuel s

/-! ## Numbers

A number is read into a significand of at most 64 bits and a decimal exponent; digits that do not
fit only count for the exponent. The value is the significand times or divided by a power of ten,
each rounded. -/

/-- Digits into a significand below `2 ^ 64` as long as it fits, with the number of digits taken and
    the rest. -/
def Json.takeDigits : Nat → Nat → Bytes → Nat × Nat × Bytes
  | significand, taken, b :: s =>
    if Json.isDigit b ∧ significand * 10 + (b.toNat - 0x30) < 0x10000000000000000 then
      Json.takeDigits (significand * 10 + (b.toNat - 0x30)) (taken + 1) s
    else (significand, taken, b :: s)
  | significand, taken, [] => (significand, taken, [])

/-- The number of digits at the front, and the rest. -/
def Json.countDigits (s : Bytes) : Nat × Bytes :=
  ((s.takeWhile Json.isDigit).length, s.dropWhile Json.isDigit)

/-- Divides by `10 ^ 308` until the exponent is within the powers that the format has, or nothing is
    left. -/
def Json.scaleDown : Nat → Binary64 → Int → Binary64 × Int
  | 0, x, e => (x, e)
  | fuel + 1, x, e =>
    if -308 ≤ e ∨ x.sameNumber (.ofNat 0) then (x, e)
    else Json.scaleDown fuel (x.div (Binary64.ofDecimal false 1 308)) (e + 308)

/-- The number with a significand and a decimal exponent, if it is finite. -/
def Json.scaledNumber (negative : Bool) (significand : Nat) (exponent : Int) :
    Except Json.Fault Binary64 :=
  let (x, e) := Json.scaleDown 4 (Binary64.ofNat significand) exponent
  let value :=
    if e < -308 then x
    else if e < 0 then x.div (Binary64.ofDecimal false 1 (-e))
    else if 308 < e then (if significand = 0 then x else .infinity false)
    else x.mul (Binary64.ofDecimal false 1 e)
  match value with
  | .finite _ m e => .ok (.finite negative m e)
  | _ => .error .illFormed

/-- An exponent and what it makes of the significand, after the `e`. -/
def Json.readExponent (negative : Bool) (significand : Nat) (start : Int) (s : Bytes) :
    Except Json.Fault (Binary64 × Bytes) :=
  let (down, s) :=
    match s with
    | 0x2B :: s => (false, s)
    | 0x2D :: s => (true, s)
    | s => (false, s)
  match s with
  | [] => .error .ended
  | b :: _ =>
    if !Json.isDigit b then .error .illFormed
    else
      let digits := s.takeWhile Json.isDigit
      let rest := s.dropWhile Json.isDigit
      let e : Nat := digits.foldl (fun n b => n * 10 + (b.toNat - 0x30)) 0
      if e < 0x80000000 then
        (Json.scaledNumber negative significand (start + (if down then -(e : Int) else e))).map
          (·, rest)
      else if significand ≠ 0 ∧ !down then .error .illFormed
      else .ok (.finite negative 0 (-1074), rest)

/-- The rest of a number after its digits before the point or after them: an exponent, or
nothing. -/
def Json.finishNumber (negative : Bool) (significand : Nat) (exponent : Int) (s : Bytes) :
    Except Json.Fault (Binary64 × Bytes) :=
  match s with
  | 0x65 :: s => Json.readExponent negative significand exponent s
  | 0x45 :: s => Json.readExponent negative significand exponent s
  | s => (Json.scaledNumber negative significand exponent).map (·, s)

/-- The digits after a point and the rest of the number. -/
def Json.readFraction (negative : Bool) (significand : Nat) (exponent : Int) (s : Bytes) :
    Except Json.Fault (Binary64 × Bytes) :=
  let (m, taken, rest) := Json.takeDigits significand 0 s
  let (beyond, rest) := Json.countDigits rest
  if taken = 0 ∧ beyond = 0 then
    .error (if rest.isEmpty then .ended else .illFormed)
  else Json.finishNumber negative m (exponent - taken) rest

/-- A number after its sign. -/
def Json.readNumber (negative : Bool) (s : Bytes) : Except Json.Fault (Json × Bytes) :=
  match s with
  | [] => .error .ended
  | b :: tail =>
    if !Json.isDigit b then .error .illFormed
    else
      let (m, _, rest) := if b = 0x30 then (0, 1, tail) else Json.takeDigits 0 0 s
      let (beyond, rest) := if b = 0x30 then (0, rest) else Json.countDigits rest
      let asFloat (r : Except Json.Fault (Binary64 × Bytes)) : Except Json.Fault (Json × Bytes) :=
        r.map fun (x, s) => (.float x, s)
      match rest with
      | 0x2E :: s => asFloat (Json.readFraction negative m beyond s)
      | 0x65 :: s => asFloat (Json.readExponent negative m beyond s)
      | 0x45 :: s => asFloat (Json.readExponent negative m beyond s)
      | rest =>
        if b = 0x30 ∧ (rest.head?.map Json.isDigit).getD false then .error .illFormed
        else if 0 < beyond then asFloat ((Json.scaledNumber negative m beyond).map (·, rest))
        else if !negative then .ok (.int m, rest)
        else if m = 0 ∨ 0x8000000000000000 < m then
          asFloat (.ok ((Binary64.ofRatio true m 1), rest))
        else .ok (.int (-(m : Int)), rest)

/-- Passes over digits, of which there must be one. -/
def Json.skipDigits (s : Bytes) : Except Json.Fault Bytes :=
  if (s.head?.map Json.isDigit).getD false then .ok (s.dropWhile Json.isDigit)
  else .error .illFormed

/-- Passes over an exponent after its mark. -/
def Json.skipExponent (s : Bytes) : Except Json.Fault Bytes :=
  match s with
  | 0x2B :: s => Json.skipDigits s
  | 0x2D :: s => Json.skipDigits s
  | s => Json.skipDigits s

/-- Passes over what may follow the whole part and the fraction of a number. -/
def Json.skipNumberEnd (s : Bytes) : Except Json.Fault Bytes :=
  match s with
  | 0x65 :: s => Json.skipExponent s
  | 0x45 :: s => Json.skipExponent s
  | s => .ok s

/-- Passes over what may follow the whole part of a number. -/
def Json.skipFraction (s : Bytes) : Except Json.Fault Bytes :=
  match s with
  | 0x2E :: s => Json.skipDigits s >>= Json.skipNumberEnd
  | s => Json.skipNumberEnd s

/-- Passes over a number after its sign. -/
def Json.skipNumber (s : Bytes) : Except Json.Fault Bytes :=
  match s with
  | [] => .error .illFormed
  | b :: tail =>
    if !Json.isDigit b then .error .illFormed
    else
      let rest := if b = 0x30 then tail else s.dropWhile Json.isDigit
      if b = 0x30 ∧ (rest.head?.map Json.isDigit).getD false then .error .illFormed
      else Json.skipFraction rest

/-! ## Arrays and objects -/

/-- What stands before the next item of an array: the octets of the item, or `none` before the
closing bracket. -/
def Json.nextItem? (first : Bool) (s : Bytes) : Except Json.Fault (Option Bytes) :=
  match Json.skipBlanks s with
  | [] => .error .ended
  | b :: s =>
    if b = 0x5D then .ok none
    else if first then .ok (some (b :: s))
    else if b = 0x2C then
      match Json.skipBlanks s with
      | [] => .error .ended
      | c :: s => if c = 0x5D then .error .illFormed else .ok (some (c :: s))
    else .error .illFormed

/-- The octets after the closing bracket, which must be next. -/
def Json.endArray (s : Bytes) : Except Json.Fault Bytes :=
  match Json.skipBlanks s with
  | [] => .error .ended
  | b :: s => if b = 0x5D then .ok s else .error .illFormed

/-- The name of the next member of an object and the octets after it, or `none` before the closing
    brace. -/
def Json.nextName? (first : Bool) (s : Bytes) : Except Json.Fault (Option (String × Bytes)) :=
  let name (s : Bytes) : Except Json.Fault (Option (String × Bytes)) :=
    match s with
    | [] => .error .ended
    | b :: s => if b = 0x22 then (Json.readString s).map some else .error .illFormed
  match Json.skipBlanks s with
  | [] => .error .ended
  | b :: s =>
    if b = 0x7D then .ok none
    else if first then name (b :: s)
    else if b = 0x2C then name (Json.skipBlanks s)
    else .error .illFormed

/-- The octets after the colon, which must be next. -/
def Json.colon (s : Bytes) : Except Json.Fault Bytes :=
  match Json.skipBlanks s with
  | [] => .error .ended
  | b :: s => if b = 0x3A then .ok s else .error .illFormed

/-- The octets after the closing brace, which must be next. -/
def Json.endObject (s : Bytes) : Except Json.Fault Bytes :=
  match Json.skipBlanks s with
  | [] => .error .ended
  | b :: s => if b = 0x7D then .ok s else .error .illFormed

/-- The items of an array after its opening bracket, up to the closing one. -/
def Json.readItems {α : Type} (item : Bytes → Except Json.Fault (α × Bytes)) :
    Nat → Bool → Bytes → Except Json.Fault (List α × Bytes)
  | 0, _, _ => .error .ended
  | fuel + 1, first, s =>
    match Json.nextItem? first s with
    | .error f => .error f
    | .ok none => .ok ([], s)
    | .ok (some s) =>
      match item s with
      | .error f => .error f
      | .ok (x, s) => (Json.readItems item fuel false s).map fun (xs, s) => (x :: xs, s)

/-- The members of an object after its opening brace, up to the closing one. -/
def Json.readMembers {α : Type} (value : Bytes → Except Json.Fault (α × Bytes)) :
    Nat → Bool → Bytes → Except Json.Fault (List (String × α) × Bytes)
  | 0, _, _ => .error .ended
  | fuel + 1, first, s =>
    match Json.nextName? first s with
    | .error f => .error f
    | .ok none => .ok ([], s)
    | .ok (some (name, s)) =>
      match Json.colon s >>= value with
      | .error f => .error f
      | .ok (x, s) =>
        (Json.readMembers value fuel false s).map fun (xs, s) => ((name, x) :: xs, s)

/-! ## Skipping -/

/-- An array or an object that has been opened. -/
inductive Json.Opened
  | array
  | object
  deriving DecidableEq

/-- What is due at a place between the values of a text. -/
inductive Json.Due
  /-- A value. -/
  | value
  /-- The first item or member of what has just been opened, or its end. -/
  | first
  /-- The name of a member. -/
  | name
  /-- What follows a value. -/
  | rest

/-- Passes over one value. `opened` are the arrays and objects around the place, the innermost
    first; `fuel` bounds the steps. -/
def Json.skipLoop : Nat → Json.Due → List Json.Opened → Bytes → Except Json.Fault Bytes
  | 0, _, _, _ => .error .ended
  | _ + 1, .rest, [], s => .ok s
  | fuel + 1, due, opened, s =>
    match due, opened, Json.skipBlanks s with
    | _, _, [] => .error .ended
    | .value, opened, b :: s =>
      match b with
      | 0x6E => Json.readWord [0x75, 0x6C, 0x6C] s >>= Json.skipLoop fuel .rest opened
      | 0x74 => Json.readWord [0x72, 0x75, 0x65] s >>= Json.skipLoop fuel .rest opened
      | 0x66 => Json.readWord [0x61, 0x6C, 0x73, 0x65] s >>= Json.skipLoop fuel .rest opened
      | 0x2D => Json.skipNumber s >>= Json.skipLoop fuel .rest opened
      | 0x22 => Json.skipString (s.length + 1) s >>= Json.skipLoop fuel .rest opened
      | 0x5B => Json.skipLoop fuel .first (.array :: opened) s
      | 0x7B => Json.skipLoop fuel .first (.object :: opened) s
      | b =>
        if Json.isDigit b then Json.skipNumber (b :: s) >>= Json.skipLoop fuel .rest opened
        else .error .illFormed
    | .first, .array :: opened, b :: s =>
      if b = 0x5D then Json.skipLoop fuel .rest opened s
      else Json.skipLoop fuel .value (.array :: opened) (b :: s)
    | .first, .object :: opened, b :: s =>
      if b = 0x7D then Json.skipLoop fuel .rest opened s
      else Json.skipLoop fuel .name (.object :: opened) (b :: s)
    | .name, opened, b :: s =>
      if b = 0x22 then
        Json.skipString (s.length + 1) s >>= Json.colon >>= Json.skipLoop fuel .value opened
      else .error .illFormed
    | .rest, .array :: opened, b :: s =>
      if b = 0x2C then Json.skipLoop fuel .value (.array :: opened) s
      else if b = 0x5D then Json.skipLoop fuel .rest opened s
      else .error .illFormed
    | .rest, .object :: opened, b :: s =>
      if b = 0x2C then Json.skipLoop fuel .name (.object :: opened) s
      else if b = 0x7D then Json.skipLoop fuel .rest opened s
      else .error .illFormed
    | _, [], _ => .error .illFormed

/-- Passes over one value, whatever it is. Every octet is looked at in at most two steps. -/
def Json.skip (s : Bytes) : Except Json.Fault Bytes :=
  Json.skipLoop (2 * s.length + 2) .value [] s

/-! ## Values -/

/-- Any value. -/
def Json.readAny : Json.Reader Json
  | depth, s =>
    match Json.skipBlanks s with
    | [] => .error .ended
    | b :: s =>
      match b with
      | 0x6E => (Json.readWord [0x75, 0x6C, 0x6C] s).map (.null, ·)
      | 0x74 => (Json.readWord [0x72, 0x75, 0x65] s).map (.bool true, ·)
      | 0x66 => (Json.readWord [0x61, 0x6C, 0x73, 0x65] s).map (.bool false, ·)
      | 0x2D => Json.readNumber true s
      | 0x22 => (Json.readString s).map fun (text, s) => (.string text, s)
      | 0x5B =>
        match depth with
        | 0 => .error .illFormed
        | depth + 1 => do
          let (items, s) ← Json.readItems (Json.readAny depth) (s.length + 1) true s
          let s ← Json.endArray s
          pure (.array items, s)
      | 0x7B =>
        match depth with
        | 0 => .error .illFormed
        | depth + 1 => do
          let (members, s) ← Json.readMembers (Json.readAny depth) (s.length + 1) true s
          let s ← Json.endObject s
          pure (Json.ofMembers members, s)
      | b => if Json.isDigit b then Json.readNumber false (b :: s) else .error .illFormed

/-- The fault of a value that is not of the kind asked for. A value that stands alone is looked at
for its form first. -/
def Json.refuse {α : Type} (s : Bytes) : Except Json.Fault (α × Bytes) :=
  let wrong {β : Type} (r : Except Json.Fault β) : Except Json.Fault (α × Bytes) :=
    match r with
    | .ok _ => .error .wrongKind
    | .error f => .error f
  match Json.skipBlanks s with
  | [] => .error .ended
  | b :: s =>
    match b with
    | 0x6E => wrong (Json.readWord [0x75, 0x6C, 0x6C] s)
    | 0x74 => wrong (Json.readWord [0x72, 0x75, 0x65] s)
    | 0x66 => wrong (Json.readWord [0x61, 0x6C, 0x73, 0x65] s)
    | 0x2D => wrong (Json.readNumber true s)
    | 0x22 => wrong (Json.readString s)
    | 0x5B => .error .wrongKind
    | 0x7B => .error .wrongKind
    | b => if Json.isDigit b then wrong (Json.readNumber false (b :: s)) else .error .illFormed

/-- A text. -/
def Json.readText : Json.Reader String := fun _ s =>
  match Json.skipBlanks s with
  | 0x22 :: s => Json.readString s
  | s => Json.refuse s

/-- A value or `null`. -/
def Json.readOptional {α : Type} (inner : Json.Reader α) : Json.Reader (Option α) := fun depth s =>
  match Json.skipBlanks s with
  | 0x6E :: s => (Json.readWord [0x75, 0x6C, 0x6C] s).map (none, ·)
  | s => (inner depth s).map fun (x, s) => (some x, s)

/-- An array of values of one kind. -/
def Json.readList {α : Type} (item : Json.Reader α) : Json.Reader (List α) := fun depth s =>
  match Json.skipBlanks s with
  | 0x5B :: s =>
    match depth with
    | 0 => .error .illFormed
    | depth + 1 => do
      let (items, s) ← Json.readItems (item depth) (s.length + 1) true s
      let s ← Json.endArray s
      pure (items, s)
  | s => Json.refuse s

/-- An object of values of one kind, as its members in the order of the text. -/
def Json.readObject {α : Type} (value : Json.Reader α) : Json.Reader (List (String × α)) :=
  fun depth s =>
    match Json.skipBlanks s with
    | 0x7B :: s =>
      match depth with
      | 0 => .error .illFormed
      | depth + 1 => do
        let (members, s) ← Json.readMembers (value depth) (s.length + 1) true s
        let s ← Json.endObject s
        pure (members, s)
    | s => Json.refuse s

/-! ## Records

A record is written as an object with members of known names, or as an array of its fields in their
order. Members of other names are skipped; a known name may occur once. -/

/-- When a field may be left out. -/
inductive Json.Absence
  /-- Never. -/
  | required
  /-- In an object. -/
  | optional
  /-- In an object, and at the end of an array. -/
  | defaulted
  deriving DecidableEq

/-- A field of a record that is being put together as a value of `σ`. -/
structure Json.Field (σ : Type) where
  name : String
  absence : Json.Absence
  read : Nat → σ → Bytes → Except Json.Fault (σ × Bytes)

/-- A field whose value is put in its place by `set`. -/
def Json.Field.of {σ α : Type} (name : String) (absence : Json.Absence) (value : Json.Reader α)
    (set : σ → α → σ) : Json.Field σ :=
  ⟨name, absence, fun depth acc s => (value depth s).map fun (x, s) => (set acc x, s)⟩

/-- The fields of a record from the items of an array. -/
def Json.readPositional {σ : Type} (depth : Nat) :
    List (Json.Field σ) → Bool → σ → Bytes → Except Json.Fault (σ × Bytes)
  | [], _, acc, s => .ok (acc, s)
  | field :: fields, first, acc, s =>
    match Json.nextItem? first s with
    | .error f => .error f
    | .ok none =>
      if field.absence = .defaulted then Json.readPositional depth fields first acc s
      else .error .wrongKind
    | .ok (some s) =>
      match field.read depth acc s with
      | .error f => .error f
      | .ok (acc, s) => Json.readPositional depth fields false acc s

/-- The fields of a record from the members of an object; `seen` are the names so far. -/
def Json.readNamed {σ : Type} (depth : Nat) (fields : List (Json.Field σ)) :
    Nat → Bool → List String → σ → Bytes → Except Json.Fault (σ × Bytes)
  | 0, _, _, _, _ => .error .ended
  | fuel + 1, first, seen, acc, s =>
    match Json.nextName? first s with
    | .error f => .error f
    | .ok none =>
      if fields.all fun f => f.absence != .required || seen.contains f.name then .ok (acc, s)
      else .error .wrongKind
    | .ok (some (name, s)) =>
      match fields.find? fun f => f.name == name with
      | none =>
        match Json.colon s >>= Json.skip with
        | .error f => .error f
        | .ok s => Json.readNamed depth fields fuel false seen acc s
      | some field =>
        if seen.contains name then .error .wrongKind
        else
          match Json.colon s >>= field.read depth acc with
          | .error f => .error f
          | .ok (acc, s) => Json.readNamed depth fields fuel false (name :: seen) acc s

/-- A record with the given fields, starting from `init`. -/
def Json.readRecord {σ : Type} (fields : List (Json.Field σ)) (init : σ) : Json.Reader σ :=
  fun depth s =>
    match Json.skipBlanks s with
    | 0x5B :: s =>
      match depth with
      | 0 => .error .illFormed
      | depth + 1 => do
        let (acc, s) ← Json.readPositional depth fields true init s
        let s ← Json.endArray s
        pure (acc, s)
    | 0x7B :: s =>
      match depth with
      | 0 => .error .illFormed
      | depth + 1 => do
        let (acc, s) ← Json.readNamed depth fields (s.length + 1) true [] init s
        let s ← Json.endObject s
        pure (acc, s)
    | s => Json.refuse s

/-! ## Whole texts -/

/-- Reads a whole text as one value: only blanks may follow it. -/
def Json.decode {α : Type} (reader : Json.Reader α) (s : Bytes) : Except Json.Fault α :=
  match reader Json.depthLimit s with
  | .error f => .error f
  | .ok (x, rest) => if (Json.skipBlanks rest).isEmpty then .ok x else .error .illFormed

end Courier
