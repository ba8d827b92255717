import Courier.Text.Blank
import Courier.Text.Utf8
import Courier.Time.Instant

set_option autoImplicit false

/-! # Dates as HTTP writes them

The fixed form `Mon, 02 Jan 2006 15:04:05 GMT`. Writing is possible for the years 0 to 9999. Reading
takes the zone names `GMT`, `UTC` and `UT`; the year must have four digits and the weekday must be
the right one. A sixtieth second is read as a leap second. -/

namespace Courier

/-! ## Errors -/

/-- Why the fields of a date cannot be read. -/
inductive HttpDate.FieldError
  | invalid
  | outOfRange
  | tooShort
  | trailing
  | impossible
  deriving DecidableEq

/-- The wording of a field error. -/
def HttpDate.FieldError.message : HttpDate.FieldError → String
  | .invalid => "input contains invalid characters"
  | .outOfRange => "input is out of range"
  | .tooShort => "premature end of input"
  | .trailing => "trailing input"
  | .impossible => "no possible date and time matching input"

/-- What can be wrong with the layout of a date. -/
inductive HttpDate.LayoutError
  | missingZone
  | unknownZone
  | fieldCount
  | yearDigits
  | notText
  deriving DecidableEq

/-- The wording of a layout error. -/
def HttpDate.LayoutError.message : HttpDate.LayoutError → String
  | .missingZone => "missing zone"
  | .unknownZone => "zone must be GMT, UTC or UT"
  | .fieldCount => "wrong number of fields"
  | .yearDigits => "year must have four digits"
  | .notText => "not UTF-8"

/-- Why a date cannot be read or written. -/
inductive HttpDate.Error
  | yearOutOfRange (year : Int)
  | malformed (input : String) (reason : HttpDate.LayoutError)
  | fields (input : String) (reason : HttpDate.FieldError)
  deriving DecidableEq

/-- The wording of a date error. -/
def HttpDate.Error.message : HttpDate.Error → String
  | .yearOutOfRange year => "year " ++ toString year ++ " is outside the range [0,9999]"
  | .malformed input reason =>
    "'" ++ input ++ "' is not an RFC 1123 timestamp: " ++ reason.message
  | .fields input reason =>
    "failed to parse '" ++ input ++ "' as an RFC 1123 timestamp: " ++ reason.message

/-- The messages of the errors that led to a date error, the nearest first. -/
def HttpDate.Error.causes : HttpDate.Error → List String
  | .fields _ reason => [reason.message]
  | _ => []

/-! ## Writing -/

/-- The pattern of the form, in the usual letters for date fields. -/
def HttpDate.pattern : String := "%a, %d %b %Y %H:%M:%S GMT"

/-- A number in decimal with zeros in front up to a width. -/
def HttpDate.padded (width n : Nat) : String :=
  let digits := (toString n).toList
  String.ofList (List.replicate (width - digits.length) '0' ++ digits)

/-- Whether the year of an instant can be written with four digits. -/
def Instant.hasHttpDate (t : Instant) : Bool := 0 ≤ t.year && t.year ≤ 9999

/-- The written form of an instant. -/
def Instant.httpDate (t : Instant) : Except HttpDate.Error String :=
  if t.hasHttpDate then
    let d := t.date
    let s := t.secondOfDay
    .ok ((Date.weekdayNames[Date.weekdayOf t.dayNumber]?).getD "" ++ ", " ++
      HttpDate.padded 2 d.day ++ " " ++ (Date.monthNames[d.month - 1]?).getD "" ++ " " ++
      HttpDate.padded 4 d.year.toNat ++ " " ++
      HttpDate.padded 2 (s / 3600) ++ ":" ++ HttpDate.padded 2 (s / 60 % 60) ++ ":" ++
      HttpDate.padded 2 (s % 60 + (if t.isLeap then 1 else 0)) ++ " GMT")
  else .error (.yearOutOfRange t.year)

/-- The written form of an instant, or nothing when the year has none. -/
def Instant.httpDateText (t : Instant) : String :=
  match t.httpDate with
  | .ok text => text
  | .error _ => ""

/-- The octets of the written form. -/
def Instant.httpDateBytes (t : Instant) : Except HttpDate.Error Bytes :=
  t.httpDate.map Utf8.encode

/-! ## Reading fields

Each reader takes what it needs from the front of the text and gives the rest. -/

/-- The number of octets of a text in UTF-8. -/
def HttpDate.octets (s : List Char) : Nat := s.foldr (fun c n => c.utf8Size + n) 0

/-- Up to `most` digits read as a number, with the rest. -/
def HttpDate.digitRun : Nat → Nat → List Char → Nat × List Char
  | acc, 0, s => (acc, s)
  | acc, _, [] => (acc, [])
  | acc, most + 1, c :: s =>
    if c.isDigit then HttpDate.digitRun (acc * 10 + (c.toNat - 48)) most s else (acc, c :: s)

/-- A number of at least one digit and at most `most`, below `2 ^ 63`. -/
def HttpDate.number (most : Nat) (s : List Char) : Except HttpDate.FieldError (Nat × List Char) :=
  match s with
  | [] => .error .tooShort
  | c :: _ =>
    if c.isDigit then
      let (n, rest) := HttpDate.digitRun 0 most s
      if n < 0x8000000000000000 then .ok (n, rest) else .error .outOfRange
    else .error .invalid

/-- A number field: blanks in front are skipped and the value must lie between two bounds. -/
def HttpDate.field (low high : Nat) (s : List Char) :
    Except HttpDate.FieldError (Nat × List Char) := do
  let (n, rest) ← HttpDate.number 2 (Blank.trimStart s)
  if low ≤ n ∧ n ≤ high then pure (n, rest) else throw .outOfRange

/-- A year: four digits at most, or any number of digits after a sign. -/
def HttpDate.signedYear (s : List Char) : Except HttpDate.FieldError (Int × List Char) :=
  match Blank.trimStart s with
  | '-' :: s => (HttpDate.number s.length s).map fun (n, rest) => (-(n : Int), rest)
  | '+' :: s => (HttpDate.number s.length s).map fun (n, rest) => ((n : Int), rest)
  | s => (HttpDate.number 4 s).map fun (n, rest) => ((n : Int), rest)

/-- Whether a year fits into 32 bits with a sign. -/
def HttpDate.fitsYear (year : Int) : Bool := -0x80000000 ≤ year && year < 0x80000000

/-- A year field. -/
def HttpDate.yearField (s : List Char) : Except HttpDate.FieldError (Int × List Char) := do
  let (year, rest) ← HttpDate.signedYear s
  if HttpDate.fitsYear year then pure (year, rest) else throw .outOfRange

/-- One of some names of three letters in any case, as its place in the list. -/
def HttpDate.nameField (names : List String) (s : List Char) :
    Except HttpDate.FieldError (Nat × List Char) :=
  if HttpDate.octets s < 3 then .error .tooShort
  else
    let word := (s.take 3).map Char.toLower
    match names.findIdx? (fun name => name.toList.map Char.toLower == word) with
    | some i => .ok (i, s.drop 3)
    | none => .error .invalid

/-- A fixed mark. -/
def HttpDate.mark (c : Char) (s : List Char) : Except HttpDate.FieldError (List Char) :=
  match s with
  | [] => .error .tooShort
  | d :: rest => if c = d then .ok rest else .error .invalid

/-- The fields of a date and time before the zone. -/
structure HttpDate.Fields where
  weekday : Weekday
  date : Date
  hour : Nat
  minute : Nat
  second : Nat

/-- Reads the fields in their order; nothing may be left over. -/
def HttpDate.readFields (s : List Char) : Except HttpDate.FieldError HttpDate.Fields := do
  let (weekday, s) ← HttpDate.nameField Date.weekdayNames s
  let s ← HttpDate.mark ',' s
  let (day, s) ← HttpDate.field 1 31 s
  let (month, s) ← HttpDate.nameField Date.monthNames (Blank.trimStart s)
  let (year, s) ← HttpDate.yearField s
  let (hour, s) ← HttpDate.field 0 23 s
  let s ← HttpDate.mark ':' s
  let (minute, s) ← HttpDate.field 0 59 s
  let s ← HttpDate.mark ':' s
  let (second, s) ← HttpDate.field 0 60 s
  if s.isEmpty then pure ⟨weekday, ⟨year, month + 1, day⟩, hour, minute, second⟩
  else throw .trailing

/-- The instant that some fields name. -/
def HttpDate.Fields.instant (f : HttpDate.Fields) : Except HttpDate.FieldError Instant :=
  if !f.date.isReal then .error .outOfRange
  else if f.date.weekday ≠ f.weekday then .error .impossible
  else
    let midnight := f.date.dayNumber * 86400
    let seconds := midnight + (f.hour * 3600 + f.minute * 60 + min f.second 59 : Nat)
    match Instant.ofUnix? seconds (if f.second = 60 then 1000000000 else 0) with
    | some t => .ok t
    | none => .error .outOfRange

/-! ## Reading a date -/

/-- The names of universal time that are understood. -/
def HttpDate.zones : List String := ["GMT", "UTC", "UT"]

/-- The parts of a text before and after its last space. -/
def HttpDate.splitLastSpace? (s : List Char) : Option (List Char × List Char) :=
  let word := s.reverse.takeWhile (· ≠ ' ')
  match s.reverse.dropWhile (· ≠ ' ') with
  | [] => none
  | _ :: front => some (front.reverse, word.reverse)

/-- The parts of a text between its spaces. -/
def HttpDate.words : List Char → List (List Char)
  | [] => [[]]
  | c :: s =>
    match HttpDate.words s with
    | [] => [[c]]
    | w :: ws => if c = ' ' then [] :: w :: ws else (c :: w) :: ws

/-- Whether a text is four digits. -/
def HttpDate.isFourDigits (s : List Char) : Bool := s.length == 4 && s.all Char.isDigit

/-- Reads a date. -/
def Instant.parseHttpDate (input : String) : Except HttpDate.Error Instant :=
  let text := (Blank.trim input).toList
  match HttpDate.splitLastSpace? text with
  | none => .error (.malformed input .missingZone)
  | some (front, zone) =>
    if !HttpDate.zones.contains (String.ofList zone) then
      .error (.malformed input .unknownZone)
    else
      match HttpDate.words front with
      | [_, _, _, year, _] =>
        if !HttpDate.isFourDigits year then .error (.malformed input .yearDigits)
        else
          match HttpDate.readFields front >>= HttpDate.Fields.instant with
          | .ok t => .ok t
          | .error reason => .error (.fields input reason)
      | _ => .error (.malformed input .fieldCount)

/-- Reads a date from octets, which must be UTF-8. -/
def Instant.parseHttpDateBytes (bytes : Bytes) : Except HttpDate.Error Instant :=
  match Utf8.decode? bytes with
  | some text => Instant.parseHttpDate text
  | none => .error (.malformed (Utf8.lossy bytes) .notText)

end Courier
