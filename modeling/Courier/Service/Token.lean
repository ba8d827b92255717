import Courier.Crash
import Courier.Json.Reader
import Courier.Number.Integer
import Courier.Prepare
import Courier.Text.Blank
import Courier.Text.Quoted
import Courier.Time.Instant

set_option autoImplicit false

/-! # Access tokens

A token as a token service hands it out: numbers are kept as the texts that they arrive in. A token
whose expiry cannot be read counts as expired. -/

namespace Courier

/-- An access token. -/
structure Token where
  accessToken : String
  refreshToken : String
  expiresIn : String
  expiresOn : String
  notBefore : String
  resource : String
  tokenType : String
  deriving DecidableEq

/-- A token of which nothing is known. -/
def Token.empty : Token := ⟨"", "", "", "", "", "", ""⟩

/-- The names and texts of a token's fields, in their order. -/
def Token.fields (t : Token) : List (String × String) :=
  [("access_token", t.accessToken), ("refresh_token", t.refreshToken),
    ("expires_in", t.expiresIn), ("expires_on", t.expiresOn), ("not_before", t.notBefore),
    ("resource", t.resource), ("token_type", t.tokenType)]

/-! ## JSON -/

/-- The fields of a token in a JSON text. Any field may be left out. -/
def Token.jsonFields : List (Json.Field Token) :=
  [.of "access_token" .defaulted Json.readText fun t s => { t with accessToken := s },
    .of "refresh_token" .defaulted Json.readText fun t s => { t with refreshToken := s },
    .of "expires_in" .defaulted Json.readText fun t s => { t with expiresIn := s },
    .of "expires_on" .defaulted Json.readText fun t s => { t with expiresOn := s },
    .of "not_before" .defaulted Json.readText fun t s => { t with notBefore := s },
    .of "resource" .defaulted Json.readText fun t s => { t with resource := s },
    .of "token_type" .defaulted Json.readText fun t s => { t with tokenType := s }]

/-- Reads a token. -/
def Token.readJson : Json.Reader Token := Json.readRecord Token.jsonFields Token.empty

/-- The JSON text of a token, its fields in their order. -/
def Token.jsonText (t : Token) : String :=
  (Json.object (t.fields.map fun field => (field.1, Json.string field.2))).text

/-- The text of a token for messages; credentials are not shown. -/
def Token.redacted (t : Token) : String :=
  let shown := t.fields.map fun (name, text) =>
    name ++ ": " ++
      quoted (if name = "access_token" ∨ name = "refresh_token" then "<redacted>" else text)
  "Token \x7b " ++ String.intercalate ", " shown ++ " \x7d"

/-! ## Expiry -/

/-- A whole number of 64 bits with a sign, in decimal, blanks at the ends aside. -/
def parseEpoch? (text : String) : Option Int := readSigned64? (Blank.trim text)

/-- When a token expires, if that can be read. -/
def Token.expires? (t : Token) : Option Instant :=
  (parseEpoch? t.expiresOn).bind fun seconds => Instant.ofUnix? seconds 0

/-- The instant that lies some nanoseconds after another one, if the calendar has it. A leap second
is only left by a span that reaches out of it. -/
def Instant.addNanos? (t : Instant) (span : Int) : Option Instant :=
  let moved := t.nanos + span
  if t.isLeap ∧ -1000000000 < span ∧ span < 1000000000 ∧ moved < 2000000000 then
    Instant.of? t.seconds moved.toNat
  else
    let total := t.seconds * 1000000000 + moved - (if t.isLeap ∧ 0 < span then 1000000000 else 0)
    Instant.of? (total.fdiv 1000000000) (total.fmod 1000000000).toNat

/-- Whether a token expires within a span of nanoseconds after an instant. The end of the span must
be an instant, unless the expiry of the token cannot be read. -/
def Token.willExpireIn (t : Token) (now : Instant) (window : Int) : Except Crash Bool :=
  match t.expires? with
  | none => .ok true
  | some expires =>
    match now.addNanos? window with
    | none => .error .instantOutOfRange
    | some limit => .ok (expires.le limit)

/-- Whether a token has expired at an instant. -/
def Token.isExpired (t : Token) (now : Instant) : Except Crash Bool := t.willExpireIn now 0

/-! ## Authorization -/

/-- Adds a token to a request. -/
def Token.authorize (t : Token) : PrepareStep := .bearer t.accessToken

end Courier
