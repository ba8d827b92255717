import Courier.Json.Reader
import Courier.Time.HttpDate

set_option autoImplicit false

/-! # Dates in JSON texts

An instant stands in a JSON text as a string that holds its written form. -/

namespace Courier

/-- Reads an instant; a string that is no date is not of the kind asked for. -/
def Instant.readJson : Json.Reader Instant := fun depth s =>
  match Json.readText depth s with
  | .error f => .error f
  | .ok (text, s) =>
    match Instant.parseHttpDate text with
    | .ok t => .ok (t, s)
    | .error _ => .error .wrongKind

/-- The instant that a JSON text holds. -/
def Instant.decodeJson (s : Bytes) : Except Json.Fault Instant := Json.decode Instant.readJson s

/-- The JSON text of an instant whose year can be written. -/
def Instant.jsonText (t : Instant) : Except HttpDate.Error String := t.httpDate.map Json.quote

end Courier
