import Courier.Http.Headers
import Courier.Http.Method
import Courier.Url.Edit

set_option autoImplicit false

/-! # Requests

A request on its way to a service. Its body is held as octets, so that every attempt sends the same
request again. -/

namespace Courier

/-- A request. -/
structure Request where
  method : Method
  url : Option Url
  headers : Headers
  body : Option Bytes
  /-- Whether the waits of the request end when the caller cancels. -/
  cancellable : Bool
  deriving DecidableEq

/-- A request that nothing is known of yet. -/
def Request.empty : Request := ⟨.get, none, [], none, false⟩

/-- A request for a representation. -/
def Request.get (url : Url) : Request := { Request.empty with url := some url }

/-- The text of a request's URL, or a note that there is none. -/
def Request.urlText (r : Request) : String :=
  match r.url with
  | some u => u.text
  | none => "<no url>"

end Courier
