import Courier.Body
import Courier.Http.Headers
import Courier.Http.Status
import Courier.Number.Integer
import Courier.Text.Blank

set_option autoImplicit false

/-! # Responses -/

namespace Courier

/-- A response. -/
structure Response where
  status : Status
  headers : Headers
  body : Option Body
  deriving DecidableEq

/-- The first value of a header, if it is text. -/
def Response.header? (r : Response) (name : String) : Option String := r.headers.text? name

/-- Whether there is a body that is open. -/
def Response.bodyIsOpen (r : Response) : Bool := (r.body.map Body.isOpen).getD false

/-- A whole number of 64 bits in decimal, blanks at the ends aside; a plus sign may stand in
front. -/
def parseSeconds? (text : String) : Option Nat := readUnsigned64? (Blank.trim text)

/-- The header that says how long to wait. -/
def HeaderName.retryAfter : String := "retry-after"

/-- The wait that a response asks for, in whole seconds. -/
def Response.retryAfter? (r : Response) : Option Duration :=
  (r.header? HeaderName.retryAfter).bind fun text => (parseSeconds? text).map Duration.ofSeconds

end Courier
