import Courier.Json.Reader
import Courier.Service.ErrorBody

set_option autoImplicit false

/-! # Errors of responses -/

namespace Courier

/-- Why a response is not what its receiver wants. -/
inductive RespondError
  /-- The service described a failure. -/
  | service (e : RequestError)
  /-- The status is none of the accepted ones. -/
  | unexpectedStatus (status : Status)
  /-- The body cannot be read. -/
  | body (e : IoError)
  /-- The body does not hold what is wanted. -/
  | decode (fault : Json.Fault)

/-- The chain that a respond error begins. A description by the service stands for itself. -/
def RespondError.chain : RespondError → FailureChain
  | .service e => e.heldChain
  | .unexpectedStatus status => [.plain ("Unexpected response status " ++ status.text)]
  | .body e => .plain ("Failed to read response body: " ++ e.message) :: e.chain
  | .decode fault =>
    [.plain ("Failed to decode response body: " ++ fault.message), .plain fault.message]

/-- The wording of a respond error. -/
def RespondError.message (e : RespondError) : String := e.chain.message

/-- The failed request that a respond error holds. -/
def RespondError.requestError? : RespondError → Option RequestError
  | .service e => some e
  | _ => none

end Courier
