import Courier.Prepare
import Courier.Response

set_option autoImplicit false

/-! # Errors of sending

Why a request that was sent brought no response that its sender wants. A rejected response travels
with the error, and its body with it. -/

namespace Courier

/-- Why a transport brought no response. -/
inductive TransportError
  | connection (cause : FailureChain)
  | timeout
  | invalidUrl (reason : String)

/-- The chain that a transport error begins. -/
def TransportError.chain : TransportError → FailureChain
  | .connection cause => .plain ("Connection error: " ++ cause.message) :: cause
  | .timeout => [.plain "Request timed out"]
  | .invalidUrl reason => [.plain ("Invalid URL: " ++ reason)]

/-- Why sending brought no response that is wanted. -/
inductive SendError
  | transport (e : TransportError)
  | unexpectedStatus (method : Method) (url : String) (status : Status) (response : Response)
  | prepare (e : PrepareError)
  | missingLocation (status : Status)
  | cancelled

/-- What sending comes to. -/
abbrev SendResult := Except SendError Response

/-- The rejection of a response. -/
def SendError.rejection (request : Request) (response : Response) : SendError :=
  .unexpectedStatus request.method request.urlText response.status response

/-- The chain that a send error begins. -/
def SendError.chain : SendError → FailureChain
  | .transport e => e.chain
  | .unexpectedStatus method url status _ =>
    [.plain (method.name ++ " " ++ url ++ " failed with " ++ status.text)]
  | .prepare e =>
    .plain ("Failed to prepare request: " ++ e.message) :: .plain e.message ::
      e.causes.map .plain
  | .missingLocation status =>
    [.plain ("Location header missing from response that requires polling (" ++ status.text ++ ")")]
  | .cancelled => [.plain "Request cancelled"]

/-- The wording of a send error. -/
def SendError.message (e : SendError) : String := e.chain.message

/-- The response that travels with an error. -/
def SendError.response? : SendError → Option Response
  | .unexpectedStatus _ _ _ response => some response
  | _ => none

/-- The response that a result brings, in an error or without one. -/
def SendResult.response? : SendResult → Option Response
  | .ok response => some response
  | .error e => e.response?

/-- Whether the caller cancelled. -/
def SendError.isCancelled : SendError → Bool
  | .cancelled => true
  | _ => false

/-- The kinds of send error. -/
inductive SendError.Kind
  | connection
  | timeout
  | invalidUrl
  | unexpectedStatus
  | prepare
  | missingLocation
  | cancelled
  deriving DecidableEq

/-- The kind of a send error. -/
def SendError.kind : SendError → SendError.Kind
  | .transport (.connection _) => .connection
  | .transport .timeout => .timeout
  | .transport (.invalidUrl _) => .invalidUrl
  | .unexpectedStatus _ _ _ _ => .unexpectedStatus
  | .prepare _ => .prepare
  | .missingLocation _ => .missingLocation
  | .cancelled => .cancelled

end Courier
