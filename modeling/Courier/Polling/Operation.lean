import Courier.Exchange.World
import Courier.Json.Reader

set_option autoImplicit false

/-! # Long-running operations

A service that takes on work answers that the work is accepted and where its outcome will be. What
the answer means for polling is read off its status and its headers; the state of the work may also
be told in the body. -/

namespace Courier

/-! ## Status -/

/-- The state of an operation. -/
inductive OperationStatus
  | inProgress
  | succeeded
  | failed
  | canceled
  deriving DecidableEq

/-- All states. -/
def OperationStatus.all : List OperationStatus := [.inProgress, .succeeded, .failed, .canceled]

/-- The name of a state. -/
def OperationStatus.name : OperationStatus → String
  | .inProgress => "InProgress"
  | .succeeded => "Succeeded"
  | .failed => "Failed"
  | .canceled => "Canceled"

/-- Whether an operation in this state has ended. -/
def OperationStatus.isTerminal (s : OperationStatus) : Bool := s != .inProgress

/-- A text in which the case of ASCII letters does not count. -/
def foldCase (text : String) : List Char := text.toList.map Char.toLower

/-- The state that a name stands for; blanks at its ends and its case do not count. -/
def OperationStatus.parse? (name : String) : Option OperationStatus :=
  OperationStatus.all.find? fun s => foldCase s.name == foldCase (Blank.trim name)

/-- The state of an operation that has ended with a status code. -/
def OperationStatus.ofCode (status : Status) : OperationStatus :=
  if status.isSuccess then .succeeded else .failed

/-- Reads the member that names the state of an operation. -/
def OperationStatus.readName : Json.Reader (Option String) :=
  Json.readRecord [.of "status" .optional (Json.readOptional Json.readText) fun _ name => name] none

/-- The state that a response tells: in its body, or else by its status code. The body is read and
    closed, and a copy of it stays readable. -/
def OperationStatus.ofResponse (r : Response) :
    Act (Except IoError OperationStatus × Response) := do
  let (result, r) ← r.bufferBody
  match result with
  | .error e => pure (.error e, r)
  | .ok content =>
    let named :=
      ((Json.decode OperationStatus.readName content).toOption.bind id).bind OperationStatus.parse?
    pure (.ok (named.getD (.ofCode r.status)), r)

/-! ## What a response asks for -/

/-- The header that says where a resource is. -/
def HeaderName.location : String := "location"

/-- The header that says where the outcome of an operation will be. -/
def HeaderName.asyncOperation : String := "azure-asyncoperation"

/-- The wait between polls when the service asks for none. -/
def defaultPollingDelay : Duration := .ofSeconds 60

/-- The span within which an operation is polled. -/
def defaultPollingDuration : Duration := .ofSeconds 900

/-- The codes that say that an operation goes on. -/
def defaultPollingCodes : List Status := [⟨202⟩]

/-- Whether a response says that its operation goes on: its code is one of the given ones, or of the
    usual ones if none are given. The code 200 never says so. -/
def Response.requiresPolling (r : Response) (codes : List Status) : Bool :=
  r.status.code != 200 && (if codes.isEmpty then defaultPollingCodes else codes).contains r.status

/-- Where to ask for the outcome of an operation. -/
def Response.pollingLocation? (r : Response) : Option String :=
  ([HeaderName.asyncOperation, HeaderName.location].filterMap fun name =>
    (r.header? name).map Blank.trim).find? fun text => !text.isEmpty

/-- How long to wait before asking. -/
def Response.pollingDelay (r : Response) (usual : Duration) : Duration := r.retryAfter?.getD usual

/-! ## Progress -/

/-- The progress of an operation. It keeps the last response, whose body it may have to close. -/
structure PollingState where
  status : OperationStatus
  url : Option String
  delay : Duration
  last : Response

/-- The progress that a response tells. Its body is left alone. -/
def PollingState.ofResponse (r : Response) (usual : Duration) (codes : List Status) :
    PollingState :=
  ⟨if r.requiresPolling codes then .inProgress else .ofCode r.status, r.pollingLocation?,
    r.pollingDelay usual, r⟩

/-- The progress after one more response. The body of the one before is closed, and its location
    holds on if the new one names none. -/
def PollingState.record (s : PollingState) (r : Response) (usual : Duration)
    (codes : List Status) : Act PollingState := do
  let _ ← s.last.closeBody
  let next := PollingState.ofResponse r usual codes
  pure { next with url := next.url.orElse fun _ => s.url }

/-- Closes the body of the last response. -/
def PollingState.closeResponse (s : PollingState) : Act PollingState := do
  let last ← s.last.closeBody
  pure { s with last := last }

end Courier
