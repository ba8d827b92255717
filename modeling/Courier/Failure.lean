import Courier.Http.Status
import Courier.Json.Value
import Courier.Text.Quoted
import Courier.Time.Duration

set_option autoImplicit false

/-! # Failures and their causes

A failure is told with the failures that led to it. A chain of causes holds for each of them its
message and what a look at the chain can recognise of it: whether it is a failed request described
in the terms of the service, or holds one.

A service describes a failure by a code, a message and details. -/

namespace Courier

/-! ## Descriptions by the service -/

/-- How a service describes a failure. -/
structure ServiceError where
  code : String
  message : String
  details : Option (List Json)

/-- The text of a service's description. -/
def ServiceError.text (e : ServiceError) : String :=
  "Code=" ++ quoted e.code ++ " Message=" ++ quoted e.message ++
    (match e.details with
      | some details => " Details=" ++ (Json.array details).text
      | none => "")

/-- The description as a JSON text. The members stand in the order of the description, and details
    that are not known are left out. -/
def ServiceError.jsonText (e : ServiceError) : String :=
  let details := match e.details with
    | some details => [("details", Json.array details)]
    | none => []
  (Json.object ([("code", .string e.code), ("message", .string e.message)] ++ details)).text

/-! ## Failed requests -/

/-- A failed request, without its cause. -/
structure RequestReport where
  package : String
  method : String
  message : String
  status : Option Status
  requestId : Option String
  retryAfter : Option Duration
  serviceError : Option ServiceError

/-- What can be recognised of a failure in a chain of causes. -/
inductive FailureKind
  /-- Nothing. -/
  | plain
  /-- It is a failed request. -/
  | request (report : RequestReport)
  /-- It holds a failed request. -/
  | holder

/-- One failure in a chain of causes. -/
structure FailureLink where
  message : String
  kind : FailureKind

/-- A failure and its causes, the outermost first. -/
abbrev FailureChain := List FailureLink

/-- A failure of which nothing can be recognised. -/
def FailureLink.plain (message : String) : FailureLink := ⟨message, .plain⟩

/-- The message of the outermost failure. -/
def FailureChain.message (c : FailureChain) : String := (c.head?.map FailureLink.message).getD ""

/-- The messages of the causes of the outermost failure. -/
def FailureChain.causes (c : FailureChain) : List String := (c.drop 1).map FailureLink.message

/-- Whether a chain of causes has a failed request in it. -/
def FailureChain.isServiceError (c : FailureChain) : Bool :=
  c.any fun link => !(link.kind matches .plain)

/-- A failed request with the chain of its causes. -/
structure RequestError where
  report : RequestReport
  cause : FailureChain

/-- The text of a failed request. -/
def RequestError.text (e : RequestError) : String :=
  let status := match e.report.status with
    | some s => toString s.code
    | none => "unknown"
  match e.report.serviceError with
  | some service => "Service returned an error. Status=" ++ status ++ " " ++ service.text
  | none =>
    e.report.package ++ "#" ++ e.report.method ++ ": " ++ e.report.message ++ ": StatusCode=" ++
      status ++ (if e.cause.isEmpty then "" else " -- Original Error: " ++ e.cause.message)

/-- The chain that a failed request begins. -/
def RequestError.chain (e : RequestError) : FailureChain :=
  ⟨e.text, .request e.report⟩ :: e.cause

/-- The chain that something which holds a failed request and reads like it begins. -/
def RequestError.heldChain (e : RequestError) : FailureChain := ⟨e.text, .holder⟩ :: e.cause

/-- Something that reads like a failure but hides what it is. -/
def FailureChain.veiled (c : FailureChain) : FailureChain := .plain c.message :: c.drop 1

/-! ## Input and output -/

/-- The kinds of failure when something is read or written. -/
inductive IoErrorKind
  | other
  | connectionReset
  | invalidData
  deriving DecidableEq

/-- A failure when something is read or written. -/
structure IoError where
  kind : IoErrorKind
  message : String
  cause : FailureChain

/-- A failure that has no cause. -/
def IoError.of (kind : IoErrorKind) (message : String) : IoError := ⟨kind, message, []⟩

/-- The chain that a failure of input or output begins. -/
def IoError.chain (e : IoError) : FailureChain := .plain e.message :: e.cause

end Courier
