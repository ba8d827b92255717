import Courier.Failure
import Courier.Json.Reader
import Courier.Prepare
import Courier.Response

set_option autoImplicit false

/-! # Failures that a service describes

A service describes a failure in the body of its response: as an object of its own, or as the member
`error` of one. A description without a code is none. -/

namespace Courier

/-! ## Reading -/

/-- Reads a description. Only its code must be there. -/
def ServiceError.readJson : Json.Reader ServiceError :=
  Json.readRecord
    [.of "code" .required Json.readText fun e code => { e with code := code },
      .of "message" .defaulted Json.readText fun e message => { e with message := message },
      .of "details" .defaulted (Json.readOptional (Json.readList Json.readAny))
        fun e details => { e with details := details }]
    ⟨"", "", none⟩

/-- Reads a description inside the member `error` of an object. -/
def ServiceError.readEnvelope : Json.Reader ServiceError :=
  Json.readRecord [.of "error" .required ServiceError.readJson fun _ e => e] ⟨"", "", none⟩

/-- The description that a body holds. -/
def ServiceError.ofBody? (content : Bytes) : Option ServiceError :=
  let found :=
    match Json.decode ServiceError.readEnvelope content with
    | .ok e => some e
    | .error _ => (Json.decode ServiceError.readJson content).toOption
  found.filter fun e => !e.code.isEmpty

/-! ## Failed requests -/

/-- The service's id of the request that a response answers. -/
def Response.requestId? (r : Response) : Option String := r.header? HeaderName.requestId

/-- The client's id, as the service returns it. -/
def Response.clientId? (r : Response) : Option String := r.header? HeaderName.clientId

/-- A failed request of which no response is known. -/
def RequestError.of (package method message : String) : RequestError :=
  ⟨⟨package, method, message, none, none, none, none⟩, []⟩

/-- Adds what a response tells about a failed request. -/
def RequestReport.withResponse (report : RequestReport) (r : Response) : RequestReport :=
  { report with
    status := some r.status, requestId := r.requestId?, retryAfter := r.retryAfter? }

/-- A failed request with its cause. A cause that already is a failed request stands for itself. -/
def RequestError.withCause (cause : FailureChain) (package method : String)
    (response : Option Response) (message : String) : RequestError :=
  match cause with
  | ⟨_, .request report⟩ :: rest => ⟨report, rest⟩
  | cause =>
    let e := RequestError.of package method message
    match response with
    | some r => ⟨e.report.withResponse r, cause⟩
    | none => ⟨e.report, cause⟩

/-- The failed request that a service has described in a response. -/
def RequestError.described (r : Response) (service : ServiceError) : RequestError :=
  let e := RequestError.of "restwire" "with_error_unless_status_code" "service error"
  ⟨{ e.report.withResponse r with serviceError := some service }, e.cause⟩

end Courier
