import Courier.Json.Value
import Courier.Request

set_option autoImplicit false

/-! # Preparing requests

A request is prepared by steps. A step stands for a decorator: a function that wraps the preparation
that comes after it. The first step of a list is the outermost, so the steps act in their order, and
a step that fails keeps the later ones from acting. -/

namespace Courier

/-! ## Errors -/

/-- Why a request cannot be prepared. -/
inductive PrepareError
  | invalidUrl (url reason : String)
  | missingUrl
  | invalidHeaderName (name : String)
  | invalidHeaderValue (name : String)
  | unserializable (reason : String)
  | refused (reason : String)
  deriving DecidableEq

/-- The wording of a preparation error. -/
def PrepareError.message : PrepareError → String
  | .invalidUrl url reason => "Invalid URL '" ++ url ++ "': " ++ reason
  | .missingUrl => "Request has no URL to modify"
  | .invalidHeaderName name => "Invalid header name '" ++ name ++ "'"
  | .invalidHeaderValue name => "Invalid value for header '" ++ name ++ "'"
  | .unserializable reason => "Failed to serialize request body: " ++ reason
  | .refused reason => "Authorization failed: " ++ reason

/-- The messages of the errors that led to a preparation error, the nearest first. -/
def PrepareError.causes : PrepareError → List String
  | .unserializable reason => [reason]
  | _ => []

/-! ## Steps -/

/-- What a probe saw of a request on its way. -/
structure PrepareProbe where
  name : String
  method : Method
  url : String
  headers : Nat
  deriving DecidableEq

/-- One step of a preparation. -/
inductive PrepareStep
  /-- Leaves the request as it is. -/
  | asIs
  /-- Sets the method. -/
  | method (m : Method)
  /-- Sets the URL, which must be absolute. -/
  | baseUrl (text : String)
  /-- Appends to the path of the URL. -/
  | path (text : String)
  /-- Adds fields to the query of the URL. -/
  | query (fields : List (String × String))
  /-- Makes a value the only one of a header. -/
  | header (name value : String)
  /-- Sets the body. -/
  | body (content : Bytes)
  /-- Sets a body of JSON text and its media type, if the text could be written. -/
  | json (encoded : Except String String)
  /-- Sets the body to a form, and its media type. -/
  | form (fields : List (String × String))
  /-- Fails for want of credentials. -/
  | refuse (reason : String)
  /-- Two steps in one. -/
  | both (first second : PrepareStep)
  /-- Records what passes. -/
  | probe (name : String)

/-- The media type of JSON bodies. -/
def mediaTypeJson : String := "application/json; charset=utf-8"

/-- The media type of form bodies. -/
def mediaTypeForm : String := "application/x-www-form-urlencoded"

/-- The header that names the media type of a body. -/
def HeaderName.contentType : HeaderName := ⟨"content-type"⟩

/-- The header that carries an id made by the client. -/
def HeaderName.clientId : String := "x-ms-client-request-id"

/-- The header that asks the service to return the client's id. -/
def HeaderName.returnClientId : String := "x-ms-return-client-request-id"

/-- The header that carries an id made by the service. -/
def HeaderName.requestId : String := "x-ms-request-id"

/-- Sets the media type of the body. -/
def PrepareStep.contentType (mediaType : String) : PrepareStep := .header "content-type" mediaType

/-- Adds credentials as a bearer token. -/
def PrepareStep.bearer (token : String) : PrepareStep :=
  .header "authorization" ("Bearer " ++ token)

/-- Sets the client's id. -/
def PrepareStep.clientId (id : String) : PrepareStep := .header HeaderName.clientId id

/-- Says whether the service should return the client's id. -/
def PrepareStep.returnClientId (wanted : Bool) : PrepareStep :=
  .header HeaderName.returnClientId (if wanted then "true" else "false")

/-- Sets the client's id and asks the service to return it. -/
def PrepareStep.returningClientId (id : String) : PrepareStep :=
  .both (.clientId id) (.returnClientId true)

/-! ## Path parameters -/

/-- Whether a text begins with another, and what follows it. -/
def dropPrefix? : List Char → List Char → Option (List Char)
  | [], s => some s
  | _ :: _, [] => none
  | p :: ps, c :: s => if p = c then dropPrefix? ps s else none

/-- A text with every occurrence of `old` replaced, from left to right and without overlap; `skip`
are the characters of an occurrence that are still to be passed over. -/
def replaceFrom (old new : List Char) : Nat → List Char → List Char
  | _, [] => []
  | skip + 1, _ :: s => replaceFrom old new skip s
  | 0, c :: s =>
    if (dropPrefix? old (c :: s)).isSome then new ++ replaceFrom old new (old.length - 1) s
    else c :: replaceFrom old new 0 s

/-- The placeholder of a name: the name in braces. -/
def placeholder (name : String) : List Char := '\x7b' :: name.toList ++ ['\x7d']

/-- A template with each parameter's placeholder replaced by its value, one parameter after
another. -/
def substitute (encode : String → List Char) (template : List Char)
    (parameters : List (String × String)) : List Char :=
  parameters.foldl (fun path p => replaceFrom (placeholder p.1) (encode p.2) 0 path) template

/-- Appends a template to the path, with values in place of the names in braces. -/
def PrepareStep.pathParameters (template : String) (parameters : List (String × String)) :
    PrepareStep :=
  .path (String.ofList (substitute String.toList template.toList parameters))

/-- Appends a template to the path, with form-encoded values in place of the names in braces. -/
def PrepareStep.escapedPathParameters (template : String) (parameters : List (String × String)) :
    PrepareStep :=
  .path (String.ofList (substitute Form.encode template.toList parameters))

/-! ## Decorators -/

/-- A preparation: its outcome and what probes saw on the way. -/
abbrev Preparing := ExceptT PrepareError (StateM (List PrepareProbe))

/-- Something that prepares requests. -/
abbrev Preparer := Request → Preparing Request

/-- What a step other than `both` does to a request. -/
def PrepareStep.act (r : Request) : PrepareStep → Preparing Request
  | .asIs => pure r
  | .method m => pure { r with method := m }
  | .baseUrl text =>
    match Url.parse text with
    | .ok url => pure { r with url := some url }
    | .error e => throw (.invalidUrl text e.message)
  | .path text =>
    match r.url with
    | some url => pure { r with url := some (url.appendPath text) }
    | none => throw .missingUrl
  | .query fields =>
    match r.url with
    | some url => pure { r with url := some (url.addQuery fields) }
    | none => throw .missingUrl
  | .header name value =>
    match HeaderName.parse? name, HeaderValue.parse? value with
    | none, _ => throw (.invalidHeaderName name)
    | _, none => throw (.invalidHeaderValue name)
    | some n, some v => pure { r with headers := r.headers.set n v }
  | .body content => pure { r with body := some content }
  | .json (.error reason) => throw (.unserializable reason)
  | .json (.ok text) =>
    pure { r with
      headers := r.headers.set .contentType ⟨Utf8.encode mediaTypeJson⟩
      body := some (Utf8.encode text) }
  | .form fields =>
    pure { r with
      headers := r.headers.set .contentType ⟨Utf8.encode mediaTypeForm⟩
      body := some (Utf8.encode (Form.text fields)) }
  | .refuse reason => throw (.refused reason)
  | .both _ _ => pure r
  | .probe name => do
    modify (· ++ [⟨name, r.method, r.urlText, r.headers.length⟩])
    pure r

/-- Wraps a preparation in a step. -/
def PrepareStep.decorate : PrepareStep → Preparer → Preparer
  | .asIs, next => next
  | .both first second, next => first.decorate (second.decorate next)
  | step, next => fun r => step.act r >>= next

/-- Wraps a preparation in steps, the first one outermost. -/
def decoratePreparer (steps : List PrepareStep) (last : Preparer) : Preparer :=
  steps.foldr PrepareStep.decorate last

/-- Prepares a request by steps. -/
def prepare (steps : List PrepareStep) (base : Request) : Preparing Request :=
  decoratePreparer steps pure base

/-- The outcome of a preparation and what its probes saw. -/
def Preparing.outcome (p : Preparing Request) : Except PrepareError Request × List PrepareProbe :=
  StateT.run (m := Id) (ExceptT.run p) []

/-! ## Room for headers -/

/-- The steps that a step is made of, none of which is made of others. -/
def PrepareStep.parts : PrepareStep → List PrepareStep
  | .both first second => first.parts ++ second.parts
  | step => [step]

/-- Whether a step sets a header unless it fails. -/
def PrepareStep.setsHeader : PrepareStep → Bool
  | .header _ _ => true
  | .json _ => true
  | .form _ => true
  | _ => false

/-- Whether one of some steps sets a header that a request has no room for. Steps that come after an
error do not act. -/
def crowds (room : HeaderRoom) : List PrepareStep → Request → Bool
  | [], _ => false
  | step :: rest, r =>
    match (step.act r).outcome.1 with
    | .error _ => false
    | .ok next => (step.setsHeader && !room r.headers.toArray) || crowds room rest next

/-! ## Single steps -/

/-- The outcome after each step, up to the first error. -/
def prepareEach (request : Request) : List PrepareStep → List (Except PrepareError Request)
  | [] => []
  | step :: rest =>
    match (prepare [step] request).outcome.1 with
    | .ok request => .ok request :: prepareEach request rest
    | .error e => [.error e]

end Courier
