import Courier.Exchange.World
import Courier.Respond.Error
import Courier.Service.Token
import Courier.Time.DateJson

set_option autoImplicit false

/-! # Handling responses

A response is handled by steps, of which the first is the outermost. A step may read the body into a
target of the receiver, check the status, or close the body once the steps inside it are done. A
step that fails keeps the ones inside it from acting. -/

namespace Courier

/-! ## Targets -/

/-- A place of the receiver that a body is decoded into. -/
inductive Target
  | any (value : Json)
  | texts (members : List (String × String))
  | token (value : Token)
  | serviceError (value : ServiceError)
  | times (values : List Instant)
  /-- The body itself as a text. -/
  | content (text : String)

/-- Members with one more, in the order of names; a member of the same name gives way. -/
def insertText (name value : String) : List (String × String) → List (String × String)
  | [] => [(name, value)]
  | (n, v) :: rest =>
    if name = n then (n, value) :: rest
    else if name < n then (name, value) :: (n, v) :: rest
    else (n, v) :: insertText name value rest

/-- The target with what a body holds for it. -/
def Target.decode (target : Target) (content : Bytes) : Except Json.Fault Target :=
  match target with
  | .any _ => (Json.decode Json.readAny content).map .any
  | .texts _ =>
    (Json.decode (Json.readObject Json.readText) content).map fun members =>
      .texts (members.foldl (fun acc m => insertText m.1 m.2 acc) [])
  | .token _ => (Json.decode Token.readJson content).map .token
  | .serviceError _ => (Json.decode ServiceError.readJson content).map .serviceError
  | .times _ => (Json.decode (Json.readList Instant.readJson) content).map .times
  | .content _ => .ok (.content (Utf8.lossy content))

/-! ## Steps -/

/-- A response on its way, and the targets of its receiver. -/
structure Handling where
  response : Response
  targets : List Target

/-- Something that handles a response. -/
abbrev Responder := Handling → Act (Except RespondError Unit × Handling)

/-- A behaviour around a responder. -/
inductive RespondStep
  /-- Nothing. -/
  | ignoring
  /-- Closes the body when all is done. -/
  | closing
  /-- Decodes the body into a target. -/
  | decodeInto (target : Nat)
  /-- Fails unless the status is one of these. -/
  | statusCheck (codes : List Status)
  /-- Looks for a description by the service unless the status is one of these. -/
  | serviceErrorUnless (codes : List Status)
  /-- Fails with a status. -/
  | reject (status : Status)
  /-- Reads the body into memory. -/
  | buffer
  /-- Reads the body into memory and keeps its text in a target. -/
  | keep (target : Nat)
  /-- Records what passes. -/
  | probe (name : String)

/-- The body of a response read to its end; no body has no content. -/
def Response.readBody (r : Response) : Except IoError Bytes × Response :=
  match r.body with
  | none => (.ok [], r)
  | some b =>
    let (result, b) := b.readAll
    (result, { r with body := some b })

/-- What a step other than a wrapping one does before it hands on. -/
def RespondStep.act (h : Handling) : RespondStep → Act (Except RespondError Unit × Handling)
  | .decodeInto i =>
    match h.response.readBody with
    | (.error e, r) => pure (.error (.body e), { h with response := r })
    | (.ok content, r) =>
      match h.targets[i]? with
      | none => pure (.ok (), { h with response := r })
      | some target =>
        match target.decode content with
        | .ok value => pure (.ok (), ⟨r, h.targets.set i value⟩)
        | .error fault => pure (.error (.decode fault), { h with response := r })
  | .statusCheck codes =>
    if codes.contains h.response.status then pure (.ok (), h)
    else pure (.error (.unexpectedStatus h.response.status), h)
  | .reject status => pure (.error (.unexpectedStatus status), h)
  | .buffer => do
    let (result, r) ← h.response.bufferBody
    match result with
    | .ok content => do
      record (.buffered content)
      pure (.ok (), { h with response := r })
    | .error e => pure (.error (.body e), { h with response := r })
  | .keep i => do
    let (result, r) ← h.response.bufferBody
    match result with
    | .ok content => pure (.ok (), ⟨r, h.targets.set i (.content (Utf8.lossy content))⟩)
    | .error e => pure (.error (.body e), { h with response := r })
  | _ => pure (.ok (), h)

/-- Looks for a description by the service in a response that is not accepted. The body is read and
    closed, and a copy of it stays readable. A body of any other shape is left to the receiver. -/
def describeFailure (h : Handling) : Act (Except RespondError Unit × Handling) := do
  let (result, r) ← h.response.bufferBody
  let h := { h with response := r }
  match result with
  | .error e => pure (.error (.body e), h)
  | .ok content =>
    match ServiceError.ofBody? content with
    | some service => pure (.error (.service (.described r service)), h)
    | none => do
      log .debug ("Failure body for status " ++ r.status.text ++ " is not a service error")
      pure (.ok (), h)

/-- Wraps a responder in a step. -/
def RespondStep.decorate (step : RespondStep) (next : Responder) : Responder :=
  match step with
  | .ignoring => next
  | .closing => fun h => do
    let (result, h) ← next h
    let r ← h.response.closeBody
    pure (result, { h with response := r })
  | .serviceErrorUnless codes => fun h =>
    if codes.contains h.response.status then next h else describeFailure h
  | .probe name => fun h => do
    record (.handling name h.response.bodyIsOpen)
    let (result, h) ← next h
    record (.handled name h.response.bodyIsOpen (result matches .ok _))
    pure (result, h)
  | step => fun h => do
    let (result, h) ← step.act h
    match result with
    | .ok _ => next h
    | .error e => pure (.error e, h)

/-- Handles a response by steps, the first one outermost. -/
def respond (steps : List RespondStep) (h : Handling) : Act (Except RespondError Unit × Handling) :=
  steps.foldr RespondStep.decorate (fun h => pure (.ok (), h)) h

end Courier
