import Courier.Backoff
import Courier.Exchange.World

set_option autoImplicit false

/-! # Sending

A sender takes a request and brings its result. The transport is the innermost sender; send steps
wrap a sender in one behaviour each. The first step of a list is the outermost: it sees the request
first and the result last. -/

namespace Courier

/-- Something that sends a request. -/
abbrev Sender := Request → Run SendResult

/-! ## Transport -/

/-- The next reply of the service. -/
def nextReply : Act Reply := do
  let w ← get
  match w.script with
  | reply :: rest =>
    set { w with script := rest }
    pure reply
  | [] => pure w.fallback

/-- The result that an answer comes to. -/
def Answer.result : Answer → Act SendResult
  | .response status headers body => do
    let body ← match body with
      | none => pure none
      | some (kind, content) => do
        let b ← Body.make kind content
        pure (some b)
    pure (.ok ⟨status, headers, body⟩)
  | .timeout => pure (.error (.transport .timeout))
  | .connection reason => pure (.error (.transport (.connection [.plain reason])))
  | .invalidUrl reason => pure (.error (.transport (.invalidUrl reason)))

/-- The world with one more request; the caller may cancel while the service has it. -/
def World.countRequest (w : World) : World :=
  { w with
    sent := w.sent + 1
    cancelAt :=
      if w.cancelDuring = some w.sent ∧ w.cancelAt = none then some w.clock else w.cancelAt }

/-- Hands a request to the service and waits for its reply. -/
def transportAct (request : Request) : Act SendResult := do
  let w ← get
  record (.sent w.sent request w.isCancelled)
  modify World.countRequest
  let reply ← nextReply
  advanceTo (w.clock + reply.latencyMillis)
  reply.answer.result

/-- The innermost sender. -/
def transport : Sender := fun request => transportAct request

/-! ## Steps -/

/-- A behaviour around a sender. -/
inductive SendStep
  /-- Nothing. -/
  | asIs
  /-- Logs what is sent and what comes back. -/
  | logging (title : String)
  /-- Rejects responses with one of these codes. -/
  | errorIf (codes : List Status)
  /-- Rejects responses with none of these codes. -/
  | errorUnless (codes : List Status)
  /-- Closes the body that travels with an error. -/
  | closeIfError
  /-- Waits before sending. -/
  | afterDelay (delay : Duration)
  /-- Repeats attempts that fail, within a budget and with the delays of a policy. -/
  | retry (policy : RetryPolicy) (limit : Budget)
  /-- Records what passes. -/
  | probe (name : String)

/-- Repeats by a policy, as often as it allows. -/
def SendStep.retryPolicy (policy : RetryPolicy) : SendStep :=
  .retry policy (.attempts policy.maxAttempts)

/-- Repeats up to a number of attempts, of which there is at least one, with doubling delays. -/
def SendStep.retryAttempts (attempts : Nat) (backoff : Duration) : SendStep :=
  .retryPolicy ((RetryPolicy.exponential backoff).withMaxAttempts attempts)

/-- Repeats until a span has passed, with doubling delays. -/
def SendStep.retryDuration (span backoff : Duration) : SendStep :=
  .retry (RetryPolicy.exponential backoff) (.duration span)

/-- Logs a request and its result. -/
def logged (title : String) (next : Sender) : Sender := fun request => do
  let what := request.method.name ++ " " ++ request.urlText
  log .info (title ++ ": Sending " ++ what)
  let result ← next request
  match result with
  | .ok response => log .info (title ++ ": " ++ what ++ " received " ++ response.status.line)
  | .error e => log .info (title ++ ": " ++ what ++ " failed: " ++ e.message)
  pure result

/-- Rejects responses whose code is in a list, or whose code is not. -/
def checked (codes : List Status) (failOnMatch : Bool) (next : Sender) : Sender := fun request => do
  match ← next request with
  | .error e => pure (.error e)
  | .ok response =>
    if codes.contains response.status == failOnMatch then
      pure (.error (.rejection request response))
    else pure (.ok response)

/-- Closes the body that travels with an error. -/
def closing (next : Sender) : Sender := fun request => do
  match ← next request with
  | .ok response => pure (.ok response)
  | .error e => do
    let e ← e.closeResponse
    pure (.error e)

/-- Waits before sending. -/
def delayed (delay : Duration) (next : Sender) : Sender := fun request => do
  match ← pause delay request.cancellable with
  | .cancelled => pure (.error .cancelled)
  | .finished => next request

/-- Records a request and its result. -/
def probed (name : String) (next : Sender) : Sender := fun request => do
  record (.entered name)
  let result ← next request
  record (.left name (match result with
    | .ok response => .ok response.status
    | .error e => .error e.kind))
  pure result

/-- The log message about an attempt that is going to be repeated. -/
def retryMessage (request : Request) (attempt : Nat) (e : SendError) (delay : Duration) : String :=
  "Attempt " ++ toString attempt ++ " for " ++ request.method.name ++ " " ++ request.urlText ++
    " failed (" ++ e.message ++ "), retrying in " ++ delay.text

/-- What follows from an attempt: its result is the last one, or there is a wait and then one more
attempt. The body of a failed attempt is closed before the wait. `attempts` counts those before. -/
def retryAfter (policy : RetryPolicy) (limit : Budget) (request : Request) (start attempts : Nat) :
    SendResult → Act (Nat ⊕ SendResult)
  | .ok response => pure (.inr (.ok response))
  | .error e => do
    let w ← get
    if e.isCancelled || limit.isExhausted (attempts + 1) (w.clock - start) then
      pure (.inr (.error e))
    else
      let _ ← e.closeResponse
      let delay := policy.delayForRetry attempts
      log .debug (retryMessage request (attempts + 1) e delay)
      match ← pause delay request.cancellable with
      | .cancelled => pure (.inr (.error .cancelled))
      | .finished => pure (.inl (attempts + 1))

/-- One attempt and what follows from it. -/
def retryTurn (policy : RetryPolicy) (limit : Budget) (next : Sender) (request : Request)
    (start attempts : Nat) : Run (Nat ⊕ SendResult) := do
  let result ← next request
  retryAfter policy limit request start attempts result

/-- Sends again and again until an attempt succeeds, the caller cancels or the budget is used up. -/
def retried (policy : RetryPolicy) (limit : Budget) (next : Sender) : Sender := fun request => do
  let w ← get
  Run.iterate (retryTurn policy limit next request w.clock) 0

/-- Wraps a sender in a step. -/
def SendStep.decorate : SendStep → Sender → Sender
  | .asIs, next => next
  | .logging title, next => logged title next
  | .errorIf codes, next => checked codes true next
  | .errorUnless codes, next => checked codes false next
  | .closeIfError, next => closing next
  | .afterDelay delay, next => delayed delay next
  | .retry policy limit, next => retried policy limit next
  | .probe name, next => probed name next

/-- Wraps a sender in steps, the first one outermost. -/
def decorateSender (steps : List SendStep) (sender : Sender) : Sender :=
  steps.foldr SendStep.decorate sender

end Courier
