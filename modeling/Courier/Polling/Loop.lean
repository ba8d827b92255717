import Courier.Exchange.Send
import Courier.Polling.Operation

set_option autoImplicit false

/-! # Polling

An accepted operation is asked after until it has ended or a budget is used up. Each poll waits
first; then it goes to the location that the last response named, taken relative to where that
response came from. -/

namespace Courier

/-! ## The request of a poll -/

/-- Prepares a request and records what probes see. -/
def prepareIn (steps : List PrepareStep) (base : Request) : Act (Except PrepareError Request) := do
  let (result, probes) := (prepare steps base).outcome
  probes.forM fun probe => record (.prepared probe)
  pure result

/-- The request that asks after the operation which a response has accepted. The body of the
response is closed, whether or not there is such a request. -/
def pollingRequest (authorizer : PrepareStep) (cancellable : Bool) (r : Response) :
    Act (Except SendError Request × Response) := do
  let location := r.pollingLocation?
  let r ← r.closeBody
  match location with
  | none => pure (.error (.missingLocation r.status), r)
  | some url => do
    match ← prepareIn [.method .get, .baseUrl url, authorizer] Request.empty with
    | .ok request => pure (.ok { request with cancellable := cancellable }, r)
    | .error e => pure (.error (.prepare e), r)

/-- The request for the next poll, at a location relative to the one before. -/
def Request.follow (request : Request) (location : String) : Except PrepareError Request :=
  match Url.parseFrom request.url location with
  | .ok url => .ok { request with url := some url }
  | .error e => .error (.invalidUrl location e.message)

/-! ## The loop -/

/-- What stays the same from poll to poll. -/
structure PollingPlan where
  /-- The wait when a response asks for none. -/
  usualDelay : Duration
  budget : Budget
  codes : List Status

/-- Where a loop of polls stands. -/
structure Polling where
  /-- The number of polls so far. -/
  attempts : Nat
  /-- The wait before the next poll. -/
  delay : Duration
  request : Request
  /-- What the responses so far have told; there may have been none. -/
  progress : Option PollingState

/-- The progress after one more response. -/
def Polling.record (p : Polling) (plan : PollingPlan) (response : Response) : Act PollingState :=
  match p.progress with
  | some previous => previous.record response plan.usualDelay plan.codes
  | none => pure (.ofResponse response plan.usualDelay plan.codes)

/-- The request for the next poll, at the location that has been named last. -/
def PollingState.nextRequest (s : PollingState) (request : Request) : Except PrepareError Request :=
  match s.url with
  | some location => request.follow location
  | none => .ok request

/-- The log message about a poll that brought no response. -/
def Polling.failureMessage (p : Polling) (e : SendError) : String :=
  "Poll " ++ toString (p.attempts + 1) ++ " of " ++ p.request.urlText ++ " failed: " ++ e.message

/-- The log message about an operation that has ended. -/
def Polling.endMessage (p : Polling) (current : PollingState) : String :=
  "Operation at " ++ p.request.urlText ++ " finished: " ++ current.status.name

/-- The log message about an operation that goes on. -/
def Polling.pendingMessage (p : Polling) (current : PollingState) (next : Request) : String :=
  "Poll " ++ toString (p.attempts + 1) ++ ": operation still " ++ current.status.name ++
    ", next poll of " ++ next.urlText ++ " in " ++ current.delay.text

/-- What follows from a poll: it is the last one, or the loop goes on. -/
def Polling.after (p : Polling) (plan : PollingPlan) (start : Nat) :
    SendResult → Act (Polling ⊕ SendResult)
  | .error e => do
    let w ← get
    if e.isCancelled || plan.budget.isExhausted (p.attempts + 1) (w.clock - start) then
      pure (.inr (.error e))
    else
      log .debug (p.failureMessage e)
      let _ ← e.closeResponse
      pure (.inl { p with attempts := p.attempts + 1 })
  | .ok response => do
    let w ← get
    let current ← p.record plan response
    if current.status.isTerminal then
      log .debug (p.endMessage current)
      pure (.inr (.ok current.last))
    else if plan.budget.isExhausted (p.attempts + 1) (w.clock - start) then
      pure (.inr (.error (.rejection p.request current.last)))
    else
      match current.nextRequest p.request with
      | .error e =>
        current.last.drop
        pure (.inr (.error (.prepare e)))
      | .ok request =>
        log .debug (p.pendingMessage current request)
        let current ← current.closeResponse
        pure (.inl ⟨p.attempts + 1, current.delay, request, some current⟩)

/-- One poll after its wait, and what follows from it. -/
def pollTurn (sender : Sender) (plan : PollingPlan) (start : Nat) (p : Polling) :
    Run (Polling ⊕ SendResult) := do
  match ← pause p.delay p.request.cancellable with
  | .cancelled => pure (.inr (.error .cancelled))
  | .finished => do
    let result ← sender p.request
    p.after plan start result

/-- Polls within a plan, after a first wait. -/
def poll (sender : Sender) (plan : PollingPlan) (firstDelay : Duration) (request : Request) :
    Run SendResult := do
  let w ← get
  Run.iterate (pollTurn sender plan w.clock) ⟨0, firstDelay, request, none⟩

/-- Polls up to a number of times, of which there is at least one. -/
def pollForAttempts (sender : Sender) (request : Request) (delay : Duration) (attempts : Nat)
    (codes : List Status) : Run SendResult :=
  poll sender ⟨delay, .attempts (max attempts 1), codes⟩ delay request

/-- Polls until a span has passed. -/
def pollForDuration (sender : Sender) (request : Request) (delay span : Duration)
    (codes : List Status) : Run SendResult :=
  poll sender ⟨delay, .duration span, codes⟩ delay request

end Courier
