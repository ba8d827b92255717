import Courier.Polling.Loop

set_option autoImplicit false

/-! # Sessions

A session holds what all requests to a service have in common: credentials, the name of the program,
steps that look over every request, and the budgets for repeating and polling. -/

namespace Courier

/-- A session. -/
structure Session where
  authorizer : PrepareStep
  userAgent : String
  inspectors : List PrepareStep
  retryAttempts : Nat
  retryBackoff : Duration
  pollingDelay : Duration
  pollingDuration : Duration
  pollingCodes : List Status

/-- The name under which the program presents itself. -/
def defaultUserAgent : String := "restwire/0.1.0"

/-- A session with the usual settings and without credentials. -/
def Session.standard : Session :=
  ⟨.asIs, defaultUserAgent, [], 3, .ofSeconds 30, defaultPollingDelay, defaultPollingDuration,
    defaultPollingCodes⟩

/-- The settings of a session in one line; credentials are not shown. -/
def Session.text (s : Session) : String :=
  let codes := String.intercalate ", " (s.pollingCodes.map fun c => toString c.code)
  "Client \x7b user_agent: " ++ quoted s.userAgent ++ ", request_inspectors: " ++
    toString s.inspectors.length ++ ", retry_attempts: " ++ toString s.retryAttempts ++
    ", retry_backoff: " ++ s.retryBackoff.text ++ ", polling_delay: " ++ s.pollingDelay.text ++
    ", polling_duration: " ++ s.pollingDuration.text ++ ", polling_codes: [" ++ codes ++
    "], .. \x7d"

/-! ## Preparing -/

/-- The steps that put the program's name on a request and look it over. -/
def Session.inspection (s : Session) : List PrepareStep :=
  .header "user-agent" s.userAgent :: s.inspectors

/-- Puts the program's name on a request and looks it over. -/
def Session.inspect (s : Session) (request : Request) : Act (Except PrepareError Request) :=
  prepareIn s.inspection request

/-- Adds credentials and the program's name, and looks a request over. -/
def Session.prepareRequest (s : Session) (request : Request) :
    Act (Except PrepareError Request) := do
  match ← prepareIn [s.authorizer] request with
  | .ok request => s.inspect request
  | .error e => pure (.error e)

/-! ## Sending -/

/-- Prepares a request and sends it through steps around a sender. -/
def Session.send (s : Session) (sender : Sender) (request : Request) (steps : List SendStep) :
    Run SendResult := do
  match ← s.prepareRequest request with
  | .ok request => decorateSender steps sender request
  | .error e => pure (.error (.prepare e))

/-- Whether a response says that its operation goes on. -/
def Session.shouldPoll (s : Session) (r : Response) : Bool := r.requiresPolling s.pollingCodes

/-- Polls the operation that a response has accepted; a response that asks for no polling is the
    result itself. The first wait is the one that the response asks for. -/
def Session.pollAsNeeded (s : Session) (sender : Sender) (r : Response) (cancellable : Bool) :
    Run SendResult := do
  if !s.shouldPoll r then pure (.ok r)
  else
    let firstDelay := r.pollingDelay s.pollingDelay
    match ← liftM (pollingRequest s.authorizer cancellable r) with
    | (.error e, _) => pure (.error e)
    | (.ok request, _) =>
      match ← s.inspect request with
      | .error e => pure (.error (.prepare e))
      | .ok request =>
        poll sender ⟨s.pollingDelay, .duration s.pollingDuration, s.pollingCodes⟩ firstDelay request

/-- Sends a request, again if it fails, and polls if its operation goes on. -/
def Session.execute (s : Session) (sender : Sender) (request : Request) : Run SendResult := do
  match ← s.send sender request [.retryAttempts s.retryAttempts s.retryBackoff] with
  | .ok response => s.pollAsNeeded sender response request.cancellable
  | .error e => pure (.error e)

end Courier
