import Courier.Respond.Step
import Courier.Service.TokenFile
import Courier.Session
import Courier.Settings.Basic

set_option autoImplicit false

/-! # Performing a request

A run turns settings into a request, sends it with repeated attempts, follows the operation that it
may have begun, and judges the last response. It comes to the text of the body if the status is one
of the expected ones, and to an error otherwise. -/

namespace Courier

/-! ## Errors -/

/-- Why a run brings no text, or why its text does not get anywhere. -/
inductive RunError
  | token (e : TokenError)
  | prepare (e : PrepareError)
  | send (e : SendError)
  | respond (e : RespondError)
  /-- The status is not expected, and the body does not describe a failure. -/
  | unexpectedStatus (status : Status) (body : String)
  /-- The text cannot be printed. -/
  | output (e : IoError)

/-- The wording of an error. -/
def RunError.message : RunError → String
  | .token e => "Failed to load token: " ++ e.message
  | .prepare e => "Failed to prepare request: " ++ e.message
  | .send e => "Request failed: " ++ e.message
  | .respond e => e.message
  | .unexpectedStatus status body =>
    "Unexpected response status " ++ status.text ++ ": " ++ body
  | .output e => "Failed to write response body: " ++ e.message

/-- The chain that an error begins. Nothing can be recognised of the error itself. One that stands
for a respond error goes on with the causes of that. -/
def RunError.chain (e : RunError) : FailureChain :=
  .plain e.message :: match e with
    | .token e => e.chain
    | .prepare e => .plain e.message :: e.causes.map .plain
    | .send e => e.chain
    | .respond e => e.chain.drop 1
    | .unexpectedStatus _ _ => []
    | .output e => e.chain

/-- What a run comes to. -/
abbrev RunResult := Except RunError String

/-- Lets go of what a run has come to. -/
def RunResult.drop : RunResult → Act Unit
  | .error (.send e) => e.drop
  | _ => pure ()

/-! ## Preparation -/

/-- The codes after which another attempt is worth while. -/
def retryableCodes : List Status := [⟨408⟩, ⟨429⟩, ⟨500⟩, ⟨502⟩, ⟨503⟩, ⟨504⟩]

/-- The title of the log messages about requests. -/
def runTitle : String := "restwire"

/-- The step that adds credentials. A token file is loaded now; a token that has expired is used all
the same. -/
def Credentials.authorizer (c : Credentials) (files : FileTree) (now : Instant) :
    Act (Except TokenError PrepareStep) :=
  match c with
  | .absent => pure (.ok .asIs)
  | .bearer token => pure (.ok (.bearer token))
  | .tokenFile path =>
    match Token.load path files with
    | .error e => pure (.error e)
    | .ok token => do
      match token.isExpired now with
      | .ok true => log .warn ("Token in " ++ path ++ " has expired, the service may reject it")
      | _ => pure ()
      pure (.ok token.authorize)

/-- The session of a run. -/
def Settings.session (s : Settings) (authorizer : PrepareStep) : Session :=
  { Session.standard with
    authorizer
    pollingDelay := s.polling.delay
    pollingDuration := s.polling.duration
    pollingCodes := s.polling.codes
    inspectors := (s.clientRequestId.map PrepareStep.returningClientId).toList }

/-- The steps that make the request of a run. -/
def Settings.requestSteps (s : Settings) : List PrepareStep :=
  [.method s.method, .baseUrl s.url.text] ++
    (s.body.map fun text => PrepareStep.body (Utf8.encode text)).toList

/-- The request of a run before it is made. -/
def Settings.draftRequest (s : Settings) : Request :=
  { Request.empty with headers := s.headers, cancellable := true }

/-- The request of a run. -/
def Settings.request (s : Settings) : Act (Except PrepareError Request) :=
  prepareIn s.requestSteps s.draftRequest

/-- The step that adds credentials, if they can be had. -/
def Credentials.step? (c : Credentials) (files : FileTree) : Option PrepareStep :=
  match c with
  | .absent => some .asIs
  | .bearer token => some (.bearer token)
  | .tokenFile path => (Token.load path files).toOption.map Token.authorize

/-- Whether the request of a run is given a header that it has no room for. -/
def Settings.crowds (s : Settings) (room : HeaderRoom) (files : FileTree) : Bool :=
  match s.credentials.step? files with
  | none => false
  | some authorizer =>
    let steps := s.requestSteps ++ authorizer :: (s.session authorizer).inspection
    Courier.crowds room (steps.flatMap PrepareStep.parts) s.draftRequest

/-! ## Judgement -/

/-- Logs what a response says of itself. -/
def logIdentity (r : Response) : Act Unit := do
  match (r.header? "date").bind fun text => (Instant.parseHttpDate text).toOption with
  | some date => log .debug ("Server date: " ++ date.httpDateText)
  | none => pure ()
  match r.requestId? with
  | some id => log .debug ("Request id: " ++ id)
  | none => pure ()
  match r.clientId? with
  | some id => log .debug ("Client request id: " ++ id)
  | none => pure ()

/-- The text that a target has kept. -/
def Target.content? : Target → Option String
  | .content text => some text
  | _ => none

/-- Reads the body of the last response, closes it, and judges it by its status. -/
def judge (expect : List Status) (r : Response) : Act (RunResult × Response) := do
  let (result, h) ← respond [.closing, .serviceErrorUnless expect, .keep 0] ⟨r, [.content ""]⟩
  match result with
  | .error e => pure (.error (.respond e), h.response)
  | .ok _ =>
    if expect.contains h.response.status then
      pure (.ok ((h.targets.head?.bind Target.content?).getD ""), h.response)
    else do
      let (content, r) ← h.response.bufferBody
      match content with
      | .error e => pure (.error (.respond (.body e)), r)
      | .ok content => pure (.error (.unexpectedStatus r.status (Utf8.lossy content)), r)

/-! ## Runs -/

/-- Polls the operation that a response has begun, if polling is on. -/
def Settings.follow (s : Settings) (session : Session) (sender : Sender) (r : Response) :
    Run SendResult :=
  if s.polling.enabled then session.pollAsNeeded sender r true else pure (.ok r)

/-- Sends the request of a run in a session. A response with a code that was worth another attempt
counts when there is none left. -/
def Settings.sendIn (s : Settings) (session : Session) (sender : Sender) (request : Request) :
    Run SendResult := do
  let steps := [.retryPolicy s.retry, .logging runTitle, .errorIf retryableCodes]
  match ← session.send sender request steps with
  | .ok response => s.follow session sender response
  | .error (.unexpectedStatus _ _ _ response) => s.follow session sender response
  | .error e => pure (.error e)

/-- Performs the request that settings describe. -/
def perform (s : Settings) (files : FileTree) (now : Instant) (sender : Sender) :
    Run RunResult := do
  match ← liftM (s.credentials.authorizer files now) with
  | .error e => pure (.error (.token e))
  | .ok authorizer =>
    match ← liftM s.request with
    | .error e => pure (.error (.prepare e))
    | .ok request =>
      match ← s.sendIn (s.session authorizer) sender request with
      | .error e => pure (.error (.send e))
      | .ok response => do
        logIdentity response
        let (result, response) ← liftM (judge s.expect response)
        response.drop
        pure result

end Courier
