import Courier.Backoff
import Courier.Http.Headers
import Courier.Http.Method
import Courier.Http.Status
import Courier.Text.Quoted
import Courier.Url.Basic

set_option autoImplicit false

/-! # Settings

What the program has to know to send its request: the settings after the command line, the settings
file and the defaults have been put together and checked. -/

namespace Courier

/-! ## Parts -/

/-- Where credentials come from. -/
inductive Credentials
  | absent
  | bearer (token : String)
  /-- The path of a token file, which is read when the request is sent. -/
  | tokenFile (path : String)
  deriving DecidableEq

/-- The text of credentials; a token is not shown. -/
def Credentials.text : Credentials → String
  | .absent => "none"
  | .bearer _ => "bearer"
  | .tokenFile path => "token file " ++ path

/-- The text of credentials for messages to a developer; a token is not shown. -/
def Credentials.redacted : Credentials → String
  | .absent => "None"
  | .bearer _ => "Bearer(<redacted>)"
  | .tokenFile path => "TokenFile(" ++ quoted path ++ ")"

/-- How operations that go on are polled. -/
structure PollingSettings where
  enabled : Bool
  delay : Duration
  duration : Duration
  codes : List Status
  deriving DecidableEq

/-- The settings of a run. -/
structure Settings where
  url : Url
  method : Method
  headers : Headers
  body : Option String
  expect : List Status
  clientRequestId : Option String
  credentials : Credentials
  retry : RetryPolicy
  polling : PollingSettings
  verbose : Bool
  deriving DecidableEq

/-! ## Defaults -/

/-- The method of a request for which none is set. -/
def defaultMethod : String := "GET"

/-- The status codes that are accepted unless others are set. -/
def defaultExpectedCodes : List Nat := [200, 201, 202, 204]

/-- The status codes of operations that go on, unless others are set. -/
def defaultPollingStatusCodes : List Nat := [202]

/-- The number of attempts unless another one is set. -/
def defaultAttempts : Nat := 3

/-- The seconds before the first repetition unless others are set. -/
def defaultInitialDelaySeconds : Nat := 5

/-- The seconds of the longest delay unless others are set. -/
def defaultMaxDelaySeconds : Nat := 60

/-- The factor between delays unless another one is set. -/
def defaultMultiplier : Binary64 := Binary64.ofNat 2

/-- The seconds between polls unless others are set. -/
def defaultPollingDelaySeconds : Nat := 60

/-- The seconds that polling may take unless others are set. -/
def defaultPollingDurationSeconds : Nat := 900

/-! ## Text -/

/-- The settings in one line. -/
def Settings.text (s : Settings) : String :=
  let seconds (d : Duration) : String := toString (d.nanos / 1000000000) ++ "s"
  let polling :=
    if s.polling.enabled then
      "every " ++ seconds s.polling.delay ++ " for " ++ seconds s.polling.duration
    else "off"
  "Config \x7b " ++ s.method.name ++ " " ++ s.url.text ++ ", headers: " ++
    toString s.headers.length ++ ", body: " ++ toString ((s.body.map String.utf8ByteSize).getD 0) ++
    "B, auth: " ++ s.credentials.text ++ ", retry: " ++ toString s.retry.maxAttempts ++ "x/" ++
    seconds s.retry.initialDelay ++ ", polling: " ++ polling ++ " \x7d"

end Courier
