import Courier.CommandLine.Invocation
import Courier.Number.Decimal
import Courier.Settings.Basic
import Courier.Settings.File
import Courier.Text.Blank
import Courier.Url.Parser

set_option autoImplicit false

/-! # Putting settings together

For most settings the command line counts before the settings file, and the file before the default.
Headers of both sources are kept, and the later one of a name counts. Credentials come from one
source as a whole. Polling is on if either source turns it on.

Settings are checked in a fixed order, and the first that is refused is told. -/

namespace Courier

/-! ## Checks -/

/-- Refuses a value. -/
def refuseSetting {α : Type} (setting : Setting) (value : String) (reason : Unusable) :
    Except SettingsError α :=
  .error (.invalid setting value reason)

/-- A number of seconds that must not be zero. -/
def positiveSeconds (setting : Setting) (n : Nat) : Except SettingsError Duration :=
  if n = 0 then refuseSetting setting (toString n) .zero else .ok (.ofSeconds n)

/-- Status codes, each of which must be one. -/
def checkCodes (setting : Setting) (codes : List Nat) : Except SettingsError (List Status) :=
  codes.mapM fun n =>
    if Status.isCode n then .ok ⟨n⟩ else refuseSetting setting (toString n) .status

/-! ## Headers -/

/-- The name and the value of a header on the command line: what stands before and after the first
    equals sign, or before and after the first colon if there is no equals sign. -/
def splitHeader (text : String) : Except SettingsError (String × String) :=
  let cut (mark : Char) : Option (String × String) :=
    match text.toList.dropWhile (· ≠ mark) with
    | [] => none
    | _ :: value =>
      some (Blank.trim (String.ofList (text.toList.takeWhile (· ≠ mark))),
        Blank.trim (String.ofList value))
  match cut '=', cut ':' with
  | some parts, _ => .ok parts
  | none, some parts => .ok parts
  | none, none => refuseSetting .header text .headerForm

/-- Headers that are set one after another, and one more after them if a map has room for it. -/
def addHeader (room : HeaderRoom) (given : Array (HeaderName × HeaderValue)) (name value : String) :
    Except SettingsError (Array (HeaderName × HeaderValue)) :=
  match HeaderName.parse? name with
  | none => refuseSetting .header name .headerName
  | some n =>
    match HeaderValue.parse? value with
    | none => refuseSetting .header value (.headerValue name)
    | some v => if room given then .ok (given.push (n, v)) else .error (.crash .headersFull)

/-- The headers of a file and then those of the command line. -/
def mergeHeaders (room : HeaderRoom) (c : CommandLine) (file : Option SettingsFile) :
    Except SettingsError Headers := do
  let given ← match file with
    | none => pure #[]
    | some f =>
      f.request.headers.foldlM (fun given (name, value) => addHeader room given name value) #[]
  let given ← c.headers.foldlM (fun given text => do
    let (name, value) ← splitHeader text
    addHeader room given name value) given
  return Headers.setAll [] given.toList

/-! ## Other settings -/

/-- The address of the request. -/
def mergeUrl (c : CommandLine) (file : Option SettingsFile) : Except SettingsError Url :=
  match c.url.or (file.bind fun f => f.request.url) with
  | none => .error .missingUrl
  | some text =>
    match Url.parse text with
    | .ok url => .ok url
    | .error e => refuseSetting .url text (.url e)

/-- The method of the request, in capitals. -/
def mergeMethod (c : CommandLine) (file : Option SettingsFile) : Except SettingsError Method :=
  let name := (c.method.or (file.bind fun f => f.request.method)).getD defaultMethod
  match Method.parse? (name.map Char.toUpper) with
  | some m => .ok m
  | none => refuseSetting .method name .method

/-- The codes that are expected. -/
def mergeExpect (c : CommandLine) (file : Option SettingsFile) :
    Except SettingsError (List Status) :=
  let codes :=
    if !c.expect.isEmpty then c.expect
    else match file.filter fun f => !f.request.expect.isEmpty with
      | some f => f.request.expect
      | none => defaultExpectedCodes
  checkCodes .expectedStatus codes

/-- The credentials. A file must not give two of them if they count. -/
def mergeCredentials (c : CommandLine) (file : Option SettingsFile) :
    Except SettingsError Credentials :=
  match c.bearer, c.tokenFile, file with
  | some token, _, _ => .ok (.bearer token)
  | none, some path, _ => .ok (.tokenFile path)
  | none, none, none => .ok .absent
  | none, none, some f =>
    match f.auth.bearer, f.auth.tokenFile with
    | some _, some _ => .error .conflictingCredentials
    | some token, none => .ok (.bearer token)
    | none, some path => .ok (.tokenFile path)
    | none, none => .ok .absent

/-- How attempts are repeated. -/
def mergeRetry (c : CommandLine) (file : Option SettingsFile) :
    Except SettingsError RetryPolicy := do
  let retry := file.map fun f => f.retry
  let attempts := (c.retryMax.or (retry.bind fun r => r.maxAttempts)).getD defaultAttempts
  let initial :=
    (c.retryDelay.or (retry.bind fun r => r.initialDelay)).getD defaultInitialDelaySeconds
  let longest := (retry.bind fun r => r.maxDelay).getD defaultMaxDelaySeconds
  let multiplier := (retry.bind fun r => r.multiplier).getD defaultMultiplier
  if attempts = 0 then refuseSetting .retryAttempts (toString attempts) .zero
  let initialDelay ← positiveSeconds .retryDelay initial
  if multiplier.lt (.ofNat 1) || !multiplier.isFinite then
    refuseSetting .retryMultiplier (multiplier.text .plain) .multiplier
  if longest < initial then
    refuseSetting .retryMaxDelay (toString longest) (.belowInitialDelay initial)
  let policy := ((RetryPolicy.standard.withMaxAttempts attempts).withInitialDelay
    initialDelay).withMaxDelay (.ofSeconds longest)
  match policy.withMultiplier multiplier with
  | .ok policy => return policy
  | .error crash => throw (.crash crash)

/-- How operations are polled. -/
def mergePolling (c : CommandLine) (file : Option SettingsFile) :
    Except SettingsError PollingSettings := do
  let polling := file.map fun f => f.polling
  let enabled := c.poll || polling.any fun p => p.enabled
  let delay ← positiveSeconds .pollingDelay
    ((c.pollingDelay.or (polling.bind fun p => p.delay)).getD defaultPollingDelaySeconds)
  let duration ← positiveSeconds .pollingDuration
    ((c.pollingDuration.or (polling.bind fun p => p.duration)).getD defaultPollingDurationSeconds)
  let codes := match polling.map fun p => p.codes with
    | some codes => if codes.isEmpty then defaultPollingStatusCodes else codes
    | none => defaultPollingStatusCodes
  return ⟨enabled, delay, duration, ← checkCodes .pollingStatus codes⟩

/-! ## All settings -/

/-- The settings that the command line and a file, if there is one, amount to. Setting more headers
than there is room for ends the program. -/
def Settings.mergeWithin (room : HeaderRoom) (c : CommandLine) (file : Option SettingsFile) :
    Except SettingsError Settings := do
  let url ← mergeUrl c file
  let method ← mergeMethod c file
  let headers ← mergeHeaders room c file
  let expect ← mergeExpect c file
  let credentials ← mergeCredentials c file
  let retry ← mergeRetry c file
  let polling ← mergePolling c file
  return {
    url, method, headers, expect, credentials, retry, polling
    body := c.data.or (file.bind fun f => f.request.data)
    clientRequestId := c.clientRequestId.or (file.bind fun f => f.request.clientRequestId)
    verbose := c.verbose }

/-- The settings that the two sources amount to if there is room for all headers. -/
def Settings.merge (c : CommandLine) (file : Option SettingsFile) : Except SettingsError Settings :=
  Settings.mergeWithin .unlimited c file

/-- The settings that the command line amounts to with the settings file that it names. -/
def Settings.load (room : HeaderRoom) (c : CommandLine) (t : FileTree) :
    Except SettingsError Settings :=
  match c.config with
  | none => Settings.mergeWithin room c none
  | some path => (SettingsFile.load path t).bind fun file => Settings.mergeWithin room c (some file)

end Courier
