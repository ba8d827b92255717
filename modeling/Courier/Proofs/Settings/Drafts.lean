import Courier.Settings.Merge

set_option autoImplicit false

/-! # Drafts of settings

What the command line and a settings file say is first drafted: each setting counts from the command
line if it is given there, else from the file, else by its default. Each check reads its part of the
draft and nothing else of the two sources. -/

namespace Courier

/-! ## Drafts -/

/-- What the sources of settings amount to before anything of it is checked. -/
structure Draft where
  url : Option String
  method : String
  body : Option String
  expect : List Nat
  clientRequestId : Option String
  /-- None if a file names two that count. -/
  credentials : Option Credentials
  attempts : Nat
  initialDelay : Nat
  maxDelay : Nat
  multiplier : Binary64
  polls : Bool
  pollingDelay : Nat
  pollingDuration : Nat
  pollingCodes : List Nat
  verbose : Bool
  fileHeaders : List (String × String)
  lineHeaders : List String
  deriving DecidableEq

/-- The first of two lists, unless it is empty. -/
def orElseList (first second : List Nat) : List Nat := if first = [] then second else first

/-- The credentials that count: those of the command line, where a token counts before a file of
    tokens, or else those of the settings file. -/
def draftCredentials (c : CommandLine) (file : Option SettingsFile) : Option Credentials :=
  match c.bearer, c.tokenFile with
  | some token, _ => some (.bearer token)
  | none, some path => some (.tokenFile path)
  | none, none =>
    match file.bind fun f => f.auth.bearer, file.bind fun f => f.auth.tokenFile with
    | some _, some _ => none
    | some token, none => some (.bearer token)
    | none, some path => some (.tokenFile path)
    | none, none => some .absent

/-- The draft of settings: the command line if it gives a setting, else the file, else the
    default. -/
def Draft.of (c : CommandLine) (file : Option SettingsFile) : Draft where
  url := c.url.or (file.bind fun f => f.request.url)
  method := (c.method.or (file.bind fun f => f.request.method)).getD "GET"
  body := c.data.or (file.bind fun f => f.request.data)
  expect := orElseList c.expect
    (orElseList (file.elim [] fun f => f.request.expect) [200, 201, 202, 204])
  clientRequestId := c.clientRequestId.or (file.bind fun f => f.request.clientRequestId)
  credentials := draftCredentials c file
  attempts := (c.retryMax.or (file.bind fun f => f.retry.maxAttempts)).getD 3
  initialDelay := (c.retryDelay.or (file.bind fun f => f.retry.initialDelay)).getD 5
  maxDelay := (file.bind fun f => f.retry.maxDelay).getD 60
  multiplier := (file.bind fun f => f.retry.multiplier).getD (Binary64.ofNat 2)
  polls := c.poll || file.any fun f => f.polling.enabled
  pollingDelay := (c.pollingDelay.or (file.bind fun f => f.polling.delay)).getD 60
  pollingDuration := (c.pollingDuration.or (file.bind fun f => f.polling.duration)).getD 900
  pollingCodes := orElseList (file.elim [] fun f => f.polling.codes) [202]
  verbose := c.verbose
  fileHeaders := file.elim [] fun f => f.request.headers
  lineHeaders := c.headers

theorem orElseList_ne_nil {first second : List Nat} (h : second ≠ []) :
    orElseList first second ≠ [] := by
  unfold orElseList
  split
  · exact h
  · assumption

theorem Draft.expect_ne_nil (c : CommandLine) (file : Option SettingsFile) :
    (Draft.of c file).expect ≠ [] :=
  orElseList_ne_nil (orElseList_ne_nil (by simp))

theorem Draft.pollingCodes_ne_nil (c : CommandLine) (file : Option SettingsFile) :
    (Draft.of c file).pollingCodes ≠ [] :=
  orElseList_ne_nil (by simp)

/-! ## Nothing but the draft counts -/

section Sources

variable (c : CommandLine) (file : Option SettingsFile)

theorem mergeUrl_eq : mergeUrl c file =
    match (Draft.of c file).url with
    | none => .error .missingUrl
    | some text =>
      match Url.parse text with
      | .ok url => .ok url
      | .error e => .error (.invalid .url text (.url e)) := rfl

theorem mergeMethod_eq : mergeMethod c file =
    match Method.parse? ((Draft.of c file).method.map Char.toUpper) with
    | some m => .ok m
    | none => .error (.invalid .method (Draft.of c file).method .method) := rfl

theorem mergeHeaders_eq (room : HeaderRoom) : mergeHeaders room c file = (do
    let given ← (Draft.of c file).fileHeaders.foldlM
      (fun given parts => addHeader room given parts.1 parts.2) #[]
    let given ← (Draft.of c file).lineHeaders.foldlM (fun given text => do
      let parts ← splitHeader text
      addHeader room given parts.1 parts.2) given
    return Headers.setAll [] given.toList) := by
  cases file <;> rfl

theorem mergeExpect_eq :
    mergeExpect c file = checkCodes .expectedStatus (Draft.of c file).expect := by
  unfold mergeExpect Draft.of orElseList
  refine congrArg (checkCodes .expectedStatus) ?_
  cases c.expect with
  | cons => rfl
  | nil =>
    cases file with
    | none => rfl
    | some f => cases h : f.request.expect <;> simp [Option.filter, h, defaultExpectedCodes]

theorem mergeCredentials_eq : mergeCredentials c file =
    match (Draft.of c file).credentials with
    | none => .error .conflictingCredentials
    | some credentials => .ok credentials := by
  show _ = match draftCredentials c file with
    | none => _
    | some _ => _
  unfold mergeCredentials draftCredentials
  cases c.bearer with
  | some token => rfl
  | none =>
    cases c.tokenFile with
    | some path => rfl
    | none =>
      cases file with
      | none => rfl
      | some f =>
        dsimp only [Option.bind_some]
        cases f.auth.bearer <;> cases f.auth.tokenFile <;> rfl

theorem mergeRetry_eq : mergeRetry c file =
    let d := Draft.of c file
    if d.attempts = 0 then .error (.invalid .retryAttempts (toString d.attempts) .zero)
    else (positiveSeconds .retryDelay d.initialDelay).bind fun initialDelay =>
      if (d.multiplier.lt (.ofNat 1) || !d.multiplier.isFinite) = true then
        .error (.invalid .retryMultiplier (d.multiplier.text .plain) .multiplier)
      else if d.maxDelay < d.initialDelay then
        .error (.invalid .retryMaxDelay (toString d.maxDelay) (.belowInitialDelay d.initialDelay))
      else
        match (((RetryPolicy.standard.withMaxAttempts d.attempts).withInitialDelay
          initialDelay).withMaxDelay (.ofSeconds d.maxDelay)).withMultiplier d.multiplier with
        | .ok policy => .ok policy
        | .error crash => .error (.crash crash) := by
  have hattempts : (c.retryMax.or ((file.map fun f => f.retry).bind fun r => r.maxAttempts)).getD
      defaultAttempts = (Draft.of c file).attempts := by
    cases file <;> rfl
  have hinitial : (c.retryDelay.or ((file.map fun f => f.retry).bind fun r =>
      r.initialDelay)).getD defaultInitialDelaySeconds = (Draft.of c file).initialDelay := by
    cases file <;> rfl
  have hlongest : ((file.map fun f => f.retry).bind fun r => r.maxDelay).getD
      defaultMaxDelaySeconds = (Draft.of c file).maxDelay := by
    cases file <;> rfl
  have hmultiplier : ((file.map fun f => f.retry).bind fun r => r.multiplier).getD
      defaultMultiplier = (Draft.of c file).multiplier := by
    cases file <;> rfl
  unfold mergeRetry
  dsimp only
  rw [hattempts, hinitial, hlongest, hmultiplier]
  by_cases hzero : (Draft.of c file).attempts = 0
  · simp only [if_pos hzero]
    rfl
  · simp only [if_neg hzero]
    refine congrArg (Except.bind _) (funext fun initialDelay => ?_)
    split
    · rfl
    · split <;> rfl

theorem mergePolling_eq : mergePolling c file = (do
    let delay ← positiveSeconds .pollingDelay (Draft.of c file).pollingDelay
    let duration ← positiveSeconds .pollingDuration (Draft.of c file).pollingDuration
    let codes ← checkCodes .pollingStatus (Draft.of c file).pollingCodes
    return ⟨(Draft.of c file).polls, delay, duration, codes⟩) := by
  cases file with
  | none => rfl
  | some f =>
    have hcodes : (if f.polling.codes.isEmpty then defaultPollingStatusCodes
        else f.polling.codes) = orElseList f.polling.codes [202] := by
      cases f.polling.codes <;> rfl
    unfold mergePolling
    dsimp only [Option.map_some]
    rw [hcodes]
    rfl

variable {c file}

/-- Where drafts are the same, so is the outcome. -/
theorem merge_of_draft_eq (room : HeaderRoom) {c' : CommandLine} {file' : Option SettingsFile}
    (h : Draft.of c' file' = Draft.of c file) :
    Settings.mergeWithin room c' file' = Settings.mergeWithin room c file := by
  have hbody : c'.data.or (file'.bind fun f => f.request.data) =
      c.data.or (file.bind fun f => f.request.data) := congrArg Draft.body h
  have hid : c'.clientRequestId.or (file'.bind fun f => f.request.clientRequestId) =
      c.clientRequestId.or (file.bind fun f => f.request.clientRequestId) :=
    congrArg Draft.clientRequestId h
  have hverbose : c'.verbose = c.verbose := congrArg Draft.verbose h
  unfold Settings.mergeWithin
  rw [mergeUrl_eq, mergeMethod_eq, mergeHeaders_eq, mergeExpect_eq, mergeCredentials_eq,
    mergeRetry_eq, mergePolling_eq, h, hbody, hid, hverbose, ← mergeUrl_eq, ← mergeMethod_eq,
    ← mergeHeaders_eq, ← mergeExpect_eq, ← mergeCredentials_eq, ← mergeRetry_eq, ← mergePolling_eq]

/-- No settings file is the same as one that says nothing. -/
theorem Draft.of_none (c : CommandLine) : Draft.of c none = Draft.of c (some .empty) := rfl

end Sources

end Courier
