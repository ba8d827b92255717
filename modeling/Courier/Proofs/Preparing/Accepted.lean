import Courier.Proofs.Judgement.Runs
import Courier.Proofs.Settings.Merging
import Courier.Proofs.Url.Rereading

set_option autoImplicit false

/-! # Runs of accepted settings

Settings are accepted once, and a run makes its request of them later. The address has been read
and can be read again, the method has been read, and all headers of the settings are held as
headers. But two texts become headers only when the request is prepared: the token and the client's
id. So a run of accepted settings sends its first request exactly if these two are values of
headers. -/

namespace Courier

/-! ## Headers that are added -/

/-- Whether the value of a header is none. -/
def isUnfit (header : String × String) : Bool := (HeaderValue.parse? header.2).isNone

/-- The steps that add headers. -/
def headerSteps (headers : List (String × String)) : List PrepareStep :=
  headers.map fun header => .header header.1 header.2

theorem PrepareStep.makes_header {name : String} {n : HeaderName}
    (hname : HeaderName.parse? name = some n) (value : String) (r : Request) :
    (PrepareStep.header name value).makes r = match HeaderValue.parse? value with
      | some v => .ok { r with headers := r.headers.set n v }
      | none => .error (.invalidHeaderValue name) := by
  rw [PrepareStep.makes_eq_act (by simp)]
  dsimp only [PrepareStep.act]
  rw [hname]
  cases HeaderValue.parse? value <;> rfl

/-- Headers are added one after another, up to the first with a value that is none. -/
theorem prepared_headerSteps {headers : List (String × String)}
    (hnames : ∀ header ∈ headers, (HeaderName.parse? header.1).isSome = true) (r : Request) :
    (headers.find? isUnfit = none → ∃ r', prepared (headerSteps headers) r = .ok r') ∧
    ∀ header, headers.find? isUnfit = some header →
      prepared (headerSteps headers) r = .error (.invalidHeaderValue header.1) := by
  induction headers generalizing r with
  | nil => exact ⟨fun _ => ⟨r, rfl⟩, fun header h => absurd h (by simp)⟩
  | cons first rest ih =>
    obtain ⟨hname, hrest⟩ := List.forall_mem_cons.1 hnames
    obtain ⟨n, hn⟩ := Option.isSome_iff_exists.1 hname
    have hstep := PrepareStep.makes_header hn first.2 r
    rw [headerSteps, List.map_cons, prepared_cons, List.find?_cons]
    cases hv : HeaderValue.parse? first.2 with
    | none =>
      rw [hv] at hstep
      rw [hstep]
      simp only [isUnfit, hv, Option.isNone_none]
      exact ⟨fun h => absurd h (by simp), fun header h => by rw [← Option.some.inj h]; rfl⟩
    | some v =>
      rw [hv] at hstep
      rw [hstep]
      simp only [isUnfit, hv, Option.isNone_some]
      exact ih hrest _

/-! ## What a session adds -/

/-- The headers that a run adds to its request as settings have them: the token and the client's
id. -/
def Settings.addedHeaders (s : Settings) : List (String × String) :=
  (match s.credentials with
    | .bearer token => [("authorization", "Bearer " ++ token)]
    | _ => []) ++
  (s.clientRequestId.map fun id => (HeaderName.clientId, id)).toList

/-- The name of the first header that a run cannot add, if there is one. -/
def Settings.unsendable? (s : Settings) : Option String :=
  (s.addedHeaders.find? isUnfit).map Prod.fst

/-- The step that adds credentials that are no file. -/
inductive Credentials.Adds : Credentials → PrepareStep → Prop
  | absent : Adds .absent .asIs
  | bearer (token : String) : Adds (.bearer token) (.bearer token)

/-- All headers that a session adds, among them those that are always the same. -/
def Settings.sessionHeaders (s : Settings) : List (String × String) :=
  (match s.credentials with
    | .bearer token => [("authorization", "Bearer " ++ token)]
    | _ => []) ++
  ("user-agent", defaultUserAgent) ::
    match s.clientRequestId with
    | some id => [(HeaderName.clientId, id), (HeaderName.returnClientId, "true")]
    | none => []

theorem Settings.find?_sessionHeaders (s : Settings) :
    s.sessionHeaders.find? isUnfit = s.addedHeaders.find? isUnfit := by
  have hagent : isUnfit ("user-agent", defaultUserAgent) = false := by decide +kernel
  have hreturn : isUnfit (HeaderName.returnClientId, "true") = false := by decide +kernel
  unfold Settings.sessionHeaders Settings.addedHeaders
  rw [List.find?_append, List.find?_append, List.find?_cons, hagent]
  cases s.clientRequestId with
  | none => rfl
  | some id => simp [List.find?_cons, hreturn]

theorem prepared_both (first second : PrepareStep) (rest : List PrepareStep) (r : Request) :
    prepared (.both first second :: rest) r = prepared (first :: second :: rest) r := by
  rw [prepared_cons, PrepareStep.makes_both, prepared_cons]
  cases first.makes r with
  | error e => rfl
  | ok r' => exact (prepared_cons second rest r').symm

theorem Settings.prepared_session {s : Settings} {step : PrepareStep}
    (h : s.credentials.Adds step) (r : Request) :
    prepared (s.session step).steps r = prepared (headerSteps s.sessionHeaders) r := by
  have hagent : ∀ r, prepared (.header "user-agent" defaultUserAgent ::
      (s.clientRequestId.map PrepareStep.returningClientId).toList) r =
        prepared (headerSteps (("user-agent", defaultUserAgent) :: match s.clientRequestId with
          | some id => [(HeaderName.clientId, id), (HeaderName.returnClientId, "true")]
          | none => [])) r := by
    intro r
    cases s.clientRequestId with
    | none => rfl
    | some id =>
      rw [headerSteps, List.map_cons, prepared_cons, prepared_cons]
      refine congrArg _ (funext fun r' => ?_)
      exact prepared_both _ _ [] r'
  unfold Settings.sessionHeaders
  generalize hcredentials : s.credentials = credentials at h
  cases h with
  | absent => exact (prepared_cons _ _ r).trans (hagent r)
  | bearer token =>
    rw [List.singleton_append, headerSteps, List.map_cons, prepared_cons]
    exact (prepared_cons _ _ r).trans (congrArg _ (funext hagent))

theorem Settings.isSome_sessionHeaders (s : Settings) :
    ∀ header ∈ s.sessionHeaders, (HeaderName.parse? header.1).isSome = true := by
  have hall : ∀ name ∈ ["authorization", "user-agent", HeaderName.clientId,
      HeaderName.returnClientId], (HeaderName.parse? name).isSome = true := by
    decide +kernel
  intro header h
  refine hall header.1 ?_
  unfold Settings.sessionHeaders at h
  rcases List.mem_append.1 h with h | h
  · split at h
    · simp [List.mem_singleton.1 h]
    · exact absurd h (by simp)
  · rcases List.mem_cons.1 h with rfl | h
    · simp
    · split at h
      · rcases List.mem_cons.1 h with rfl | h
        · simp
        · simp [List.mem_singleton.1 h]
      · exact absurd h (by simp)

/-- A session prepares a request unless there is a header that it cannot add. -/
theorem Settings.prepared_session_cases {s : Settings} {step : PrepareStep}
    (h : s.credentials.Adds step) (r : Request) :
    (s.unsendable? = none → ∃ r', prepared (s.session step).steps r = .ok r') ∧
    ∀ name, s.unsendable? = some name →
      prepared (s.session step).steps r = .error (.invalidHeaderValue name) := by
  obtain ⟨hok, herror⟩ := prepared_headerSteps s.isSome_sessionHeaders r
  rw [← Settings.prepared_session h, s.find?_sessionHeaders] at hok
  constructor
  · exact fun hnone => hok (Option.map_eq_none_iff.1 hnone)
  · intro name hname
    obtain ⟨header, hheader, rfl⟩ := Option.map_eq_some_iff.1 hname
    rw [Settings.prepared_session h]
    exact herror header (s.find?_sessionHeaders.trans hheader)

/-! ## The request -/

/-- The request of a run as the settings have it, with the URL that its address is read as. -/
def Settings.plainRequest (s : Settings) (u : Url) : Request :=
  ⟨s.method, some u, s.headers, s.body.map Utf8.encode, true⟩

/-- The request of a run can be made if its address can be read again. -/
theorem Settings.request_fst {s : Settings} {u : Url} (h : Url.parse s.url.text = .ok u)
    (w : World) : (s.request w).1 = .ok (s.plainRequest u) := by
  have hurl : ∀ r : Request, (PrepareStep.baseUrl s.url.text).makes r =
      .ok { r with url := some u } := by
    intro r
    rw [PrepareStep.makes_eq_act (by simp)]
    dsimp only [PrepareStep.act]
    rw [h]
    rfl
  unfold Settings.request Settings.requestSteps Settings.draftRequest Settings.plainRequest
  rw [prepareIn_fst, List.cons_append, List.cons_append, List.nil_append, prepared_cons]
  show prepared (_ :: _) _ = _
  rw [prepared_cons, hurl]
  cases s.body with
  | none => rfl
  | some text =>
    show prepared [_] _ = _
    rw [prepared_cons]
    rfl

/-- The address of accepted settings has been read, so it can be read again. -/
theorem exists_parse_url_text {c : CommandLine} {file : Option SettingsFile} {s : Settings}
    (h : Settings.merge c file = .ok s) : ∃ u, Url.parse s.url.text = .ok u := by
  obtain ⟨text, -, hparse⟩ := ((Settings.merge_decides c file).describes h).url
  exact Url.exists_parse_text hparse

/-! ## The first exchange -/

/-- Whether every call of a sender that comes back has sent a request. -/
def Sender.Sends (next : Sender) : Prop :=
  ∀ request w result w', next request w = some (result, w') → w.sent < w'.sent

theorem transport_sends : Sender.Sends transport := by
  intro request w result w' hrun
  rw [transport_apply] at hrun
  obtain ⟨-, rfl⟩ := Prod.mk.inj (Option.some.inj hrun)
  exact Nat.lt_succ_self w.sent

theorem World.Writes.sent {w w' : World} (h : w.Writes w') : w'.sent = w.sent := by
  rw [h.eq]

theorem World.steady_sent (n : Nat) : World.Steady fun w => n ≤ w.sent where
  write h hw := by
    rw [h.sent]
    exact hw
  clock _ hw := hw

theorem Sender.Sends.keeps {next : Sender} (h : next.Sends) (n : Nat) :
    Sender.Keeps (fun _ => True) (fun w => n ≤ w.sent) (fun _ => True) next :=
  fun request w result w' _ hw hrun =>
    ⟨Nat.le_trans hw (Nat.le_of_lt (h request w result w' hrun)), fun _ _ => trivial⟩

/-- The first attempt goes out at once, whatever becomes of it. -/
theorem Sender.Sends.retried {next : Sender} (h : next.Sends) (policy : RetryPolicy)
    (limit : Budget) : (Courier.retried policy limit next).Sends := by
  intro request w result w' hrun
  refine Run.iterate_keeps (fun _ v => w.sent ≤ v.sent) (fun _ w' => w.sent < w'.sent) ?_ ?_
    (Nat.le_refl _) hrun
  · intro n v n' v' hv hturn
    cases retryTurn_eq_some_iff.1 hturn with
    | again called goes waited =>
      have hback := Nat.le_trans hv (Nat.le_of_lt (h _ _ _ _ called))
      exact (World.steady_sent w.sent).pause waited
        ((World.steady_sent w.sent).write (World.writes_putsAway ..) hback)
  · intro n v answer v' hv hturn
    cases retryTurn_eq_some_iff.1 hturn with
    | last called ends => exact Nat.lt_of_le_of_lt hv (h _ _ _ _ called)
    | interrupted called goes waited =>
      have hback := Nat.lt_of_le_of_lt hv (h _ _ _ _ called)
      exact (World.steady_sent (w.sent + 1)).pause waited
        ((World.steady_sent (w.sent + 1)).write (World.writes_putsAway ..) hback)

theorem Sender.Sends.logged {next : Sender} (h : next.Sends) (title : String) :
    (Courier.logged title next).Sends := by
  intro request w result w' hrun
  obtain ⟨v, hnext, rfl⟩ := logged_eq_some_iff.1 hrun
  have hsent := h _ _ _ _ hnext
  exact hsent

theorem Sender.Sends.checked {next : Sender} (h : next.Sends) (codes : List Status)
    (failOnMatch : Bool) : (Courier.checked codes failOnMatch next).Sends := by
  intro request w result w' hrun
  obtain ⟨answer, hnext, -⟩ := checked_eq_some_iff.1 hrun
  exact h _ _ _ _ hnext

theorem Settings.attempts_sends (s : Settings) : (s.attempts transport).Sends :=
  ((transport_sends.checked retryableCodes true).logged runTitle).retried s.retry
    (.attempts s.retry.maxAttempts)

theorem Settings.follow_keeps_sent {s : Settings} {session : Session} {r : Response} {w w' : World}
    {result : SendResult} (hrun : s.follow session transport r w = some (result, w')) :
    w.sent ≤ w'.sent := by
  rw [s.follow_eq] at hrun
  unfold Settings.followed at hrun
  split at hrun
  · exact ((transport_sends.keeps w.sent).pollAsNeeded (World.steady_sent w.sent) session
      (Nat.le_refl _) trivial hrun).1
  · obtain ⟨-, rfl⟩ := Prod.mk.inj (Option.some.inj hrun)
    exact Nat.le_refl _

/-! ## Runs -/

theorem Settings.conclude_ne_prepare (s : Settings) (answer : SendResult) (w : World) :
    ∀ e, (s.conclude answer w).1 ≠ .error (.prepare e) := by
  intro e h
  cases answer with
  | error e' => exact absurd (show Except.error (RunError.send e') = _ from h) (by simp)
  | ok r =>
    have hverdict := s.conclude_verdict r w
    rw [h] at hverdict
    cases hverdict

section Runs

variable (files : FileTree) (now : Instant) {s : Settings} {step : PrepareStep} {u : Url}

theorem Credentials.Adds.authorizer {credentials : Credentials} (h : credentials.Adds step)
    (w : World) : credentials.authorizer files now w = (.ok step, w) := by
  cases h <;> rfl

/-- A run that has loaded its credentials gets as far as preparing its request in a session, and
nothing is sent by then. -/
theorem perform_prepares {w x : World}
    (loads : s.credentials.authorizer files now w = (.ok step, x))
    (hurl : Url.parse s.url.text = .ok u) :
    ∃ v, w.Writes v ∧ perform s files now transport w =
      match prepared (s.session step).steps (s.plainRequest u) with
      | .error e => some (.error (.send (.prepare e)), v)
      | .ok request => ((s.attempts transport request v).bind fun p =>
        match SendResult.response? p.1 with
        | some r => s.follow (s.session step) transport r p.2
        | none => some p).map fun p => s.conclude p.1 p.2 := by
  have hloads := s.credentials.authorizer_onlyWrites files now w
  have hrequest := s.request_fst hurl x
  have hasked := s.request_onlyWrites x
  rw [loads] at hloads
  rw [perform_apply, loads]
  dsimp only
  cases ha : s.request x with
  | mk asked y =>
    rw [ha] at hrequest hasked
    obtain rfl : asked = .ok (s.plainRequest u) := hrequest
    have houtcome := (s.session step).prepareRequest_fst (s.plainRequest u) y
    have hdressed := (s.session step).prepareRequest_onlyWrites (s.plainRequest u) y
    dsimp only
    rw [s.sendIn_apply]
    cases hp : (s.session step).prepareRequest (s.plainRequest u) y with
    | mk outcome v =>
      rw [hp] at houtcome hdressed
      refine ⟨v, (hloads.trans hasked).trans hdressed, ?_⟩
      rw [← houtcome]
      cases outcome <;> rfl

/-- A run that can add its headers sends its request. -/
theorem perform_sends (h : s.credentials.Adds step) (hurl : Url.parse s.url.text = .ok u)
    (hfit : s.unsendable? = none) {w w' : World} {result : RunResult}
    (hrun : perform s files now transport w = some (result, w')) :
    w.sent < w'.sent ∧ ∀ e, result ≠ .error (.prepare e) := by
  obtain ⟨v, hwrites, hperform⟩ := perform_prepares files now (h.authorizer files now w) hurl
  obtain ⟨r', hr'⟩ := (s.prepared_session_cases h (s.plainRequest u)).1 hfit
  rw [hr'] at hperform
  rw [hperform] at hrun
  obtain ⟨⟨answer, y⟩, hexchanges, hconclude⟩ := Option.map_eq_some_iff.1 hrun
  obtain ⟨⟨last, x⟩, hattempts, hrest⟩ := Option.bind_eq_some_iff.1 hexchanges
  -- The first attempt sends the request; what follows can only send more.
  have hfirst : v.sent < x.sent := s.attempts_sends _ _ _ _ hattempts
  have hfollows : x.sent ≤ y.sent := by
    dsimp only at hrest
    split at hrest
    · exact Settings.follow_keeps_sent hrest
    · exact Nat.le_of_eq (congrArg World.sent (Prod.mk.inj (Option.some.inj hrest)).2)
  have hends := (s.conclude_onlyWrites answer y).sent
  have hresult := s.conclude_ne_prepare answer y
  dsimp only at hconclude
  rw [hconclude] at hends hresult
  refine ⟨?_, hresult⟩
  rw [← hwrites.sent, hends]
  exact Nat.lt_of_lt_of_le hfirst hfollows

/-- A run that cannot add a header tells of it and sends nothing. -/
theorem perform_unsendable (h : s.credentials.Adds step) (hurl : Url.parse s.url.text = .ok u)
    {name : String} (hunfit : s.unsendable? = some name) (w : World) :
    ∃ w', perform s files now transport w =
      some (.error (.send (.prepare (.invalidHeaderValue name))), w') ∧ w'.sent = w.sent := by
  obtain ⟨v, hwrites, hperform⟩ := perform_prepares files now (h.authorizer files now w) hurl
  rw [(s.prepared_session_cases h (s.plainRequest u)).2 name hunfit] at hperform
  exact ⟨v, hperform, hwrites.sent⟩

/-- A run without polls comes to an end. -/
theorem perform_isSome (h : s.credentials.Adds step) (hurl : Url.parse s.url.text = .ok u)
    (hpolls : s.polling.enabled = false) (w : World) :
    (perform s files now transport w).isSome = true := by
  obtain ⟨v, -, hperform⟩ := perform_prepares files now (h.authorizer files now w) hurl
  rw [hperform]
  cases prepared (s.session step).steps (s.plainRequest u) with
  | error e => rfl
  | ok r =>
    obtain ⟨⟨last, x⟩, hlast⟩ := Option.isSome_iff_exists.1 (s.attempts_isSome r v)
    dsimp only
    rw [hlast]
    simp only [Option.bind_some, Option.isSome_map]
    split
    · next answer _ =>
      rw [s.follow_eq, Settings.followed, if_neg (by simp [hpolls])]
      rfl
    · rfl

end Runs

/-- **Accepted settings can be sent, but for two texts.** A run of accepted settings with
credentials that are no file does not end before its first request has gone out, whatever the
service does, if the token and the client's id are values of headers. Otherwise it fails with the
name of the header, and nothing is sent. -/
theorem accepted_settings_send {c : CommandLine} {file : Option SettingsFile} {s : Settings}
    (h : Settings.merge c file = .ok s) (hfile : ∀ path, s.credentials ≠ .tokenFile path)
    (files : FileTree) (now : Instant) (w : World) :
    (s.unsendable? = none → ∀ result w', perform s files now transport w = some (result, w') →
      w.sent < w'.sent ∧ ∀ e, result ≠ .error (.prepare e)) ∧
    ∀ name, s.unsendable? = some name → ∃ w', perform s files now transport w =
      some (.error (.send (.prepare (.invalidHeaderValue name))), w') ∧ w'.sent = w.sent := by
  obtain ⟨u, hurl⟩ := exists_parse_url_text h
  obtain ⟨step, hadds⟩ : ∃ step, s.credentials.Adds step := by
    cases hcredentials : s.credentials with
    | absent => exact ⟨_, .absent⟩
    | bearer token => exact ⟨_, .bearer token⟩
    | tokenFile path => exact absurd hcredentials (hfile path)
  exact ⟨fun hfit result w' hrun => perform_sends files now hadds hurl hfit hrun,
    fun name hunfit => perform_unsendable files now hadds hurl hunfit w⟩

/-! ## Two tokens -/

/-- A command line with a token. -/
def tokenLine (token : String) : CommandLine := { addressedLine with bearer := some token }

/-- A service that accepts a request. -/
def acceptingService : World := World.start [⟨0, .response ⟨200⟩ [] none⟩] ⟨0, .timeout⟩

/-- What is found of the result of a merge is so of settings that have been accepted. -/
theorem exists_merged {α : Type} {c : CommandLine} {f : Settings → α} {a : α}
    (h : (Settings.merge c none).toOption.map f = some a) :
    ∃ s, Settings.merge c none = .ok s ∧ f s = a := by
  obtain ⟨s, hs, ha⟩ := Option.map_eq_some_iff.1 h
  cases hmerge : Settings.merge c none with
  | error e => simp [hmerge, Except.toOption] at hs
  | ok s' =>
    rw [hmerge] at hs
    exact ⟨s', rfl, Option.some.inj hs ▸ ha⟩

/-- A run with a token that can be sent comes to an end, and has sent its request. -/
theorem accepted_settings_send_token : ∃ s, Settings.merge (tokenLine "secret") none = .ok s ∧
    (∀ path, s.credentials ≠ .tokenFile path) ∧ s.unsendable? = none ∧
    ∃ result w', perform s ⟨[]⟩ epoch transport acceptingService = some (result, w') ∧
      acceptingService.sent < w'.sent ∧ ∀ e, result ≠ .error (.prepare e) := by
  have hmerged : (Settings.merge (tokenLine "secret") none).toOption.map
      (fun s => (s.credentials, s.unsendable?, s.polling.enabled)) =
        some (.bearer "secret", none, false) := by
    decide +kernel
  obtain ⟨s, h, hfacts⟩ := exists_merged hmerged
  simp only [Prod.mk.injEq] at hfacts
  obtain ⟨hcredentials, hfit, hpolls⟩ := hfacts
  have hfile : ∀ path, s.credentials ≠ .tokenFile path := by simp [hcredentials]
  have hadds : s.credentials.Adds (.bearer "secret") := hcredentials ▸ .bearer "secret"
  obtain ⟨u, hurl⟩ := exists_parse_url_text h
  obtain ⟨⟨result, w'⟩, hrun⟩ := Option.isSome_iff_exists.1
    (perform_isSome ⟨[]⟩ epoch hadds hurl hpolls acceptingService)
  exact ⟨s, h, hfile, hfit, result, w', hrun,
    (accepted_settings_send h hfile ⟨[]⟩ epoch acceptingService).1 hfit result w' hrun⟩

/-- A token of two lines is accepted, and a run with it fails before it has sent anything. -/
theorem not_accepted_settings_send : ∃ s, Settings.merge (tokenLine "a\nb") none = .ok s ∧
    (∀ path, s.credentials ≠ .tokenFile path) ∧
    ∃ w', perform s ⟨[]⟩ epoch transport acceptingService =
      some (.error (.send (.prepare (.invalidHeaderValue "authorization"))), w') ∧ w'.sent = 0 := by
  have hmerged : (Settings.merge (tokenLine "a\nb") none).toOption.map
      (fun s => (s.credentials, s.unsendable?)) =
        some (.bearer "a\nb", some "authorization") := by
    decide +kernel
  obtain ⟨s, h, hfacts⟩ := exists_merged hmerged
  obtain ⟨hcredentials, hunfit⟩ := Prod.mk.inj hfacts
  have hadds : s.credentials.Adds (.bearer "a\nb") := hcredentials ▸ .bearer "a\nb"
  obtain ⟨u, hurl⟩ := exists_parse_url_text h
  exact ⟨s, h, by simp [hcredentials],
    perform_unsendable ⟨[]⟩ epoch hadds hurl hunfit acceptingService⟩

end Courier
