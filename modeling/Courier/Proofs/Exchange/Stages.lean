import Courier.Proofs.Exchange.Writing
import Courier.Proofs.Preparing.Steps

set_option autoImplicit false

/-! # The stages of a call

A session prepares a request, sends it, and perhaps prepares another one and polls with that. Here a
call is told by its exchanges: which request they begin with, or why there are none. What comes
before them takes no time and sends nothing. -/

namespace Courier

/-! ## Preparing -/

theorem prepareIn_fst (steps : List PrepareStep) (base : Request) (w : World) :
    (prepareIn steps base w).1 = prepared steps base := by
  rw [prepareIn_apply]
  rfl

/-- The steps that prepare every request of a session. -/
def Session.steps (s : Session) : List PrepareStep :=
  s.authorizer :: .header "user-agent" s.userAgent :: s.inspectors

theorem Session.prepareRequest_fst (s : Session) (request : Request) (w : World) :
    (s.prepareRequest request w).1 = prepared s.steps request := by
  dsimp only [Session.prepareRequest, Act.bind_apply]
  have hauthorized := prepareIn_fst [s.authorizer] request w
  rw [show s.steps = [s.authorizer] ++ .header "user-agent" s.userAgent :: s.inspectors from rfl,
    prepared_append]
  generalize prepareIn [s.authorizer] request w = authorized at hauthorized ⊢
  obtain ⟨outcome, v⟩ := authorized
  rw [← hauthorized]
  cases outcome with
  | error e => rfl
  | ok request' => exact prepareIn_fst _ request' v

/-- A prepared request can be cancelled exactly if the request that it was made of can. -/
theorem Session.prepareRequest_cancellable {s : Session} {request request' : Request} {w v : World}
    (h : s.prepareRequest request w = (.ok request', v)) :
    request'.cancellable = request.cancellable := by
  have hresult := s.prepareRequest_fst request w
  rw [h] at hresult
  exact prepared_cancellable hresult.symm

/-- The request that a session polls with after a response. -/
def Session.preparePolling (s : Session) (cancellable : Bool) (r : Response) :
    Act (Except SendError Request) := do
  match ← pollingRequest s.authorizer cancellable r with
  | (.error e, _) => pure (.error e)
  | (.ok request, _) =>
    match ← s.inspect request with
    | .error e => pure (.error (.prepare e))
    | .ok request => pure (.ok request)

theorem Session.preparePolling_onlyWrites (s : Session) (cancellable : Bool) (r : Response) :
    (s.preparePolling cancellable r).OnlyWrites := by
  refine .bind (pollingRequest_onlyWrites _ _ _) fun ⟨outcome, r'⟩ => ?_
  cases outcome with
  | error e => exact .pure _
  | ok request =>
    refine .bind (prepareIn_onlyWrites _ _) fun inspected => ?_
    cases inspected <;> exact .pure _

/-- A request for a URL, prepared by the steps of a session. -/
def Session.dressed (s : Session) (cancellable : Bool) (u : Url) : Except PrepareError Request :=
  prepared s.steps ((Request.get u).setCancellable cancellable)

/-- What a session polls with, or why it cannot: after a response that names a location, a request
    for this location that has been prepared like any other. -/
def Session.pollingResult (s : Session) (cancellable : Bool) (r : Response) :
    Except SendError Request :=
  match r.pollingLocation? with
  | none => .error (.missingLocation r.status)
  | some text =>
    match Url.parse text with
    | .error e => .error (.prepare (.invalidUrl text e.message))
    | .ok home =>
      match s.dressed cancellable home with
      | .error e => .error (.prepare e)
      | .ok request => .ok request

/-- The request that is authorized for polling. -/
theorem prepared_polling (authorizer : PrepareStep) (text : String) :
    prepared [.method .get, .baseUrl text, authorizer] Request.empty =
      match Url.parse text with
      | .error e => .error (.invalidUrl text e.message)
      | .ok home => authorizer.makes (Request.get home) := by
  have hbase : (PrepareStep.baseUrl text).makes Request.empty =
      match Url.parse text with
      | .error e => .error (.invalidUrl text e.message)
      | .ok home => .ok (Request.get home) := by
    rw [PrepareStep.makes_eq_act (by simp)]
    dsimp only [PrepareStep.act]
    cases Url.parse text <;> rfl
  rw [prepared_cons,
    show (PrepareStep.method .get).makes Request.empty = .ok Request.empty from rfl]
  show prepared [.baseUrl text, authorizer] Request.empty = _
  rw [prepared_cons, hbase]
  cases Url.parse text with
  | error e => rfl
  | ok home =>
    show prepared [authorizer] (Request.get home) = authorizer.makes (Request.get home)
    rw [prepared_cons]
    cases authorizer.makes (Request.get home) <;> rfl

theorem pollingRequest_fst (authorizer : PrepareStep) (cancellable : Bool) (r : Response)
    (w : World) :
    (pollingRequest authorizer cancellable r w).1.1 =
      match r.pollingLocation? with
      | none => .error (.missingLocation r.status)
      | some text =>
        match prepared [.method .get, .baseUrl text, authorizer] Request.empty with
        | .ok request => .ok (request.setCancellable cancellable)
        | .error e => .error (.prepare e) := by
  simp only [pollingRequest, Act.bind_apply, Response.closeBody_apply]
  cases r.pollingLocation? with
  | none => rfl
  | some text =>
    have hprepared := prepareIn_fst [.method .get, .baseUrl text, authorizer] Request.empty
      (w.write (r.closingEvents "Failed to close response body"))
    dsimp only [Act.bind_apply]
    generalize prepareIn _ _ _ = authorized at hprepared ⊢
    obtain ⟨outcome, v⟩ := authorized
    rw [← hprepared]
    cases outcome <;> rfl

/-- A request that has been authorized is prepared by the other steps of a session. -/
theorem Session.dressed_eq (s : Session) (cancellable : Bool) (home : Url) :
    s.dressed cancellable home = (s.authorizer.makes (Request.get home)).bind fun request =>
      prepared s.inspection
        (request.setCancellable cancellable) := by
  unfold Session.dressed Session.steps
  rw [prepared_cons, PrepareStep.makes_setCancellable]
  cases s.authorizer.makes (Request.get home) <;> rfl

theorem Session.preparePolling_fst (s : Session) (cancellable : Bool) (r : Response) (w : World) :
    (s.preparePolling cancellable r w).1 = s.pollingResult cancellable r := by
  have hasked := pollingRequest_fst s.authorizer cancellable r w
  simp only [prepared_polling] at hasked
  dsimp only [Session.preparePolling, Act.bind_apply]
  unfold Session.pollingResult
  simp only [Session.dressed_eq]
  generalize pollingRequest s.authorizer cancellable r w = asked at hasked ⊢
  obtain ⟨⟨outcome, r'⟩, v⟩ := asked
  -- The location is missing, no URL, refused by the authorizer, or prepared by the other steps.
  cases hl : r.pollingLocation? with
  | none =>
    simp only [hl] at hasked
    subst hasked
    rfl
  | some text =>
    cases hu : Url.parse text with
    | error e =>
      simp only [hl, hu] at hasked ⊢
      subst hasked
      rfl
    | ok home =>
      cases ha : s.authorizer.makes (Request.get home) with
      | error e =>
        simp only [hl, hu, ha] at hasked ⊢
        subst hasked
        rfl
      | ok request =>
        simp only [hl, hu, ha] at hasked ⊢
        subst hasked
        have hinspected := prepareIn_fst s.inspection
          (request.setCancellable cancellable) v
        dsimp only [Session.inspect, Act.bind_apply, Except.bind]
        rw [← hinspected]
        generalize prepareIn _ _ v = inspected
        obtain ⟨outcome, u⟩ := inspected
        cases outcome <;> rfl

/-- A session that cannot prepare its polls has not been cancelled, and brings no response. -/
theorem Session.preparePolling_error {s : Session} {cancellable : Bool} {r : Response} {w v : World}
    {e : SendError} (h : s.preparePolling cancellable r w = (.error e, v)) :
    e.response? = none ∧ e ≠ .cancelled := by
  have hresult := s.preparePolling_fst cancellable r w
  rw [h] at hresult
  unfold Session.pollingResult at hresult
  repeat' split at hresult
  all_goals cases hresult
  all_goals exact ⟨rfl, by simp⟩

theorem Session.preparePolling_cancellable {s : Session} {cancellable : Bool} {r : Response}
    {w v : World} {request : Request}
    (h : s.preparePolling cancellable r w = (.ok request, v)) :
    request.cancellable = cancellable := by
  have hresult := s.preparePolling_fst cancellable r w
  rw [h] at hresult
  unfold Session.pollingResult at hresult
  repeat' split at hresult
  all_goals cases hresult
  rename_i hdressed
  exact prepared_cancellable hdressed

/-! ## Sending and polling -/

/-- How a session polls. -/
def Session.plan (s : Session) : PollingPlan :=
  ⟨s.pollingDelay, .duration s.pollingDuration, s.pollingCodes⟩

theorem Session.send_apply (s : Session) (next : Sender) (request : Request)
    (steps : List SendStep) (w : World) :
    s.send next request steps w =
      match s.prepareRequest request w with
      | (.ok request, v) => decorateSender steps next request v
      | (.error e, v) => some (.error (.prepare e), v) := by
  simp only [Session.send, Run.bind_apply, Run.lift_apply, Option.bind_some]
  generalize s.prepareRequest request w = prepared
  obtain ⟨outcome, v⟩ := prepared
  cases outcome <;> rfl

theorem Session.pollAsNeeded_apply (s : Session) (next : Sender) (r : Response)
    (cancellable : Bool) (w : World) :
    s.pollAsNeeded next r cancellable w =
      if s.shouldPoll r then
        match s.preparePolling cancellable r w with
        | (.ok request, v) => poll next s.plan (r.pollingDelay s.pollingDelay) request v
        | (.error e, v) => some (.error e, v)
      else some (.ok r, w) := by
  unfold Session.pollAsNeeded
  cases s.shouldPoll r with
  | false => rfl
  | true =>
    rw [if_neg (by simp), if_pos rfl]
    simp only [Session.preparePolling, Run.bind_apply, Run.lift_apply, Act.bind_apply,
      Option.bind_some]
    generalize pollingRequest s.authorizer cancellable r w = asked
    obtain ⟨⟨outcome, r'⟩, v⟩ := asked
    cases outcome with
    | error e => rfl
    | ok request =>
      simp only [Run.bind_apply, Run.lift_apply, Act.bind_apply, Option.bind_some]
      generalize s.inspect request v = inspected
      obtain ⟨outcome, u⟩ := inspected
      cases outcome <;> rfl

/-! ## Runs -/

/-- The request of a run can be cancelled. -/
theorem Settings.request_cancellable {s : Settings} {w v : World} {request : Request}
    (h : s.request w = (.ok request, v)) : request.cancellable = true := by
  have hresult := congrArg Prod.fst h
  unfold Settings.request at hresult
  rw [prepareIn_fst] at hresult
  exact prepared_cancellable hresult

/-- The attempts of a run: they are repeated by the policy and logged, and a response with a code
    that is worth another attempt is a failure. -/
def Settings.attempts (s : Settings) (next : Sender) : Sender :=
  decorateSender [.retryPolicy s.retry, .logging runTitle, .errorIf retryableCodes] next

/-- A run that has sent its request follows the response, be it rejected or not. -/
theorem Settings.sendIn_apply (s : Settings) (session : Session) (next : Sender)
    (request : Request) (w : World) :
    s.sendIn session next request w =
      match session.prepareRequest request w with
      | (.error e, v) => some (.error (.prepare e), v)
      | (.ok request, v) => (s.attempts next request v).bind fun p =>
        match SendResult.response? p.1 with
        | some r => s.follow session next r p.2
        | none => some p := by
  simp only [Settings.sendIn, Run.bind_apply, Session.send_apply, Settings.attempts]
  generalize session.prepareRequest request w = prepared
  obtain ⟨outcome, v⟩ := prepared
  cases outcome with
  | error e => rfl
  | ok request =>
    refine congrArg (Option.bind _) (funext fun p => ?_)
    obtain ⟨answer, u⟩ := p
    cases answer with
    | ok r => rfl
    | error e => cases e <;> rfl

/-- What a run makes of what its exchanges have come to. -/
def Settings.conclude (s : Settings) : SendResult → Act RunResult
  | .error e => pure (.error (.send e))
  | .ok r => do
    logIdentity r
    let (result, r) ← judge s.expect r
    r.drop
    pure result

theorem Settings.conclude_onlyWrites (s : Settings) (answer : SendResult) :
    (s.conclude answer).OnlyWrites := by
  cases answer with
  | error e => exact .pure _
  | ok r =>
    exact .bind (logIdentity_onlyWrites r) fun _ => .bind (judge_onlyWrites s.expect r) fun p =>
      .bind p.2.drop_onlyWrites fun _ => .pure _

/-- A run loads credentials, makes its request, sends it and concludes. -/
theorem perform_apply (s : Settings) (files : FileTree) (now : Instant) (next : Sender)
    (w : World) :
    perform s files now next w =
      match s.credentials.authorizer files now w with
      | (.error e, v) => some (.error (.token e), v)
      | (.ok authorizer, v) =>
        match s.request v with
        | (.error e, u) => some (.error (.prepare e), u)
        | (.ok request, u) => (s.sendIn (s.session authorizer) next request u).map fun p =>
          s.conclude p.1 p.2 := by
  simp only [perform, Run.bind_apply, Run.lift_apply, Option.bind_some]
  generalize s.credentials.authorizer files now w = authorized
  obtain ⟨outcome, v⟩ := authorized
  cases outcome with
  | error e => rfl
  | ok authorizer =>
    simp only [Run.bind_apply, Run.lift_apply, Option.bind_some]
    generalize s.request v = asked
    obtain ⟨outcome, u⟩ := asked
    cases outcome with
    | error e => rfl
    | ok request =>
      simp only [Run.bind_apply]
      cases s.sendIn (s.session authorizer) next request u with
      | none => rfl
      | some p =>
        obtain ⟨answer, x⟩ := p
        cases answer <;> rfl

end Courier
