import Courier.Proofs.Preparing.Accepted
import Courier.Proofs.Secrecy.Veil
import Mathlib.Data.List.Forall2

set_option autoImplicit false

/-! # Tokens stay secret

A token is put into one header of every request, and goes nowhere else. Two runs of settings that
differ in their tokens only look the same through the veil over this header, from the first request
to the result: the steps that prepare requests, the steps around a sender, the attempts and the
polls all agree. What counts of a token is only whether it can be the value of a header at all. -/

namespace Courier

/-! ## Preparing -/

/-- Whether two outcomes look the same: the same error, or requests that look the same. -/
def VeiledSame {ε : Type} (outcome outcome' : Except ε Request) : Prop :=
  outcome.map Request.veiled = outcome'.map Request.veiled

theorem veiledSame_cases {ε : Type} {outcome outcome' : Except ε Request}
    (h : VeiledSame outcome outcome') :
    (∃ e, outcome = .error e ∧ outcome' = .error e) ∨
      ∃ r r', outcome = .ok r ∧ outcome' = .ok r' ∧ r.veiled = r'.veiled := by
  cases outcome with
  | error e =>
    cases outcome' with
    | error e' => exact .inl ⟨e, rfl, congrArg Except.error (Except.error.inj h).symm⟩
    | ok r' => exact absurd h (by simp [VeiledSame, Except.map])
  | ok r =>
    cases outcome' with
    | error e' => exact absurd h (by simp [VeiledSame, Except.map])
    | ok r' => exact .inr ⟨r, r', rfl, rfl, Except.ok.inj h⟩

/-- Whether two preparations agree: their outcomes look the same, and their probes see the same. -/
def Preparing.Agree (p p' : Preparing Request) : Prop :=
  ∀ seen, VeiledSame (StateT.run (m := Id) (ExceptT.run p) seen).1
      (StateT.run (m := Id) (ExceptT.run p') seen).1 ∧
    (StateT.run (m := Id) (ExceptT.run p) seen).2 = (StateT.run (m := Id) (ExceptT.run p') seen).2

/-- Whether two preparers agree about requests that look the same. -/
def Preparer.Agree (next next' : Preparer) : Prop :=
  ∀ r r' : Request, r.veiled = r'.veiled → (next r).Agree (next' r')

theorem Preparing.Agree.pure {r r' : Request} (h : r.veiled = r'.veiled) :
    Preparing.Agree (pure r) (pure r') :=
  fun _ => ⟨congrArg Except.ok h, rfl⟩

theorem Preparing.Agree.throw (e : PrepareError) : Preparing.Agree (throw e) (throw e) :=
  fun _ => ⟨rfl, rfl⟩

theorem Preparing.Agree.bind {p p' : Preparing Request} {next next' : Preparer} (h : p.Agree p')
    (hnext : Preparer.Agree next next') : Preparing.Agree (p >>= next) (p' >>= next') := by
  intro seen
  obtain ⟨hresult, hseen⟩ := h seen
  have hrun : ∀ (q : Preparing Request) (after : Preparer),
      StateT.run (m := Id) (ExceptT.run (q >>= after)) seen =
        ExceptT.bindCont after (StateT.run (m := Id) (ExceptT.run q) seen).1
          (StateT.run (m := Id) (ExceptT.run q) seen).2 := fun _ _ => rfl
  rw [hrun, hrun, hseen]
  generalize (StateT.run (m := Id) (ExceptT.run p) seen).1 = outcome at hresult ⊢
  generalize (StateT.run (m := Id) (ExceptT.run p') seen).1 = outcome' at hresult ⊢
  rcases veiledSame_cases hresult with ⟨e, rfl, rfl⟩ | ⟨r, r', rfl, rfl, hr⟩
  · exact ⟨rfl, rfl⟩
  · exact hnext r r' hr _

/-- Whether two steps are the same but for the token that they add. -/
inductive PrepareStep.Alike : PrepareStep → PrepareStep → Prop
  | same (step : PrepareStep) : Alike step step
  | bearer {token token' : String} (h : (HeaderValue.parse? ("Bearer " ++ token)).isSome =
      (HeaderValue.parse? ("Bearer " ++ token')).isSome) :
      Alike (.bearer token) (.bearer token')

/-- A step does to requests that look the same what looks the same. -/
theorem PrepareStep.act_agree (step : PrepareStep) :
    Preparer.Agree (fun r => step.act r) fun r => step.act r := by
  intro r r' h
  -- What changes nothing that is veiled changes requests that look the same alike.
  have hchange : ∀ f : Request → Request, (∀ q, (f q).veiled = f q.veiled) →
      Preparing.Agree (pure (f r)) (pure (f r')) := by
    intro f hf
    refine .pure ?_
    rw [hf, hf, h]
  have hurl := Request.url_eq_of_veiled h
  cases step with
  | asIs => exact .pure h
  | both first second => exact .pure h
  | method m => exact hchange (fun q => { q with method := m }) fun _ => rfl
  | body content => exact hchange (fun q => { q with body := some content }) fun _ => rfl
  | baseUrl text =>
    dsimp only [PrepareStep.act]
    cases Url.parse text with
    | ok url => exact hchange (fun q => { q with url := some url }) fun _ => rfl
    | error e => exact .throw _
  | path text =>
    dsimp only [PrepareStep.act]
    rw [hurl]
    cases r'.url with
    | some url =>
      exact hchange (fun q => { q with url := some (url.appendPath text) }) fun _ => rfl
    | none => exact .throw _
  | query fields =>
    dsimp only [PrepareStep.act]
    rw [hurl]
    cases r'.url with
    | some url => exact hchange (fun q => { q with url := some (url.addQuery fields) }) fun _ => rfl
    | none => exact .throw _
  | header name value =>
    dsimp only [PrepareStep.act]
    cases HeaderName.parse? name with
    | none => exact .throw _
    | some n =>
      cases HeaderValue.parse? value with
      | none => exact .throw _
      | some v => exact .pure (Request.veiled_set h rfl)
  | json encoded =>
    cases encoded with
    | error reason => exact .throw _
    | ok text =>
      exact .pure (congrArg (fun q : Request => { q with body := some (Utf8.encode text) })
        (Request.veiled_set h rfl))
  | form fields =>
    exact .pure (congrArg
      (fun q : Request => { q with body := some (Utf8.encode (Form.text fields)) })
      (Request.veiled_set h rfl))
  | refuse reason => exact .throw _
  | probe name =>
    have hprobe : (⟨name, r.method, r.urlText, r.headers.length⟩ : PrepareProbe) =
        ⟨name, r'.method, r'.urlText, r'.headers.length⟩ := by
      have hlength : r.veiled.headers.length = r'.veiled.headers.length := by rw [h]
      rw [Request.veiled, Request.veiled, Headers.veiled, Headers.veiled, List.length_map,
        List.length_map] at hlength
      rw [Request.method_eq_of_veiled h, Request.urlText_eq_of_veiled h, hlength]
    intro seen
    refine ⟨congrArg Except.ok h, ?_⟩
    show seen ++ [_] = seen ++ [_]
    rw [hprobe]

theorem PrepareStep.decorate_agree {next next' : Preparer} (hnext : Preparer.Agree next next')
    (step : PrepareStep) : Preparer.Agree (step.decorate next) (step.decorate next') := by
  induction step generalizing next next' with
  | both first second ihf ihs => exact ihf (ihs hnext)
  | asIs => exact hnext
  | _ => exact fun r r' h => (PrepareStep.act_agree _ r r' h).bind hnext

theorem HeaderName.parse?_authorization :
    HeaderName.parse? "authorization" = some .authorization := by
  decide +kernel

/-- What a token is does not show, only whether it is one that can be added. -/
theorem PrepareStep.Alike.decorate {step step' : PrepareStep} (h : step.Alike step')
    {next next' : Preparer} (hnext : Preparer.Agree next next') :
    Preparer.Agree (step.decorate next) (step'.decorate next') := by
  cases h with
  | same => exact PrepareStep.decorate_agree hnext step
  | @bearer token token' hlegal =>
    intro r r' hr
    refine .bind ?_ hnext
    dsimp only [PrepareStep.bearer, PrepareStep.act]
    rw [HeaderName.parse?_authorization]
    cases hvalue : HeaderValue.parse? ("Bearer " ++ token) with
    | none =>
      rw [hvalue] at hlegal
      have hnone : HeaderValue.parse? ("Bearer " ++ token') = none := by simpa using hlegal.symm
      rw [hnone]
      exact .throw _
    | some v =>
      rw [hvalue] at hlegal
      obtain ⟨v', hvalue'⟩ := Option.isSome_iff_exists.1 hlegal.symm
      rw [hvalue']
      exact .pure (Request.veiled_set hr rfl)

/-- Steps that are alike prepare requests that look the same alike. -/
theorem prepare_agree {steps steps' : List PrepareStep}
    (h : List.Forall₂ PrepareStep.Alike steps steps') :
    Preparer.Agree (prepare steps) (prepare steps') := by
  unfold prepare
  induction h with
  | nil => exact fun r r' hr => .pure hr
  | cons hstep _ ih => exact hstep.decorate ih

theorem prepareIn_agree {steps steps' : List PrepareStep}
    (h : List.Forall₂ PrepareStep.Alike steps steps') {r r' : Request} (hr : r.veiled = r'.veiled) :
    (prepareIn steps r).Agree VeiledSame (prepareIn steps' r') := by
  intro w w' hw
  obtain ⟨hresult, hseen⟩ := prepare_agree h r r' hr []
  rw [prepareIn_apply, prepareIn_apply]
  refine ⟨hresult, ?_⟩
  rw [World.veiled_write, World.veiled_write, hw]
  exact congrArg
    (fun probes => w'.veiled.write ((probes.map Event.prepared).map Event.veiled)) hseen

/-! ## Sending -/

/-- Whether two senders agree about requests that look the same. -/
def Sender.Agree (next next' : Sender) : Prop :=
  ∀ r r' : Request, r.veiled = r'.veiled → Run.Agree Eq (next r) (next' r')

/-- A service behind a gate that counts requests. -/
theorem gated_agree (isOpen : Nat → Bool) :
    Sender.Agree (Sender.gated (fun v => isOpen v.sent) transport)
      (Sender.gated (fun v => isOpen v.sent) transport) := by
  intro r r' hr w w' hw
  have hsent : w.sent = w'.sent := by
    show w.veiled.sent = w'.veiled.sent
    rw [hw]
  have hgated : ∀ (q : Request) (v : World),
      Sender.gated (fun v => isOpen v.sent) transport q v =
        if isOpen v.sent then transport q v else some (.error .cancelled, v) := fun _ _ => rfl
  rw [hgated, hgated, hsent]
  split
  · have hexchanges : ∀ (q : Request) (v : World),
        (v.exchanges q).veiled = v.veiled.exchanges q.veiled := by
      intro q v
      have hwrite := v.veiled_write [.sent v.sent q v.isCancelled]
      show ({ (v.write [.sent v.sent q v.isCancelled]).veiled.countRequest with
        script := v.script.tail
        clock := v.clock + (v.reply 0).latencyMillis
        readers := v.readers + (v.reply 0).answer.hasReader.toNat } : World) = _
      rw [hwrite]
      rfl
    rw [transport_apply, transport_apply]
    refine .some ⟨?_, ?_⟩
    · show (w.veiled.reply 0).answer.brings w.veiled.readers =
        (w'.veiled.reply 0).answer.brings w'.veiled.readers
      rw [hw]
    · show (w.exchanges r).veiled = (w'.exchanges r').veiled
      rw [hexchanges, hexchanges, hr, hw]
  · exact .some ⟨rfl, hw⟩

section Steps

variable {next next' : Sender} (h : Sender.Agree next next')

include h

theorem Sender.Agree.logged (title : String) :
    Sender.Agree (logged title next) (logged title next') := by
  intro r r' hr
  unfold Courier.logged
  rw [Request.method_eq_of_veiled hr, Request.urlText_eq_of_veiled hr]
  refine .bind_eq (.lift (.log _ _)) fun _ => .bind_eq (h r r' hr) fun result => ?_
  cases result with
  | ok response => exact .bind_eq (.lift (.log _ _)) fun _ => .pure rfl
  | error e => exact .bind_eq (.lift (.log _ _)) fun _ => .pure rfl

theorem Sender.Agree.probed (name : String) :
    Sender.Agree (probed name next) (probed name next') := by
  intro r r' hr
  exact .bind_eq (.lift (.record rfl)) fun _ => .bind_eq (h r r' hr) fun result =>
    .bind_eq (.lift (.record rfl)) fun _ => .pure rfl

theorem Sender.Agree.checked (codes : List Status) (failOnMatch : Bool) :
    Sender.Agree (checked codes failOnMatch next) (checked codes failOnMatch next') := by
  intro r r' hr
  refine .bind_eq (h r r' hr) fun result => ?_
  cases result with
  | error e => exact .pure rfl
  | ok response =>
    dsimp only
    split
    · refine .pure ?_
      rw [SendError.rejection, SendError.rejection, Request.method_eq_of_veiled hr,
        Request.urlText_eq_of_veiled hr]
    · exact .pure rfl

theorem Sender.Agree.closing : Sender.Agree (closing next) (closing next') := by
  intro r r' hr
  refine .bind_eq (h r r' hr) fun result => ?_
  cases result with
  | ok response => exact .pure rfl
  | error e => exact .bind_eq (.lift e.closeResponse_agree) fun _ => .pure rfl

theorem Sender.Agree.delayed (delay : Duration) :
    Sender.Agree (delayed delay next) (delayed delay next') := by
  intro r r' hr
  unfold Courier.delayed
  rw [Request.cancellable_eq_of_veiled hr]
  refine .bind_eq (.lift (.pause _ _)) fun outcome => ?_
  cases outcome with
  | cancelled => exact .pure rfl
  | finished => exact h r r' hr

theorem Sender.Agree.retried (policy : RetryPolicy) (limit : Budget) :
    Sender.Agree (retried policy limit next) (retried policy limit next') := by
  intro r r' hr
  have hafter : ∀ (start attempts : Nat) (result : SendResult),
      (retryAfter policy limit r start attempts result).Agree (Sum.LiftRel Eq Eq)
        (retryAfter policy limit r' start attempts result) := by
    intro start attempts result
    cases result with
    | ok response => exact .pure (.inr rfl)
    | error e =>
      refine .clock fun w w' hclock => ?_
      rw [hclock]
      split
      · exact .pure (.inr rfl)
      · unfold retryMessage
        rw [Request.method_eq_of_veiled hr, Request.urlText_eq_of_veiled hr,
          Request.cancellable_eq_of_veiled hr]
        refine .bind_eq e.closeResponse_agree fun _ => .bind_eq (.log _ _) fun _ =>
          .bind_eq (.pause _ _) fun outcome => ?_
        cases outcome with
        | cancelled => exact .pure (.inr rfl)
        | finished => exact .pure (.inl rfl)
  refine .clock fun w w' hclock => ?_
  rw [hclock]
  refine .iterate (P := Eq) (fun attempts _ hattempts => ?_) rfl
  subst hattempts
  exact .bind_eq (h r r' hr) fun result => .lift (hafter _ _ result)

/-- Steps around senders that agree agree. -/
theorem Sender.Agree.decorateSender (steps : List SendStep) :
    Sender.Agree (decorateSender steps next) (decorateSender steps next') := by
  induction steps with
  | nil => exact h
  | cons step rest ih =>
    cases step with
    | asIs => exact ih
    | logging title => exact ih.logged title
    | errorIf codes => exact ih.checked codes true
    | errorUnless codes => exact ih.checked codes false
    | closeIfError => exact ih.closing
    | afterDelay delay => exact ih.delayed delay
    | retry policy limit => exact ih.retried policy limit
    | probe name => exact ih.probed name

end Steps

/-! ## Polling -/

/-- Whether two loops of polls stand at the same point, with requests that look the same. -/
inductive Polling.Alike : Polling → Polling → Prop
  | mk (attempts : Nat) (delay : Duration) {r r' : Request} (h : r.veiled = r'.veiled)
      (progress : Option PollingState) :
      Alike ⟨attempts, delay, r, progress⟩ ⟨attempts, delay, r', progress⟩

/-- The next location is asked for by requests that look the same. -/
theorem Request.follow_veiled {r r' : Request} (h : r.veiled = r'.veiled) (location : String) :
    VeiledSame (r.follow location) (r'.follow location) := by
  unfold Request.follow
  rw [Request.url_eq_of_veiled h]
  cases Url.parseFrom r'.url location with
  | error e => rfl
  | ok url =>
    exact congrArg Except.ok (congrArg (fun q : Request => { q with url := some url }) h)

theorem PollingState.record_agree (s : PollingState) (r : Response) (usual : Duration)
    (codes : List Status) : (s.record r usual codes).Agree Eq (s.record r usual codes) :=
  .bind_eq s.last.closeBody_agree fun _ => .pure rfl

theorem PollingState.closeResponse_agree (s : PollingState) :
    s.closeResponse.Agree Eq s.closeResponse :=
  .bind_eq s.last.closeBody_agree fun _ => .pure rfl

theorem PollingState.nextRequest_veiled (s : PollingState) {r r' : Request}
    (h : r.veiled = r'.veiled) : VeiledSame (s.nextRequest r) (s.nextRequest r') := by
  unfold PollingState.nextRequest
  cases s.url with
  | none => exact congrArg Except.ok h
  | some location => exact Request.follow_veiled h location

/-- What follows from a poll does not depend on what is veiled. -/
theorem Polling.Alike.after {p p' : Polling} (h : p.Alike p') (plan : PollingPlan) (start : Nat)
    (result : SendResult) :
    (p.after plan start result).Agree (Sum.LiftRel Polling.Alike Eq)
      (p'.after plan start result) := by
  obtain ⟨attempts, delay, hr, progress⟩ := h
  rename_i r r'
  have hurl := Request.urlText_eq_of_veiled hr
  cases result with
  | error e =>
    refine .clock fun w w' hclock => ?_
    rw [hclock]
    dsimp only
    split
    · exact .pure (.inr rfl)
    · unfold Polling.failureMessage
      dsimp only
      rw [hurl]
      exact .bind_eq (.log _ _) fun _ => .bind_eq e.closeResponse_agree fun _ =>
        .pure (.inl ⟨_, _, hr, _⟩)
  | ok response =>
    refine .clock fun w w' hclock => ?_
    rw [hclock]
    have hrecord : (Polling.record ⟨attempts, delay, r, progress⟩ plan response).Agree Eq
        (Polling.record ⟨attempts, delay, r', progress⟩ plan response) := by
      cases progress with
      | none => exact .pure rfl
      | some previous => exact previous.record_agree response _ _
    refine .bind_eq hrecord fun current => ?_
    dsimp only
    split
    · unfold Polling.endMessage
      dsimp only
      rw [hurl]
      exact .bind_eq (.log _ _) fun _ => .pure (.inr rfl)
    · split
      · refine .pure (.inr ?_)
        rw [SendError.rejection, SendError.rejection, Request.method_eq_of_veiled hr, hurl]
      · rcases veiledSame_cases (current.nextRequest_veiled hr) with
          ⟨e, he, he'⟩ | ⟨q, q', hq, hq', hsame⟩
        · rw [he, he']
          exact .bind_eq current.last.drop_agree fun _ => .pure (.inr rfl)
        · rw [hq, hq']
          unfold Polling.pendingMessage
          dsimp only
          rw [Request.urlText_eq_of_veiled hsame]
          exact .bind_eq (.log _ _) fun _ => .bind_eq current.closeResponse_agree fun _ =>
            .pure (.inl ⟨_, _, hsame, _⟩)

/-- Polls with requests that look the same agree. -/
theorem Sender.Agree.poll {next next' : Sender} (h : Sender.Agree next next') (plan : PollingPlan)
    (firstDelay : Duration) {r r' : Request} (hr : r.veiled = r'.veiled) :
    Run.Agree Eq (poll next plan firstDelay r) (poll next' plan firstDelay r') := by
  refine .clock fun w w' hclock => ?_
  rw [hclock]
  refine .iterate (P := Polling.Alike) (fun p p' hp => ?_) ⟨_, _, hr, _⟩
  have hafter := fun result => hp.after plan w'.clock result
  obtain ⟨attempts, delay, hq, progress⟩ := hp
  unfold pollTurn
  dsimp only at hafter ⊢
  rw [Request.cancellable_eq_of_veiled hq]
  refine .bind_eq (.lift (.pause _ _)) fun outcome => ?_
  cases outcome with
  | cancelled => exact .pure (.inr rfl)
  | finished => exact .bind_eq (h _ _ hq) fun result => .lift (hafter result)

/-! ## Sessions -/

/-- Whether two sessions are the same but for the token that they add. -/
structure Session.Alike (s s' : Session) : Prop where
  authorizer : s.authorizer.Alike s'.authorizer
  rest : s' = { s with authorizer := s'.authorizer }

/-- Steps that are the same on both sides. -/
theorem forall₂_alike_same (steps : List PrepareStep) :
    List.Forall₂ PrepareStep.Alike steps steps :=
  List.forall₂_same.2 fun step _ => .same step

section Sessions

variable {s s' : Session} (hs : s.Alike s')

include hs

theorem Session.Alike.inspect {r r' : Request} (hr : r.veiled = r'.veiled) :
    (s.inspect r).Agree VeiledSame (s'.inspect r') := by
  rw [hs.rest]
  exact prepareIn_agree (forall₂_alike_same _) hr

theorem Session.Alike.prepareRequest {r r' : Request} (hr : r.veiled = r'.veiled) :
    (s.prepareRequest r).Agree VeiledSame (s'.prepareRequest r') := by
  refine .bind (prepareIn_agree (.cons hs.authorizer .nil) hr) fun outcome outcome' h => ?_
  rcases veiledSame_cases h with ⟨e, rfl, rfl⟩ | ⟨q, q', rfl, rfl, hq⟩
  · exact .pure rfl
  · exact hs.inspect hq

theorem Session.Alike.pollingRequest (cancellable : Bool) (r : Response) :
    (pollingRequest s.authorizer cancellable r).Agree (fun p q => VeiledSame p.1 q.1)
      (pollingRequest s'.authorizer cancellable r) := by
  refine .bind_eq r.closeBody_agree fun closed => ?_
  cases r.pollingLocation? with
  | none => exact .pure rfl
  | some url =>
    have hsteps : List.Forall₂ PrepareStep.Alike [.method .get, .baseUrl url, s.authorizer]
        [.method .get, .baseUrl url, s'.authorizer] :=
      .cons (.same _) (.cons (.same _) (.cons hs.authorizer .nil))
    refine .bind (prepareIn_agree hsteps rfl) fun outcome outcome' h => ?_
    rcases veiledSame_cases h with ⟨e, rfl, rfl⟩ | ⟨q, q', rfl, rfl, hq⟩
    · exact .pure rfl
    · exact .pure (congrArg Except.ok
        (congrArg (fun q : Request => { q with cancellable := cancellable }) hq))

variable {next next' : Sender} (h : Sender.Agree next next')

include h

theorem Session.Alike.send {r r' : Request} (hr : r.veiled = r'.veiled) (steps : List SendStep) :
    Run.Agree Eq (s.send next r steps) (s'.send next' r' steps) := by
  refine .bind (.lift (hs.prepareRequest hr)) fun outcome outcome' hsame => ?_
  rcases veiledSame_cases hsame with ⟨e, rfl, rfl⟩ | ⟨q, q', rfl, rfl, hq⟩
  · exact .pure rfl
  · exact h.decorateSender steps q q' hq

theorem Session.Alike.pollAsNeeded (r : Response) (cancellable : Bool) :
    Run.Agree Eq (s.pollAsNeeded next r cancellable) (s'.pollAsNeeded next' r cancellable) := by
  have hpolls : s'.shouldPoll r = s.shouldPoll r := by rw [hs.rest]; rfl
  have hdelay : s'.pollingDelay = s.pollingDelay := by rw [hs.rest]
  have hduration : s'.pollingDuration = s.pollingDuration := by rw [hs.rest]
  have hcodes : s'.pollingCodes = s.pollingCodes := by rw [hs.rest]
  unfold Session.pollAsNeeded
  rw [hpolls, hdelay, hduration, hcodes]
  split
  · exact .pure rfl
  · refine .bind (.lift (hs.pollingRequest cancellable r)) fun asked asked' hsame => ?_
    obtain ⟨outcome, closed⟩ := asked
    obtain ⟨outcome', closed'⟩ := asked'
    rcases veiledSame_cases hsame with ⟨e, he, he'⟩ | ⟨q, q', hq, hq', hveiled⟩
    · obtain rfl : outcome = _ := he
      obtain rfl : outcome' = _ := he'
      exact .pure rfl
    · obtain rfl : outcome = _ := hq
      obtain rfl : outcome' = _ := hq'
      refine .bind (.lift (hs.inspect hveiled)) fun inspected inspected' hsame' => ?_
      rcases veiledSame_cases hsame' with ⟨e, rfl, rfl⟩ | ⟨x, x', rfl, rfl, hx⟩
      · exact .pure rfl
      · exact h.poll _ _ hx

end Sessions

/-! ## Runs -/

/-- What can be seen of a run through the veil: its result, and the world after it. -/
def veiledEnd (p : RunResult × World) : RunResult × World := (p.1, p.2.veiled)

/-- Settings with a token. -/
def Settings.withToken (s : Settings) (token : String) : Settings :=
  { s with credentials := .bearer token }

/-- Whether a token can be sent depends on nothing that is put before it. -/
theorem HeaderValue.isSome_parse?_bearer (token : String) :
    (HeaderValue.parse? ("Bearer " ++ token)).isSome = (HeaderValue.parse? token).isSome := by
  have hprefix : (Utf8.encode "Bearer ").all HeaderValue.isOctet = true := by decide +kernel
  unfold HeaderValue.parse? HeaderValue.ofBytes?
  rw [Utf8.encode_append, List.all_append, hprefix, Bool.true_and]
  split <;> rfl

section Runs

variable {s : Settings} {token token' : String}
  (h : (HeaderValue.parse? token).isSome = (HeaderValue.parse? token').isSome)

include h

theorem PrepareStep.bearer_alike : PrepareStep.Alike (.bearer token) (.bearer token') := by
  refine .bearer ?_
  rw [HeaderValue.isSome_parse?_bearer, HeaderValue.isSome_parse?_bearer, h]

theorem Settings.session_alike : Session.Alike ((s.withToken token).session (.bearer token))
    ((s.withToken token').session (.bearer token')) :=
  ⟨PrepareStep.bearer_alike h, rfl⟩

variable {next next' : Sender} (hnext : Sender.Agree next next')

include hnext

theorem Settings.follow_agree (r : Response) : Run.Agree Eq
    ((s.withToken token).follow ((s.withToken token).session (.bearer token)) next r)
    ((s.withToken token').follow ((s.withToken token').session (.bearer token')) next' r) := by
  have hpolls := (Settings.session_alike (s := s) h).pollAsNeeded hnext r true
  unfold Settings.follow
  show Run.Agree Eq (if s.polling.enabled then _ else _) (if s.polling.enabled then _ else _)
  cases s.polling.enabled with
  | true => exact hpolls
  | false => exact .pure rfl

theorem Settings.sendIn_agree {r r' : Request} (hr : r.veiled = r'.veiled) : Run.Agree Eq
    ((s.withToken token).sendIn ((s.withToken token).session (.bearer token)) next r)
    ((s.withToken token').sendIn ((s.withToken token').session (.bearer token')) next' r') := by
  refine .bind_eq ((Settings.session_alike h).send hnext hr _) fun answer => ?_
  cases answer with
  | ok response => exact Settings.follow_agree h hnext response
  | error e =>
    cases e with
    | unexpectedStatus method url status response => exact Settings.follow_agree h hnext response
    | _ => exact .pure rfl

/-- Runs agree that differ in their tokens only. -/
theorem perform_agree (files : FileTree) (now : Instant) :
    Run.Agree Eq (perform (s.withToken token) files now next)
      (perform (s.withToken token') files now next') := by
  have hauthorizer : ((s.withToken token).credentials.authorizer files now).Agree
      (fun a b => a = .ok (.bearer token) ∧ b = .ok (.bearer token'))
      ((s.withToken token').credentials.authorizer files now) := .pure ⟨rfl, rfl⟩
  have hrequest : s.request.Agree VeiledSame s.request := by
    unfold Settings.request
    exact prepareIn_agree (forall₂_alike_same _) rfl
  unfold perform
  refine .bind (.lift hauthorizer) ?_
  rintro _ _ ⟨rfl, rfl⟩
  refine .bind (.lift hrequest) fun outcome outcome' hsame => ?_
  rcases veiledSame_cases hsame with ⟨e, rfl, rfl⟩ | ⟨r, r', rfl, rfl, hr⟩
  · exact .pure rfl
  · refine .bind_eq (Settings.sendIn_agree h hnext hr) fun answer => ?_
    cases answer with
    | error e => exact .pure rfl
    | ok response =>
      exact .bind_eq (.lift (logIdentity_agree response)) fun _ =>
        .bind_eq (.lift (judge_agree s.expect response)) fun judged =>
        .bind_eq (.lift judged.2.drop_agree) fun _ => .pure rfl

end Runs

/-- **Tokens stay secret.** Runs of settings that differ in their tokens, of which both or neither
can be the value of a header, look the same through the veil over the header `authorization`,
whatever the service does and whenever the caller cancels: they send the same requests at the same
times but for the values of this header, log the same and come to the same result, or both go on for
ever. What such a run has sent until then is seen by closing a gate in front of the service after
some number of requests. -/
theorem tokens_stay_secret (s : Settings) {token token' : String}
    (h : (HeaderValue.parse? token).isSome = (HeaderValue.parse? token').isSome)
    (files : FileTree) (now : Instant) (isOpen : Nat → Bool) (w : World) :
    let service := Sender.gated (fun v => isOpen v.sent) transport
    (perform (s.withToken token) files now service w).map veiledEnd =
      (perform (s.withToken token') files now service w).map veiledEnd := by
  intro service
  have hends := perform_agree (s := s) h (gated_agree isOpen) files now w w rfl
  show (perform (s.withToken token) files now (Sender.gated (fun v => isOpen v.sent) transport)
      w).map _ = (perform _ _ _ (Sender.gated (fun v => isOpen v.sent) transport) w).map _
  generalize perform (s.withToken token) files now _ w = first at hends ⊢
  generalize perform (s.withToken token') files now _ w = second at hends ⊢
  cases hends with
  | none => rfl
  | some hend => exact congrArg some (Prod.ext hend.1 hend.2)

/-- Two tokens for one request that is accepted. -/
theorem tokens_stay_secret_accepted : ∃ s, Settings.merge addressedLine none = .ok s ∧
    (HeaderValue.parse? "secret").isSome = (HeaderValue.parse? "enigma").isSome ∧
    (perform (s.withToken "secret") ⟨[]⟩ epoch (Sender.gated (fun v => v.sent < 3) transport)
      acceptingService).map veiledEnd =
    (perform (s.withToken "enigma") ⟨[]⟩ epoch (Sender.gated (fun v => v.sent < 3) transport)
      acceptingService).map veiledEnd := by
  have hmerged : (Settings.merge addressedLine none).toOption.map (fun _ => ()) = some () := by
    decide +kernel
  obtain ⟨s, hs, -⟩ := exists_merged hmerged
  have hlegal : (HeaderValue.parse? "secret").isSome = (HeaderValue.parse? "enigma").isSome := by
    decide +kernel
  exact ⟨s, hs, hlegal,
    tokens_stay_secret s hlegal ⟨[]⟩ epoch (fun n => n < 3) acceptingService⟩

end Courier
