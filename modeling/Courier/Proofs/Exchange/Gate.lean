import Courier.Perform
import Courier.Proofs.Exchange.Iterate
import Courier.Proofs.Polling.Turn
import Courier.Proofs.Retry.Turn

set_option autoImplicit false

/-! # Calls behind a gate

A call may go on for ever: a budget of time is never used up if nothing takes time. A gate in front
of the transport that turns requests away from some moment on cuts a call off at this moment, since
nothing is repeated after a cancellation. Here it is shown that a call through a gate that closes
after some number of requests always comes to something. -/

namespace Courier

/-! ## Gates -/

/-- A sender behind a gate. While it is closed every request comes back as cancelled. -/
def Sender.gated (isOpen : World → Bool) (next : Sender) : Sender := fun request w =>
  if isOpen w then next request w else some (.error .cancelled, w)

/-- Whether a gate is closed once a number of requests have gone out. -/
def ClosesAfter (n : Nat) (isOpen : World → Bool) : Prop := ∀ w, n ≤ w.sent → isOpen w = false

/-- Whether a call always comes to something. -/
def Run.Returns {α : Type} (call : Run α) : Prop := ∀ w, (call w).isSome = true

/-! ## Senders that use up requests -/

/-- What a call has used up: at least one of the `n` requests, unless it was cancelled. -/
def UsesUp (n : Nat) (w w' : World) (result : SendResult) : Prop :=
  w.sent ≤ w'.sent ∧ (w.sent < n ∧ w.sent < w'.sent ∨ result = .error .cancelled)

/-- A sender that always comes back and uses up requests. -/
def Sender.Ends (n : Nat) (next : Sender) : Prop :=
  ∀ request w, ∃ result w', next request w = some (result, w') ∧ UsesUp n w w' result

theorem gated_transport_ends {n : Nat} {isOpen : World → Bool} (h : ClosesAfter n isOpen) :
    Sender.Ends n (Sender.gated isOpen transport) := by
  intro request w
  unfold Sender.gated
  cases ho : isOpen w with
  | false => exact ⟨_, _, rfl, Nat.le_refl _, .inr rfl⟩
  | true =>
    have hlt : w.sent < n := by
      refine Nat.lt_of_not_le fun hle => ?_
      rw [h w hle] at ho
      exact absurd ho (by simp)
    have hsent : (w.exchanges request).sent = w.sent + 1 := rfl
    refine ⟨_, _, transport_apply request w, ?_, .inl ⟨hlt, ?_⟩⟩ <;> omega

section Steps

variable {n : Nat} {next : Sender}

/-- A wait sends nothing. -/
theorem pause_sent (d : Duration) (cancellable : Bool) (w : World) :
    (pause d cancellable w).2.sent = w.sent := by
  obtain ⟨t, ht⟩ := pause_world d cancellable w
  rw [ht]

theorem Sender.Ends.logged (h : Sender.Ends n next) (title : String) :
    Sender.Ends n (logged title next) := by
  intro request w
  obtain ⟨result, w', hnext, hused⟩ := h request (w.write [.logged .info
    (title ++ ": Sending " ++ (request.method.name ++ " " ++ request.urlText))])
  simp only [Courier.logged, Run.bind_apply, Run.lift_apply, log_apply, Option.bind_some, hnext]
  cases result with
  | ok response => exact ⟨_, _, rfl, hused⟩
  | error e => exact ⟨_, _, rfl, hused⟩

theorem Sender.Ends.probed (h : Sender.Ends n next) (name : String) :
    Sender.Ends n (probed name next) := by
  intro request w
  obtain ⟨result, w', hnext, hused⟩ := h request (w.write [.entered name])
  simp only [Courier.probed, Run.bind_apply, Run.lift_apply, record_apply, Option.bind_some, hnext]
  exact ⟨_, _, rfl, hused⟩

theorem Sender.Ends.checked (h : Sender.Ends n next) (codes : List Status) (failOnMatch : Bool) :
    Sender.Ends n (checked codes failOnMatch next) := by
  intro request w
  obtain ⟨result, w', hnext, hgrows, hused⟩ := h request w
  simp only [Courier.checked, Run.bind_apply, hnext, Option.bind_some]
  cases result with
  | error e => exact ⟨_, _, rfl, hgrows, hused⟩
  | ok response =>
    have hspent := hused.resolve_right (by simp)
    dsimp only
    split
    · exact ⟨_, _, rfl, hgrows, .inl hspent⟩
    · exact ⟨_, _, rfl, hgrows, .inl hspent⟩

theorem Sender.Ends.closing (h : Sender.Ends n next) : Sender.Ends n (closing next) := by
  intro request w
  obtain ⟨result, w', hnext, hgrows, hused⟩ := h request w
  simp only [Courier.closing, Run.bind_apply, hnext, Option.bind_some]
  cases result with
  | ok response => exact ⟨_, _, rfl, hgrows, hused⟩
  | error e =>
    simp only [Run.bind_apply, Run.lift_apply, SendError.closeResponse_apply, Option.bind_some]
    refine ⟨_, _, rfl, hgrows, hused.imp_right fun hcancelled => ?_⟩
    obtain rfl := Except.error.inj hcancelled
    rfl

theorem Sender.Ends.delayed (h : Sender.Ends n next) (delay : Duration) :
    Sender.Ends n (delayed delay next) := by
  intro request w
  have hsent := pause_sent delay request.cancellable w
  simp only [Courier.delayed, Run.bind_apply, Run.lift_apply, Option.bind_some]
  generalize pause delay request.cancellable w = waited at hsent ⊢
  obtain ⟨outcome, v⟩ := waited
  replace hsent : v.sent = w.sent := hsent
  cases outcome with
  | cancelled => exact ⟨_, _, rfl, Nat.le_of_eq hsent.symm, .inr rfl⟩
  | finished =>
    obtain ⟨result, w', hnext, hgrows, hused⟩ := h request v
    rw [hsent] at hgrows hused
    exact ⟨result, w', hnext, hgrows, hused⟩

/-- A failed attempt that is repeated has used up a request. -/
theorem Sender.Ends.retried (h : Sender.Ends n next) (policy : RetryPolicy) (limit : Budget) :
    Sender.Ends n (retried policy limit next) := by
  intro request w
  -- What is left of the `n` requests gets less with every attempt that is repeated.
  refine Run.iterate_ends (fun _ v => w.sent ≤ v.sent)
    (fun result w' => UsesUp n w w' result) (fun _ v => n - v.sent) ?_ (Nat.le_refl _)
  intro attempts v hv
  obtain ⟨result, back, called, hgrows, hused⟩ := h request v
  cases hends : endsRetry limit (attempts + 1) (back.clock - w.clock) result with
  | true =>
    refine .inr ⟨result, back, retryTurn_eq_some_iff.2 (.last called hends), by omega, ?_⟩
    exact hused.imp_left fun hspent => by omega
  | false =>
    obtain ⟨e, rfl, hcancelled⟩ := exists_error_of_goes hends
    have hspent := hused.resolve_right fun he => hcancelled (Except.error.inj he)
    have hsent := pause_sent (policy.delayForRetry attempts) request.cancellable
      (back.putsAway policy request attempts e)
    cases hp : pause (policy.delayForRetry attempts) request.cancellable
        (back.putsAway policy request attempts e) with
    | mk outcome u =>
      rw [hp] at hsent
      replace hsent : u.sent = back.sent := hsent
      cases outcome with
      | finished =>
        exact .inl ⟨_, u, retryTurn_eq_some_iff.2 (.again called hends hp), by omega, by omega⟩
      | cancelled =>
        exact .inr ⟨_, u, retryTurn_eq_some_iff.2 (.interrupted called hends hp), by omega,
          .inr rfl⟩

theorem Sender.Ends.decorate (h : Sender.Ends n next) (step : SendStep) :
    Sender.Ends n (step.decorate next) := by
  cases step with
  | asIs => exact h
  | logging title => exact h.logged title
  | errorIf codes => exact h.checked codes true
  | errorUnless codes => exact h.checked codes false
  | closeIfError => exact h.closing
  | afterDelay delay => exact h.delayed delay
  | retry policy limit => exact h.retried policy limit
  | probe name => exact h.probed name

theorem Sender.Ends.decorateSender (h : Sender.Ends n next) (steps : List SendStep) :
    Sender.Ends n (decorateSender steps next) := by
  induction steps with
  | nil => exact h
  | cons step rest ih => exact ih.decorate step

theorem Sender.Ends.returns (h : Sender.Ends n next) (request : Request) :
    Run.Returns (next request) := by
  intro w
  obtain ⟨result, w', hnext, -⟩ := h request w
  rw [hnext]
  rfl

/-! ## Polls, sessions and runs -/

/-- A poll that is followed by another one has used up a request. -/
theorem Sender.Ends.poll (h : Sender.Ends n next) (plan : PollingPlan) (delay : Duration)
    (request : Request) : Run.Returns (poll next plan delay request) := by
  intro w
  have hloop : ∃ a w', Run.iterate (pollTurn next plan w.clock) ⟨0, delay, request, none⟩ w =
      some (a, w') ∧ True := by
    refine Run.iterate_ends (fun _ _ => True) (fun _ _ => True) (fun _ v => n - v.sent) ?_ trivial
    intro p v _
    have hsent := pause_sent p.delay p.request.cancellable v
    cases hp : pause p.delay p.request.cancellable v with
    | mk outcome u =>
      rw [hp] at hsent
      replace hsent : u.sent = v.sent := hsent
      cases outcome with
      | cancelled => exact .inr ⟨_, u, pollTurn_eq_some_iff.2 (.inl ⟨hp, rfl⟩), trivial⟩
      | finished =>
        obtain ⟨result, back, called, hgrows, hused⟩ := h p.request u
        have hcall : next.callAfter p.delay p.request v = some ⟨p.request, u, result, back⟩ :=
          Sender.callAfter_eq_some.2 ⟨hp, rfl, called⟩
        cases ha : p.after plan w.clock result back with
        | mk outcome v' =>
          have hafter := Polling.after_eq_iff.1 ha
          have hturn := pollTurn_eq_some_iff.2 (.inr ⟨_, hcall, hafter⟩)
          cases outcome with
          | inr result' => exact .inr ⟨result', v', hturn, trivial⟩
          | inl q =>
            -- The loop goes on only from a poll that was not cancelled.
            refine .inl ⟨q, v', hturn, trivial, ?_⟩
            cases hafter with
            | again goes =>
              have hspent := hused.resolve_right fun he => by
                obtain rfl := Except.error.inj he
                simp [PollingPlan.endsAt, SendError.isCancelled] at goes
              simp only [World.write]
              omega
            | pending =>
              have hspent := hused.resolve_right (by simp)
              simp only [World.write]
              omega
  obtain ⟨a, w', hrun, -⟩ := hloop
  exact Option.isSome_iff_exists.2 ⟨(a, w'), hrun⟩

theorem Sender.Ends.pollAsNeeded (h : Sender.Ends n next) (s : Session) (r : Response)
    (cancellable : Bool) : Run.Returns (s.pollAsNeeded next r cancellable) := by
  intro w
  unfold Session.pollAsNeeded
  cases s.shouldPoll r with
  | false => rfl
  | true =>
    rw [if_neg (by simp)]
    simp only [Run.bind_apply, Run.lift_apply, Option.bind_some]
    generalize pollingRequest s.authorizer cancellable r w = asked
    obtain ⟨⟨outcome, r'⟩, v⟩ := asked
    cases outcome with
    | error e => rfl
    | ok request =>
      simp only [Run.bind_apply, Run.lift_apply, Option.bind_some]
      generalize s.inspect request v = inspected
      obtain ⟨outcome, u⟩ := inspected
      cases outcome with
      | error e => rfl
      | ok request => exact h.poll _ _ request u

theorem Sender.Ends.send (h : Sender.Ends n next) (s : Session) (request : Request)
    (steps : List SendStep) : Run.Returns (s.send next request steps) := by
  intro w
  simp only [Session.send, Run.bind_apply, Run.lift_apply, Option.bind_some]
  generalize s.prepareRequest request w = prepared
  obtain ⟨outcome, v⟩ := prepared
  cases outcome with
  | error e => rfl
  | ok request => exact (h.decorateSender steps).returns request v

theorem Sender.Ends.execute (h : Sender.Ends n next) (s : Session) (request : Request) :
    Run.Returns (s.execute next request) := by
  intro w
  obtain ⟨⟨result, v⟩, hsend⟩ := Option.isSome_iff_exists.1
    (h.send s request [.retryAttempts s.retryAttempts s.retryBackoff] w)
  simp only [Session.execute, Run.bind_apply, hsend, Option.bind_some]
  cases result with
  | error e => rfl
  | ok response => exact h.pollAsNeeded s response request.cancellable v

theorem Sender.Ends.perform (h : Sender.Ends n next) (s : Settings) (files : FileTree)
    (now : Instant) : Run.Returns (perform s files now next) := by
  intro w
  have hfollow : ∀ session r, Run.Returns (s.follow session next r) := by
    intro session r v
    unfold Settings.follow
    cases s.polling.enabled with
    | true => exact h.pollAsNeeded session r true v
    | false => rfl
  have hsendIn : ∀ session request, Run.Returns (s.sendIn session next request) := by
    intro session request v
    obtain ⟨⟨result, u⟩, hsend⟩ := Option.isSome_iff_exists.1 (h.send session request
      [.retryPolicy s.retry, .logging runTitle, .errorIf retryableCodes] v)
    simp only [Settings.sendIn, Run.bind_apply, hsend, Option.bind_some]
    cases result with
    | ok response => exact hfollow session response u
    | error e => cases e <;> first | exact hfollow session _ u | rfl
  simp only [Courier.perform, Run.bind_apply, Run.lift_apply, Option.bind_some]
  generalize s.credentials.authorizer files now w = authorized
  obtain ⟨outcome, v⟩ := authorized
  cases outcome with
  | error e => rfl
  | ok authorizer =>
    simp only [Run.bind_apply, Run.lift_apply, Option.bind_some]
    generalize s.request v = asked
    obtain ⟨outcome, u⟩ := asked
    cases outcome with
    | error e => rfl
    | ok request =>
      obtain ⟨⟨result, x⟩, hsend⟩ :=
        Option.isSome_iff_exists.1 (hsendIn (s.session authorizer) request u)
      simp only [Run.bind_apply, hsend, Option.bind_some]
      cases result <;> rfl

end Steps

end Courier
