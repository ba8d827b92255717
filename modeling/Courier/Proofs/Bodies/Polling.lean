import Courier.Proofs.Bodies.Senders
import Courier.Proofs.Polling.Calls
import Courier.Session

set_option autoImplicit false

/-! # Readers while an operation is polled

Between two polls nothing is held: the response of a poll that goes on is closed before the next
wait. When polling begins with a response that has been accepted, that response is closed first. -/

namespace Courier

variable {start : World} {closes : Prop} {sender : Sender}

/-! ## The loop -/

/-- The books on a call after a wait. -/
theorem Sender.Careful.callAfter (h : Sender.Careful closes sender) {w : World}
    (hw : Ledger start w none) {delay : Duration} {request : Request} {c : Call}
    (hc : sender.callAfter delay request w = some c) : Handover start closes c.result c.back := by
  obtain ⟨waited, -, called⟩ := Sender.callAfter_eq_some.1 hc
  exact h start request c.sent c.result c.back (hw.pause waited) called

/-- A turn that goes on puts the outcome of its poll away. -/
theorem PollAfter.ledger {plan : PollingPlan} {begun : Nat} {p q : Polling} {v w' : World}
    {result : SendResult} (hafter : PollAfter plan begun p v result (.inl q) w')
    (hp : p.recordingEvents = []) (hv : Handover start closes result v) :
    Ledger start w' none ∧ q.recordingEvents = [] := by
  cases hafter with
  | @again e _ =>
    refine ⟨?_, hp⟩
    have hlogged := (hv.ledger.write_quiet_one (.logged .debug (p.failureMessage e)) rfl)
      |>.write_closing e.closesJust_closingEvents
    rwa [World.write_write] at hlogged
  | @pending r request _ _ _ =>
    refine ⟨?_, by simp [Polling.next, Polling.recordingEvents]⟩
    have hclosed := (hv.ledger.write_quiet_one
      (.logged .debug (p.pendingMessage (p.progressAfter plan r) request)) rfl)
      |>.write_closing (r.closesJust_closingEvents "Failed to close response body")
    rw [World.write_write] at hclosed
    rwa [Polling.pendingEvents, hp]

/-- A last turn hands over what its poll has brought. -/
theorem PollAfter.handover {plan : PollingPlan} {begun : Nat} {p : Polling} {v w' : World}
    {answer result : SendResult} (hafter : PollAfter plan begun p v answer (.inr result) w')
    (hp : p.recordingEvents = []) (hv : Handover start closes answer v) :
    Handover start closes result w' := by
  cases hafter with
  | failed => exact hv
  | finished =>
    rw [Polling.endEvents, hp]
    exact hv.write_quiet_one _ rfl
  | exhausted =>
    rw [hp, World.write_nil]
    exact hv.reject p.request
  | @astray r _ _ _ _ =>
    rw [Polling.strayEvents, hp]
    exact .of_no_response (hv.ledger.write_closing (r.closesJust_closingEvents _)) rfl

/-- A loop of polls hands over its response. -/
theorem poll_handover (h : Sender.Careful closes sender) {plan : PollingPlan} {delay : Duration}
    {request : Request} {w w' : World} {result : SendResult} (hw : Ledger start w none)
    (hrun : poll sender plan delay request w = some (result, w')) :
    Handover start closes result w' := by
  have hbegin : Ledger start w none ∧ (⟨0, delay, request, none⟩ : Polling).recordingEvents = [] :=
    ⟨hw, rfl⟩
  -- The invariant: nothing is held before a wait, and the response in the progress is closed.
  refine Run.iterate_keeps (fun p v => Ledger start v none ∧ p.recordingEvents = [])
    (fun result w' => Handover start closes result w') ?_ ?_ hbegin hrun
  · rintro p v q v' ⟨hv, hp⟩ hturn
    rcases pollTurn_eq_some_iff.1 hturn with ⟨-, hstop⟩ | ⟨c, hcall, hafter⟩
    · exact absurd hstop (by simp)
    · exact hafter.ledger hp (h.callAfter hv hcall)
  · rintro p v answer v' ⟨hv, hp⟩ hturn
    rcases pollTurn_eq_some_iff.1 hturn with ⟨hwait, hstop⟩ | ⟨c, hcall, hafter⟩
    · obtain rfl := Sum.inr.inj hstop
      exact .of_no_response (hv.pause hwait) rfl
    · exact hafter.handover hp (h.callAfter hv hcall)

/-! ## Preparing -/

theorem forM_prepared_apply (probes : List PrepareProbe) (w : World) :
    (forM probes fun probe => record (.prepared probe) : Act PUnit) w =
      ((), w.write (probes.map .prepared)) := by
  induction probes generalizing w with
  | nil => simp
  | cons probe rest ih =>
      rw [List.forM_cons, Act.bind_apply, ih, record_apply, World.write_write]
      rfl

/-- Preparing a request records what probes see and does nothing else. -/
theorem prepareIn_apply (steps : List PrepareStep) (base : Request) (w : World) :
    prepareIn steps base w =
      ((prepare steps base).outcome.1, w.write ((prepare steps base).outcome.2.map .prepared)) := by
  unfold prepareIn
  simp [forM_prepared_apply]

/-- Preparing a request leaves the books alone. -/
theorem Ledger.prepareIn {w : World} {held : Option Nat} (h : Ledger start w held)
    (steps : List PrepareStep) (base : Request) :
    Ledger start (Courier.prepareIn steps base w).2 held := by
  rw [prepareIn_apply]
  refine h.write_quiet fun event he => ?_
  obtain ⟨_, -, rfl⟩ := List.mem_map.1 he
  rfl

/-- The request for polling closes the response that has been accepted; a failure brings none. -/
theorem pollingRequest_ledger {w : World} {r : Response} (h : Ledger start w r.openReader?)
    (authorizer : PrepareStep) (cancellable : Bool) :
    Ledger start (pollingRequest authorizer cancellable r w).2 none ∧
      ∀ e, (pollingRequest authorizer cancellable r w).1.1 = .error e → e.response? = none := by
  have hclosed := h.write_closing (r.closesJust_closingEvents "Failed to close response body")
  unfold pollingRequest
  simp only [Act.bind_apply, Response.closeBody_apply]
  cases r.pollingLocation? with
  | none =>
    refine ⟨hclosed, fun e he => ?_⟩
    obtain rfl := Except.error.inj he
    rfl
  | some url =>
    have hprepared := hclosed.prepareIn [.method .get, .baseUrl url, authorizer] Request.empty
    simp only [Act.bind_apply]
    generalize prepareIn _ _ _ = prepared at hprepared ⊢
    obtain ⟨outcome, v⟩ := prepared
    cases outcome with
    | error cause =>
      refine ⟨hprepared, fun e he => ?_⟩
      obtain rfl := Except.error.inj he
      rfl
    | ok request => exact ⟨hprepared, fun e he => absurd he (by simp)⟩

/-! ## Sessions -/

/-- A session that polls if need be hands over a response, which may be the one it was given. -/
theorem Session.pollAsNeeded_handover (s : Session) (h : Sender.Careful closes sender)
    {r : Response} {cancellable : Bool} {w w' : World} {result : SendResult}
    (hw : Ledger start w r.openReader?) (hr : r.IsUnclosed)
    (hrun : s.pollAsNeeded sender r cancellable w = some (result, w')) :
    Handover start closes result w' := by
  unfold Session.pollAsNeeded at hrun
  cases hs : s.shouldPoll r with
  | false =>
    rw [hs] at hrun
    obtain ⟨rfl, rfl⟩ := Prod.mk.inj (Option.some.inj hrun)
    exact .of_ok hw hr
  | true =>
    rw [hs, if_neg (by simp)] at hrun
    simp only [Run.bind_apply, Run.lift_apply, Option.bind_some] at hrun
    obtain ⟨hv, hnone⟩ := pollingRequest_ledger hw s.authorizer cancellable
    generalize pollingRequest s.authorizer cancellable r w = asked at hrun hv hnone
    obtain ⟨⟨outcome, r'⟩, v⟩ := asked
    cases outcome with
    | error e =>
      obtain ⟨rfl, rfl⟩ := Prod.mk.inj (Option.some.inj hrun)
      exact .of_no_response hv (hnone e rfl)
    | ok request =>
      have hinspected := hv.prepareIn s.inspection request
      simp only [Run.bind_apply, Run.lift_apply, Option.bind_some, Session.inspect] at hrun
      generalize prepareIn _ request v = prepared at hrun hinspected
      obtain ⟨outcome, u⟩ := prepared
      cases outcome with
      | error e =>
        obtain ⟨rfl, rfl⟩ := Prod.mk.inj (Option.some.inj hrun)
        exact .of_no_response hinspected rfl
      | ok request => exact poll_handover h hinspected hrun

/-- A session that sends a request through steps hands over a response. -/
theorem Session.send_handover (s : Session) (h : Sender.Careful closes sender) {request : Request}
    {steps : List SendStep} {w w' : World} {result : SendResult} (hw : Ledger start w none)
    (hrun : s.send sender request steps w = some (result, w')) :
    Handover start (closes ∨ .closeIfError ∈ steps) result w' := by
  have hauthorized := hw.prepareIn [s.authorizer] request
  simp only [Session.send, Session.prepareRequest, Run.bind_apply, Run.lift_apply, Act.bind_apply,
    Option.bind_some] at hrun
  generalize prepareIn [s.authorizer] request w = authorized at hrun hauthorized
  obtain ⟨outcome, v⟩ := authorized
  cases outcome with
  | error e =>
    obtain ⟨rfl, rfl⟩ := Prod.mk.inj (Option.some.inj hrun)
    exact .of_no_response hauthorized rfl
  | ok request =>
    have hinspected :=
      hauthorized.prepareIn s.inspection request
    simp only [Session.inspect] at hrun
    generalize prepareIn _ request v = prepared at hrun hinspected
    obtain ⟨outcome, u⟩ := prepared
    cases outcome with
    | error e =>
      obtain ⟨rfl, rfl⟩ := Prod.mk.inj (Option.some.inj hrun)
      exact .of_no_response hinspected rfl
    | ok request => exact h.decorateSender steps start request u result w' hinspected hrun

/-- A session that sends and polls hands over a response. -/
theorem Session.execute_handover (s : Session) (h : Sender.Careful closes sender)
    {request : Request} {w w' : World} {result : SendResult} (hw : Ledger start w none)
    (hrun : s.execute sender request w = some (result, w')) : Handover start closes result w' := by
  simp only [Session.execute, Run.bind_apply] at hrun
  obtain ⟨⟨answer, v⟩, hsend, hrest⟩ := Option.bind_eq_some_iff.1 hrun
  have hv : Handover start closes answer v := by
    refine (s.send_handover h hw hsend).weaken ?_
    rintro (hc | hmem)
    · exact hc
    · exact absurd (List.mem_singleton.1 hmem) (by
        simp [SendStep.retryAttempts, SendStep.retryPolicy])
  cases answer with
  | error e =>
    obtain ⟨rfl, rfl⟩ := Prod.mk.inj (Option.some.inj hrest)
    exact hv
  | ok r => exact s.pollAsNeeded_handover h hv.ledger hv.isUnclosed_of_ok hrest

end Courier
