import Courier.Polling.Loop
import Courier.Proofs.Exchange.Actions

set_option autoImplicit false

/-! # One turn of a poll loop

A turn waits and polls. What it brings depends on the outcome of the poll alone: an error ends the
loop or is put away; a response ends the loop if the operation is over, if the budget is used up or
if the location that it leaves in force leads nowhere, and else it is closed and the next poll goes
to that location. -/

namespace Courier

/-! ## Progress -/

/-- An operation has ended exactly if its response does not ask for more polling. -/
theorem PollingState.isTerminal_ofResponse (r : Response) (usual : Duration)
    (codes : List Status) :
    (PollingState.ofResponse r usual codes).status.isTerminal = !r.requiresPolling codes := by
  unfold PollingState.ofResponse OperationStatus.ofCode
  cases r.requiresPolling codes with
  | true => rfl
  | false => cases r.status.isSuccess <;> rfl

/-- The progress after one more response. -/
def PollingState.after (s : PollingState) (r : Response) (usual : Duration) (codes : List Status) :
    PollingState :=
  { PollingState.ofResponse r usual codes with url := r.pollingLocation?.orElse fun _ => s.url }

/-- Recording a response closes the body of the one before. -/
theorem PollingState.record_apply (s : PollingState) (r : Response) (usual : Duration)
    (codes : List Status) (w : World) :
    s.record r usual codes w =
      (s.after r usual codes, w.write (s.last.closingEvents "Failed to close response body")) := by
  simp [PollingState.record, PollingState.after, Response.closeBody_apply, PollingState.ofResponse]

/-- The location that is in force after a response: its own, or else the one before. -/
def Polling.location? (p : Polling) (r : Response) : Option String :=
  r.pollingLocation?.orElse fun _ => p.progress.bind PollingState.url

/-- The progress after a response. -/
def Polling.progressAfter (p : Polling) (plan : PollingPlan) (r : Response) : PollingState :=
  { PollingState.ofResponse r plan.usualDelay plan.codes with url := p.location? r }

/-- What recording a response leaves in the journal: the response before it is closed. -/
def Polling.recordingEvents (p : Polling) : List Event :=
  (p.progress.map fun s => s.last.closingEvents "Failed to close response body").getD []

theorem Polling.record_apply (p : Polling) (plan : PollingPlan) (r : Response) (w : World) :
    p.record plan r w = (p.progressAfter plan r, w.write p.recordingEvents) := by
  unfold Polling.record Polling.progressAfter Polling.location? Polling.recordingEvents
  cases p.progress with
  | none => cases h : r.pollingLocation? <;> simp [PollingState.ofResponse, h]
  | some s => exact s.record_apply r plan.usualDelay plan.codes w

/-- The request for the poll after a pending response. -/
def Polling.requestAfter (p : Polling) (r : Response) : Except PrepareError Request :=
  match p.location? r with
  | some location => p.request.follow location
  | none => .ok p.request

/-! ## What follows from a poll -/

variable {plan : PollingPlan} {start : Nat} {p : Polling} {w : World}

/-- Whether an error ends the loop: the caller has cancelled or the budget is used up. -/
def PollingPlan.endsAt (plan : PollingPlan) (attempts elapsedMillis : Nat) (e : SendError) : Bool :=
  e.isCancelled || plan.budget.isExhausted attempts elapsedMillis

theorem Polling.after_failed {e : SendError}
    (h : plan.endsAt (p.attempts + 1) (w.clock - start) e = true) :
    p.after plan start (.error e) w = (.inr (.error e), w) := by
  unfold PollingPlan.endsAt at h
  show (if (e.isCancelled || plan.budget.isExhausted (p.attempts + 1) (w.clock - start)) = true
    then _ else _ : Act (Polling ⊕ SendResult)) w = _
  rw [if_pos h, Act.pure_apply]

theorem Polling.after_again {e : SendError}
    (h : plan.endsAt (p.attempts + 1) (w.clock - start) e = false) :
    p.after plan start (.error e) w =
      (.inl { p with attempts := p.attempts + 1 },
        w.write (.logged .debug (p.failureMessage e) :: e.closingEvents)) := by
  unfold PollingPlan.endsAt at h
  show (if (e.isCancelled || plan.budget.isExhausted (p.attempts + 1) (w.clock - start)) = true
    then _ else _ : Act (Polling ⊕ SendResult)) w = _
  rw [if_neg (by simp [h])]
  simp [SendError.closeResponse_apply]

/-- What the end of an operation leaves in the journal. -/
def Polling.endEvents (p : Polling) (plan : PollingPlan) (r : Response) : List Event :=
  p.recordingEvents ++ [.logged .debug (p.endMessage (p.progressAfter plan r))]

/-- What a pending response that leads nowhere leaves in the journal: it is let go. -/
def Polling.strayEvents (p : Polling) (r : Response) : List Event :=
  p.recordingEvents ++ r.closingEvents "Failed to close dropped response body"

/-- What a pending response leaves in the journal: its body is closed. -/
def Polling.pendingEvents (p : Polling) (plan : PollingPlan) (r : Response) (request : Request) :
    List Event :=
  p.recordingEvents ++ .logged .debug (p.pendingMessage (p.progressAfter plan r) request) ::
    r.closingEvents "Failed to close response body"

/-- Where the loop stands after a pending response. -/
def Polling.next (p : Polling) (plan : PollingPlan) (r : Response) (request : Request) : Polling :=
  ⟨p.attempts + 1, r.pollingDelay plan.usualDelay, request,
    some { p.progressAfter plan r with last := r.closed }⟩

/-- How a loop goes on from the outcome of a poll. -/
inductive PollAfter (plan : PollingPlan) (start : Nat) (p : Polling) (w : World) :
    SendResult → Polling ⊕ SendResult → World → Prop
  | failed {e : SendError} (ends : plan.endsAt (p.attempts + 1) (w.clock - start) e = true) :
      PollAfter plan start p w (.error e) (.inr (.error e)) w
  | again {e : SendError} (goes : plan.endsAt (p.attempts + 1) (w.clock - start) e = false) :
      PollAfter plan start p w (.error e) (.inl { p with attempts := p.attempts + 1 })
        (w.write (.logged .debug (p.failureMessage e) :: e.closingEvents))
  | finished {r : Response} (ended : r.requiresPolling plan.codes = false) :
      PollAfter plan start p w (.ok r) (.inr (.ok r)) (w.write (p.endEvents plan r))
  | exhausted {r : Response} (requires : r.requiresPolling plan.codes = true)
      (ends : plan.budget.isExhausted (p.attempts + 1) (w.clock - start) = true) :
      PollAfter plan start p w (.ok r) (.inr (.error (.rejection p.request r)))
        (w.write p.recordingEvents)
  | astray {r : Response} {e : PrepareError} (requires : r.requiresPolling plan.codes = true)
      (goes : plan.budget.isExhausted (p.attempts + 1) (w.clock - start) = false)
      (nowhere : p.requestAfter r = .error e) :
      PollAfter plan start p w (.ok r) (.inr (.error (.prepare e))) (w.write (p.strayEvents r))
  | pending {r : Response} {request : Request} (requires : r.requiresPolling plan.codes = true)
      (goes : plan.budget.isExhausted (p.attempts + 1) (w.clock - start) = false)
      (leads : p.requestAfter r = .ok request) :
      PollAfter plan start p w (.ok r) (.inl (p.next plan r request))
        (w.write (p.pendingEvents plan r request))

/-- The progress after a response says whether the operation is over. -/
theorem Polling.isTerminal_progressAfter (p : Polling) (plan : PollingPlan) (r : Response) :
    (p.progressAfter plan r).status.isTerminal = !r.requiresPolling plan.codes :=
  PollingState.isTerminal_ofResponse r plan.usualDelay plan.codes

/-- What follows from a response, once it has been recorded. -/
theorem Polling.after_ok (p : Polling) (plan : PollingPlan) (start : Nat) (r : Response)
    (w : World) :
    p.after plan start (.ok r) w =
      (if (p.progressAfter plan r).status.isTerminal then do
        log .debug (p.endMessage (p.progressAfter plan r))
        pure (.inr (.ok r))
      else if plan.budget.isExhausted (p.attempts + 1) (w.clock - start) then
        pure (.inr (.error (.rejection p.request r)))
      else
        match p.requestAfter r with
        | .error e => do
          r.drop
          pure (.inr (.error (.prepare e)))
        | .ok request => do
          log .debug (p.pendingMessage (p.progressAfter plan r) request)
          let current ← (p.progressAfter plan r).closeResponse
          pure (.inl ⟨p.attempts + 1, current.delay, request, some current⟩) :
        Act (Polling ⊕ SendResult)) (w.write p.recordingEvents) := by
  show (do
    let current ← p.record plan r
    if current.status.isTerminal then
      log .debug (p.endMessage current)
      pure (.inr (.ok current.last))
    else if plan.budget.isExhausted (p.attempts + 1) (w.clock - start) then
      pure (.inr (.error (.rejection p.request current.last)))
    else
      match current.nextRequest p.request with
      | .error e =>
        current.last.drop
        pure (.inr (.error (.prepare e)))
      | .ok request =>
        log .debug (p.pendingMessage current request)
        let current ← current.closeResponse
        pure (.inl ⟨p.attempts + 1, current.delay, request, some current⟩) :
      Act (Polling ⊕ SendResult)) w = _
  rw [Act.bind_apply, Polling.record_apply]
  rfl

theorem Polling.after_finished {r : Response} (h : r.requiresPolling plan.codes = false) :
    p.after plan start (.ok r) w = (.inr (.ok r), w.write (p.endEvents plan r)) := by
  rw [Polling.after_ok, if_pos (by rw [Polling.isTerminal_progressAfter, h]; rfl)]
  simp [Polling.endEvents]

theorem Polling.after_exhausted {r : Response} (h : r.requiresPolling plan.codes = true)
    (ends : plan.budget.isExhausted (p.attempts + 1) (w.clock - start) = true) :
    p.after plan start (.ok r) w =
      (.inr (.error (.rejection p.request r)), w.write p.recordingEvents) := by
  rw [Polling.after_ok, if_neg (by simp [Polling.isTerminal_progressAfter, h]), if_pos ends,
    Act.pure_apply]

theorem Polling.after_astray {r : Response} {e : PrepareError}
    (h : r.requiresPolling plan.codes = true)
    (goes : plan.budget.isExhausted (p.attempts + 1) (w.clock - start) = false)
    (nowhere : p.requestAfter r = .error e) :
    p.after plan start (.ok r) w = (.inr (.error (.prepare e)), w.write (p.strayEvents r)) := by
  rw [Polling.after_ok, if_neg (by simp [Polling.isTerminal_progressAfter, h]),
    if_neg (by simp [goes]), nowhere]
  simp [Response.drop_apply, Polling.strayEvents]

theorem Polling.after_pending {r : Response} {request : Request}
    (h : r.requiresPolling plan.codes = true)
    (goes : plan.budget.isExhausted (p.attempts + 1) (w.clock - start) = false)
    (leads : p.requestAfter r = .ok request) :
    p.after plan start (.ok r) w =
      (.inl (p.next plan r request), w.write (p.pendingEvents plan r request)) := by
  rw [Polling.after_ok, if_neg (by simp [Polling.isTerminal_progressAfter, h]),
    if_neg (by simp [goes]), leads]
  simp [PollingState.closeResponse, Response.closeBody_apply, Polling.pendingEvents, Polling.next,
    Polling.progressAfter, PollingState.ofResponse]

theorem Polling.after_eq_iff {result : SendResult} {outcome : Polling ⊕ SendResult} {w' : World} :
    p.after plan start result w = (outcome, w') ↔
      PollAfter plan start p w result outcome w' := by
  constructor
  · intro h
    cases result with
    | error e =>
      cases he : plan.endsAt (p.attempts + 1) (w.clock - start) e with
      | true =>
        rw [Polling.after_failed he] at h
        obtain ⟨rfl, rfl⟩ := Prod.mk.inj h
        exact .failed he
      | false =>
        rw [Polling.after_again he] at h
        obtain ⟨rfl, rfl⟩ := Prod.mk.inj h
        exact .again he
    | ok r =>
      cases hr : r.requiresPolling plan.codes with
      | false =>
        rw [Polling.after_finished hr] at h
        obtain ⟨rfl, rfl⟩ := Prod.mk.inj h
        exact .finished hr
      | true =>
        cases he : plan.budget.isExhausted (p.attempts + 1) (w.clock - start) with
        | true =>
          rw [Polling.after_exhausted hr he] at h
          obtain ⟨rfl, rfl⟩ := Prod.mk.inj h
          exact .exhausted hr he
        | false =>
          cases hn : p.requestAfter r with
          | error e =>
            rw [Polling.after_astray hr he hn] at h
            obtain ⟨rfl, rfl⟩ := Prod.mk.inj h
            exact .astray hr he hn
          | ok request =>
            rw [Polling.after_pending hr he hn] at h
            obtain ⟨rfl, rfl⟩ := Prod.mk.inj h
            exact .pending hr he hn
  · intro h
    cases h with
    | failed ends => exact Polling.after_failed ends
    | again goes => exact Polling.after_again goes
    | finished ended => exact Polling.after_finished ended
    | exhausted requires ends => exact Polling.after_exhausted requires ends
    | astray requires goes nowhere => exact Polling.after_astray requires goes nowhere
    | pending requires goes leads => exact Polling.after_pending requires goes leads

/-! ## The turn -/

/-- A turn is interrupted, or it polls and goes on from there. -/
theorem pollTurn_eq_some_iff {sender : Sender} {w' : World} {outcome : Polling ⊕ SendResult} :
    pollTurn sender plan start p w = some (outcome, w') ↔
      (pause p.delay p.request.cancellable w = (.cancelled, w') ∧
        outcome = .inr (.error .cancelled)) ∨
      ∃ c, sender.callAfter p.delay p.request w = some c ∧
        PollAfter plan start p c.back c.result outcome w' := by
  simp only [pollTurn, Run.bind_apply, Run.lift_apply, Option.bind_some, Sender.callAfter_eq_some]
  cases hp : pause p.delay p.request.cancellable w with
  | mk waited v =>
    cases waited with
    | cancelled =>
      constructor
      · intro h
        obtain ⟨rfl, rfl⟩ := Prod.mk.inj (Option.some.inj h)
        exact .inl ⟨rfl, rfl⟩
      · rintro (⟨hwait, rfl⟩ | ⟨c, ⟨hwait, -⟩, -⟩)
        · obtain ⟨-, rfl⟩ := Prod.mk.inj hwait
          rfl
        · exact absurd (Prod.mk.inj hwait).1 (by simp)
    | finished =>
      constructor
      · intro h
        obtain ⟨⟨result, back⟩, called, hafter⟩ := Option.bind_eq_some_iff.1 h
        exact .inr ⟨⟨p.request, v, result, back⟩, ⟨rfl, rfl, called⟩,
          Polling.after_eq_iff.1 (Option.some.inj hafter)⟩
      · rintro (⟨hwait, -⟩ | ⟨c, ⟨hwait, -, called⟩, hafter⟩)
        · exact absurd (Prod.mk.inj hwait).1 (by simp)
        · obtain ⟨-, rfl⟩ := Prod.mk.inj hwait
          simp only [Run.bind_apply, called, Option.bind_some, Run.lift_apply,
            Polling.after_eq_iff.2 hafter]

end Courier
