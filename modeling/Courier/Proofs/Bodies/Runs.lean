import Courier.Proofs.Bodies.Polling
import Courier.Proofs.Bodies.Responders

set_option autoImplicit false

/-! # Readers during a run

A run sends, polls and judges, and then lets go of the response. It comes to a text or to an error;
only an error of sending can still bring a response. -/

namespace Courier

variable {start : World}

/-- The reader that stays open as long as the error of a run does. -/
def RunResult.openReader? : RunResult → Option Nat
  | .error (.send e) => SendResult.openReader? (.error e)
  | _ => none

/-- What letting go of the result of a run leaves in the journal. -/
def RunResult.droppingEvents : RunResult → List Event
  | .error (.send e) => SendResult.droppingEvents (.error e)
  | _ => []

theorem RunResult.drop_apply (result : RunResult) (w : World) :
    RunResult.drop result w = ((), w.write (RunResult.droppingEvents result)) := by
  cases result with
  | ok text => simp [RunResult.drop, RunResult.droppingEvents]
  | error e =>
    cases e with
    | send e => exact SendResult.drop_apply (.error e) w
    | token e => simp [RunResult.drop, RunResult.droppingEvents]
    | prepare e => simp [RunResult.drop, RunResult.droppingEvents]
    | respond e => simp [RunResult.drop, RunResult.droppingEvents]
    | unexpectedStatus status body => simp [RunResult.drop, RunResult.droppingEvents]
    | output e => simp [RunResult.drop, RunResult.droppingEvents]

/-- The books after the result of a run has been dropped. -/
theorem Ledger.drop_run {w : World} {result : RunResult}
    (h : Ledger start w (RunResult.openReader? result)) :
    Ledger start (w.write (RunResult.droppingEvents result)) none := by
  unfold RunResult.droppingEvents
  split
  · exact h.write_closing (SendResult.closesJust_droppingEvents _)
  · rename_i hother
    rw [World.write_nil]
    unfold RunResult.openReader? at h
    split at h
    · exact absurd rfl (hother _)
    · exact h

/-- Judging a response never brings it back in an error. -/
theorem RunResult.openReader?_judge (expect : List Status) (r : Response) (w : World) :
    RunResult.openReader? (judge expect r w).1.1 = none := by
  dsimp only [judge, Act.bind_apply]
  generalize respond _ _ w = handled
  obtain ⟨⟨result, h⟩, v⟩ := handled
  cases result with
  | error e => rfl
  | ok _ =>
    dsimp only
    split
    · rfl
    · dsimp only [Act.bind_apply]
      generalize h.response.bufferBody v = buffered
      obtain ⟨⟨content, r'⟩, u⟩ := buffered
      cases content <;> rfl

/-- What a response says of itself is only logged. -/
theorem Ledger.logIdentity {w : World} {held : Option Nat} (h : Ledger start w held)
    (r : Response) : Ledger start (Courier.logIdentity r w).2 held := by
  unfold Courier.logIdentity
  generalize (r.header? "date").bind _ = date
  cases date <;> cases r.requestId? <;> cases r.clientId? <;> first
    | exact h
    | simp only [Act.bind_apply, log_apply, World.write_write]
      exact h.write_quiet (by simp [Event.isQuiet])

/-- Loading credentials leaves the books alone. -/
theorem Ledger.authorizer {w : World} {held : Option Nat} (h : Ledger start w held)
    (c : Credentials) (files : FileTree) (now : Instant) :
    Ledger start (c.authorizer files now w).2 held := by
  unfold Credentials.authorizer
  cases c with
  | absent => exact h
  | bearer token => exact h
  | tokenFile path =>
    dsimp only
    cases Token.load path files with
    | error e => exact h
    | ok token =>
      dsimp only
      cases token.isExpired now with
      | error _ => exact h
      | ok isExpired =>
        cases isExpired with
        | true => exact h.write_quiet_one _ rfl
        | false => exact h

/-- Preparing the request of a run leaves the books alone. -/
theorem Ledger.request {w : World} {held : Option Nat} (h : Ledger start w held) (s : Settings) :
    Ledger start (s.request w).2 held := by
  unfold Settings.request
  exact h.prepareIn _ _

variable {sender : Sender}

/-- A run hands over the response of its request, or of the operation that this has begun. -/
theorem Settings.sendIn_handover (s : Settings) (session : Session)
    (h : Sender.Careful False sender) {request : Request} {w w' : World} {result : SendResult}
    (hw : Ledger start w none)
    (hrun : s.sendIn session sender request w = some (result, w')) :
    Handover start False result w' := by
  have hfollow : ∀ {r v}, Ledger start v (Response.openReader? r) → r.IsUnclosed →
      s.follow session sender r v = some (result, w') → Handover start False result w' := by
    intro r v hv hr hrun
    unfold Settings.follow at hrun
    cases hp : s.polling.enabled with
    | true =>
      rw [hp, if_pos rfl] at hrun
      exact session.pollAsNeeded_handover h hv hr hrun
    | false =>
      rw [hp, if_neg (by simp)] at hrun
      obtain ⟨rfl, rfl⟩ := Prod.mk.inj (Option.some.inj hrun)
      exact .of_ok hv hr
  simp only [Settings.sendIn, Run.bind_apply] at hrun
  obtain ⟨⟨answer, v⟩, hsend, hrest⟩ := Option.bind_eq_some_iff.1 hrun
  have hv : Handover start False answer v := by
    refine (session.send_handover h hw hsend).weaken ?_
    rintro (hc | hmem)
    · exact hc
    · simp [SendStep.retryPolicy] at hmem
  cases answer with
  | ok r => exact hfollow hv.ledger hv.isUnclosed_of_ok hrest
  | error e =>
    cases e with
    | unexpectedStatus method url status r =>
      have hr : r.IsUnclosed := (hv.unclosed r rfl).resolve_left fun hc => hc.1
      exact hfollow hv.ledger hr hrest
    | transport e =>
      obtain ⟨rfl, rfl⟩ := Prod.mk.inj (Option.some.inj hrest)
      exact hv
    | prepare e =>
      obtain ⟨rfl, rfl⟩ := Prod.mk.inj (Option.some.inj hrest)
      exact hv
    | missingLocation status =>
      obtain ⟨rfl, rfl⟩ := Prod.mk.inj (Option.some.inj hrest)
      exact hv
    | cancelled =>
      obtain ⟨rfl, rfl⟩ := Prod.mk.inj (Option.some.inj hrest)
      exact hv

/-- A run leaves nothing held but the response of an error of sending. -/
theorem perform_ledger (s : Settings) (files : FileTree) (now : Instant)
    (h : Sender.Careful False sender) {w w' : World} {result : RunResult}
    (hw : Ledger start w none) (hrun : perform s files now sender w = some (result, w')) :
    Ledger start w' (RunResult.openReader? result) := by
  have hauthorized := hw.authorizer s.credentials files now
  simp only [perform, Run.bind_apply, Run.lift_apply, Option.bind_some] at hrun
  generalize s.credentials.authorizer files now w = authorized at hrun hauthorized
  obtain ⟨outcome, v⟩ := authorized
  cases outcome with
  | error e =>
    obtain ⟨rfl, rfl⟩ := Prod.mk.inj (Option.some.inj hrun)
    exact hauthorized
  | ok authorizer =>
    have hasked := hauthorized.request s
    simp only [Run.bind_apply, Run.lift_apply, Option.bind_some] at hrun
    generalize s.request v = asked at hrun hasked
    obtain ⟨outcome, u⟩ := asked
    cases outcome with
    | error e =>
      obtain ⟨rfl, rfl⟩ := Prod.mk.inj (Option.some.inj hrun)
      exact hasked
    | ok request =>
      obtain ⟨⟨answer, x⟩, hsend, hrest⟩ := Option.bind_eq_some_iff.1 hrun
      have hx := s.sendIn_handover (s.session authorizer) h hasked hsend
      cases answer with
      | error e =>
        obtain ⟨rfl, rfl⟩ := Prod.mk.inj (Option.some.inj hrest)
        exact hx.ledger
      | ok r =>
        have hjudged := (Ledger.logIdentity hx.ledger r).judge s.expect
        have hverdict := RunResult.openReader?_judge s.expect r (logIdentity r x).2
        simp only [Run.bind_apply, Run.lift_apply, Option.bind_some] at hrest
        generalize judge s.expect r _ = judged at hrest hjudged hverdict
        obtain ⟨⟨verdict, r'⟩, y⟩ := judged
        -- The response is dropped after it has been judged, and the verdict brings none.
        have hdropped := hjudged.write_closing
          (r'.closesJust_closingEvents "Failed to close dropped response body")
        obtain ⟨rfl, rfl⟩ := Prod.mk.inj (Option.some.inj hrest)
        rw [show RunResult.openReader? verdict = none from hverdict]
        rwa [Response.drop_apply]

end Courier
