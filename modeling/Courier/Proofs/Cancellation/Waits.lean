import Courier.Proofs.Cancellation.Conduct
import Courier.Proofs.Exchange.Stages

set_option autoImplicit false

/-! # The waits of a call

Which waits a call makes, and in which worlds they begin. A call that waits for a request can have
its waits cancelled if the request says so; here this is taken for granted. A wait is counted
whether it ends by itself, is cut short or does not begin. -/

namespace Courier

/-- The waits that are made for a request from some world on. -/
abbrev SendWaits := Request → World → Wait → Prop

/-! ## Senders -/

/-- A wait, and if it ends by itself the waits after it. -/
def delayedWaits (delay : Duration) (waits : SendWaits) : SendWaits := fun request w x =>
  x = ⟨w, delay⟩ ∨ ∃ v, pause delay request.cancellable w = (.finished, v) ∧ waits request v x

/-- The waits of the turns of a loop. -/
inductive Run.Waits {σ α : Type} (turn : σ → Run (σ ⊕ α)) (waits : σ → World → Wait → Prop) :
    σ → World → Wait → Prop
  | here {s : σ} {w : World} {x : Wait} (made : waits s w x) : Run.Waits turn waits s w x
  | later {s s' : σ} {w v : World} {x : Wait} (next : turn s w = some (.inl s', v))
      (made : Run.Waits turn waits s' v x) : Run.Waits turn waits s w x

/-- The waits of an attempt, and the one after it if it has failed and is not the last. -/
def retryTurnWaits (policy : RetryPolicy) (limit : Budget) (next : Sender) (waits : SendWaits)
    (request : Request) (start attempts : Nat) (w : World) (x : Wait) : Prop :=
  waits request w x ∨ ∃ e v, next request w = some (.error e, v) ∧
    endsRetry limit (attempts + 1) (v.clock - start) (.error e) = false ∧
    x = ⟨v.putsAway policy request attempts e, policy.delayForRetry attempts⟩

/-- The waits of a sender in a step, and of this step. -/
def SendStep.waits : SendStep → Sender → SendWaits → SendWaits
  | .logging title, _, waits => fun request w => waits request
    (log .info (title ++ ": Sending " ++ (request.method.name ++ " " ++ request.urlText)) w).2
  | .probe name, _, waits => fun request w => waits request (record (.entered name) w).2
  | .afterDelay delay, _, waits => delayedWaits delay waits
  | .retry policy limit, next, waits => fun request w =>
    Run.Waits (retryTurn policy limit next request w.clock)
      (retryTurnWaits policy limit next waits request w.clock) 0 w
  | _, _, waits => waits

/-- The waits of a stack of steps around the transport, which makes none itself. -/
def stepsWaits : List SendStep → SendWaits
  | [] => fun _ _ _ => False
  | step :: rest => step.waits (decorateSender rest transport) (stepsWaits rest)

/-! ## Polls, sessions and runs -/

/-- The waits of a loop of polls: the one before each poll, and those of the sender. -/
def pollWaits (sender : Sender) (waits : SendWaits) (plan : PollingPlan) (firstDelay : Duration) :
    SendWaits := fun request w =>
  Run.Waits (pollTurn sender plan w.clock) (fun p v => delayedWaits p.delay waits p.request v)
    ⟨0, firstDelay, request, none⟩ w

/-- The waits of a session that polls if need be. -/
def Session.pollingWaits (s : Session) (sender : Sender) (waits : SendWaits) (r : Response)
    (cancellable : Bool) (w : World) (x : Wait) : Prop :=
  s.shouldPoll r = true ∧
    match s.preparePolling cancellable r w with
    | (.ok request, v) =>
      pollWaits sender waits s.plan (r.pollingDelay s.pollingDelay) request v x
    | (.error _, _) => False

/-- The waits of a session that sends a request, again if it fails, and polls if need be. -/
def Session.executeWaits (s : Session) (sender : Sender) (waits : SendWaits) : SendWaits :=
  fun request w x =>
    let again := SendStep.retryAttempts s.retryAttempts s.retryBackoff
    match s.prepareRequest request w with
    | (.ok prepared, v) => again.waits sender waits prepared v x ∨
      match again.decorate sender prepared v with
      | some (.ok r, u) => s.pollingWaits sender waits r request.cancellable u x
      | _ => False
    | (.error _, _) => False

/-- The waits of the exchanges of a run: those of its attempts, and of the polls that follow. -/
def Settings.sendWaits (s : Settings) (session : Session) : SendWaits := fun request w x =>
  match session.prepareRequest request w with
  | (.ok prepared, v) =>
    stepsWaits [.retryPolicy s.retry, .logging runTitle, .errorIf retryableCodes] prepared v x ∨
      match s.attempts transport prepared v with
      | some (last, u) => s.polling.enabled = true ∧
        match SendResult.response? last with
        | some r => session.pollingWaits transport (stepsWaits []) r true u x
        | none => False
      | none => False
  | (.error _, _) => False

/-- The waits of a run. -/
def Settings.waits (s : Settings) (files : FileTree) (now : Instant) (w : World) (x : Wait) :
    Prop :=
  match s.credentials.authorizer files now w with
  | (.ok authorizer, v) =>
    match s.request v with
    | (.ok request, u) => s.sendWaits (s.session authorizer) request u x
    | (.error _, _) => False
  | (.error _, _) => False

end Courier
