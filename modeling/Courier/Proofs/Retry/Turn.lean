import Courier.Proofs.Exchange.Actions

set_option autoImplicit false

/-! # One turn of a retry

An attempt ends the retry, or its response is closed, a message is logged and the delay of the
policy passes before the next attempt. -/

namespace Courier

variable {policy : RetryPolicy} {limit : Budget} {request : Request} {start attempts : Nat}

/-- Whether a result is the last one: it is no error, the caller has cancelled or the budget is used
    up. -/
def endsRetry (limit : Budget) (attempts elapsedMillis : Nat) : SendResult → Bool
  | .ok _ => true
  | .error e => e.isCancelled || limit.isExhausted attempts elapsedMillis

/-- An attempt that is not the last one has failed and was not cancelled. -/
theorem exists_error_of_goes {millis : Nat} {result : SendResult}
    (h : endsRetry limit attempts millis result = false) :
    ∃ e, result = .error e ∧ e ≠ .cancelled := by
  cases result with
  | ok response => simp [endsRetry] at h
  | error e =>
    refine ⟨e, rfl, ?_⟩
    rintro rfl
    simp [endsRetry, SendError.isCancelled] at h

/-- The world when a failed attempt has been put away and the wait for the next one begins. -/
def World.putsAway (w : World) (policy : RetryPolicy) (request : Request) (attempts : Nat)
    (e : SendError) : World :=
  w.write (e.closingEvents ++
    [.logged .debug (retryMessage request (attempts + 1) e (policy.delayForRetry attempts))])

theorem retryAfter_last {result : SendResult} {w : World}
    (h : endsRetry limit (attempts + 1) (w.clock - start) result = true) :
    retryAfter policy limit request start attempts result w = (.inr result, w) := by
  cases result with
  | ok response => rfl
  | error e =>
    unfold endsRetry at h
    show (if (e.isCancelled || limit.isExhausted (attempts + 1) (w.clock - start)) = true then _
      else _ : Act (Nat ⊕ SendResult)) w = _
    rw [if_pos h, Act.pure_apply]

/-- What the wait after a failed attempt comes to. -/
def afterRetryWait (attempts : Nat) : Pause × World → (Nat ⊕ SendResult) × World
  | (.finished, w) => (.inl (attempts + 1), w)
  | (.cancelled, w) => (.inr (.error .cancelled), w)

theorem retryAfter_again {e : SendError} {w : World}
    (h : endsRetry limit (attempts + 1) (w.clock - start) (.error e) = false) :
    retryAfter policy limit request start attempts (.error e) w =
      afterRetryWait attempts (pause (policy.delayForRetry attempts) request.cancellable
        (w.putsAway policy request attempts e)) := by
  unfold endsRetry at h
  show (if (e.isCancelled || limit.isExhausted (attempts + 1) (w.clock - start)) = true then _
    else _ : Act (Nat ⊕ SendResult)) w = _
  rw [if_neg (by simp [h])]
  simp only [Act.bind_apply, SendError.closeResponse_apply, log_apply, World.write_write,
    World.putsAway]
  generalize pause _ _ _ = p
  obtain ⟨outcome, v⟩ := p
  cases outcome <;> rfl

/-- How a turn can go: the attempt ends the retry, or the wait after it is over, or the wait is
    interrupted. -/
inductive RetryTurn (policy : RetryPolicy) (limit : Budget) (next : Sender) (request : Request)
    (start attempts : Nat) (w : World) : Nat ⊕ SendResult → World → Prop
  | last {result : SendResult} {v : World} (called : next request w = some (result, v))
      (ends : endsRetry limit (attempts + 1) (v.clock - start) result = true) :
      RetryTurn policy limit next request start attempts w (.inr result) v
  | again {e : SendError} {v w' : World} (called : next request w = some (.error e, v))
      (goes : endsRetry limit (attempts + 1) (v.clock - start) (.error e) = false)
      (waited : pause (policy.delayForRetry attempts) request.cancellable
        (v.putsAway policy request attempts e) = (.finished, w')) :
      RetryTurn policy limit next request start attempts w (.inl (attempts + 1)) w'
  | interrupted {e : SendError} {v w' : World} (called : next request w = some (.error e, v))
      (goes : endsRetry limit (attempts + 1) (v.clock - start) (.error e) = false)
      (waited : pause (policy.delayForRetry attempts) request.cancellable
        (v.putsAway policy request attempts e) = (.cancelled, w')) :
      RetryTurn policy limit next request start attempts w (.inr (.error .cancelled)) w'

theorem retryTurn_eq_some_iff {next : Sender} {w w' : World} {outcome : Nat ⊕ SendResult} :
    retryTurn policy limit next request start attempts w = some (outcome, w') ↔
      RetryTurn policy limit next request start attempts w outcome w' := by
  simp only [retryTurn, Run.bind_apply, Run.lift_apply]
  constructor
  · intro h
    cases hn : next request w with
    | none => simp [hn] at h
    | some p =>
      obtain ⟨result, v⟩ := p
      simp only [hn, Option.bind_some, Option.some.injEq] at h
      cases he : endsRetry limit (attempts + 1) (v.clock - start) result with
      | true =>
        rw [retryAfter_last he] at h
        obtain ⟨rfl, rfl⟩ := Prod.mk.inj h
        exact .last hn he
      | false =>
        obtain ⟨e, rfl, -⟩ := exists_error_of_goes he
        rw [retryAfter_again he] at h
        cases hp : pause (policy.delayForRetry attempts) request.cancellable
            (v.putsAway policy request attempts e) with
        | mk outcome u =>
          rw [hp] at h
          cases outcome with
          | finished =>
            obtain ⟨rfl, rfl⟩ := Prod.mk.inj h
            exact .again hn he hp
          | cancelled =>
            obtain ⟨rfl, rfl⟩ := Prod.mk.inj h
            exact .interrupted hn he hp
  · intro h
    cases h with
    | last called ends =>
      rw [called, Option.bind_some, retryAfter_last ends]
    | again called goes waited =>
      rw [called, Option.bind_some, retryAfter_again goes, waited]
      rfl
    | interrupted called goes waited =>
      rw [called, Option.bind_some, retryAfter_again goes, waited]
      rfl

end Courier
