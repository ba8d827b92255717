import Courier.Proofs.Bodies.Ledger
import Courier.Proofs.Exchange.Iterate
import Courier.Proofs.Retry.Turn

set_option autoImplicit false

/-! # The attempts of a retry

A retry is told by its calls: which requests it makes of the sender that it wraps, in which worlds,
and what each of them brings. The calls are the turns of the loop, so they are known for a retry
that never ends as well. The main statement says of a retry that is bounded by a number of attempts
how many calls there are, what lies between two of them and what comes of them. -/

namespace Courier

/-! ## Calls -/

section Calls

variable (policy : RetryPolicy) (limit : Budget) (next : Sender) (request : Request) (w : World)

/-- A call that a retry makes of the sender inside it, counted from zero, if the retry gets there
    and the sender comes back. -/
def retryCall (k : Nat) : Option Call :=
  (Run.reach (retryTurn policy limit next request w.clock) 0 w k).bind fun p =>
    next.call request p.2

variable {policy limit next request w}

/-- The state of the loop is the number of attempts. -/
theorem retry_reach {k n : Nat} {v : World}
    (h : Run.reach (retryTurn policy limit next request w.clock) 0 w k = some (n, v)) : n = k := by
  refine Run.reach_keeps (fun k n _ => n = k) ?_ rfl h
  rintro k n v n' v' rfl hturn
  cases retryTurn_eq_some_iff.1 hturn
  rfl

/-- The next call is made after the wait that a failed one calls for. -/
theorem retryCall_succ_eq_some {k : Nat} {d : Call} :
    retryCall policy limit next request w (k + 1) = some d ↔
      ∃ c e, retryCall policy limit next request w k = some c ∧ c.result = .error e ∧
        endsRetry limit (k + 1) (c.back.clock - w.clock) c.result = false ∧
        next.callAfter (policy.delayForRetry k) request (c.back.putsAway policy request k e) =
          some d := by
  unfold retryCall
  simp only [Sender.callAfter_eq_some]
  constructor
  · intro h
    obtain ⟨⟨n, v⟩, hreach, hcall⟩ := Option.bind_eq_some_iff.1 h
    obtain ⟨m, u, hk, hturn⟩ := Run.reach_succ_eq_some.1 hreach
    obtain rfl := retry_reach hk
    obtain ⟨hrequest, rfl, hcalled⟩ := Sender.call_eq_some.1 hcall
    cases retryTurn_eq_some_iff.1 hturn with
    | @again e x _ called goes waited =>
      refine ⟨⟨request, u, .error e, x⟩, e, ?_, rfl, goes, waited, hrequest, hcalled⟩
      rw [hk]
      exact Sender.call_eq_some.2 ⟨rfl, rfl, called⟩
  · rintro ⟨c, e, hc, hresult, goes, waited, hrequest, hcalled⟩
    obtain ⟨⟨n, u⟩, hk, hcall⟩ := Option.bind_eq_some_iff.1 hc
    obtain rfl := retry_reach hk
    obtain ⟨-, -, called⟩ := Sender.call_eq_some.1 hcall
    rw [hresult] at called goes
    have hturn := retryTurn_eq_some_iff.2 (.again called goes waited)
    rw [Run.reach_succ_eq_some.2 ⟨n, u, hk, hturn⟩]
    exact Sender.call_eq_some.2 ⟨hrequest, rfl, hcalled⟩

/-- A retry comes to what its last call brings, or is interrupted in the wait after a call. -/
theorem retried_eq_some_iff {result : SendResult} {w' : World} :
    retried policy limit next request w = some (result, w') ↔
      ∃ k c, retryCall policy limit next request w k = some c ∧
        ((endsRetry limit (k + 1) (c.back.clock - w.clock) c.result = true ∧
            c.result = result ∧ c.back = w') ∨
          ∃ e, c.result = .error e ∧
            endsRetry limit (k + 1) (c.back.clock - w.clock) c.result = false ∧
            pause (policy.delayForRetry k) request.cancellable
              (c.back.putsAway policy request k e) = (.cancelled, w') ∧
            result = .error .cancelled) := by
  show Run.iterate (retryTurn policy limit next request w.clock) 0 w = some (result, w') ↔ _
  rw [Run.iterate_eq_some_iff]
  unfold retryCall
  constructor
  · rintro ⟨k, n, v, hreach, hturn⟩
    obtain rfl := retry_reach hreach
    rw [retryTurn_eq_some_iff] at hturn
    cases hturn with
    | last called ends =>
      refine ⟨n, ⟨request, v, result, w'⟩, ?_, .inl ⟨ends, rfl, rfl⟩⟩
      rw [hreach]
      exact Sender.call_eq_some.2 ⟨rfl, rfl, called⟩
    | @interrupted e x _ called goes waited =>
      refine ⟨n, ⟨request, v, .error e, x⟩, ?_, .inr ⟨e, rfl, goes, waited, rfl⟩⟩
      rw [hreach]
      exact Sender.call_eq_some.2 ⟨rfl, rfl, called⟩
  · rintro ⟨k, c, hc, h⟩
    obtain ⟨⟨n, v⟩, hreach, hcall⟩ := Option.bind_eq_some_iff.1 hc
    obtain rfl := retry_reach hreach
    obtain ⟨-, -, called⟩ := Sender.call_eq_some.1 hcall
    refine ⟨n, n, v, hreach, retryTurn_eq_some_iff.2 ?_⟩
    rcases h with ⟨ends, rfl, rfl⟩ | ⟨e, hresult, goes, waited, rfl⟩
    · exact .last called ends
    · rw [hresult] at called goes
      exact .interrupted called goes waited

/-- An attempt that succeeds is the last one. -/
theorem retried_of_ok {r : Response} {w' : World} (h : next request w = some (.ok r, w')) :
    retried policy limit next request w = some (.ok r, w') :=
  retried_eq_some_iff.2 ⟨0, ⟨request, w, .ok r, w'⟩, Sender.call_eq_some.2 ⟨rfl, rfl, h⟩,
    .inl ⟨rfl, rfl, rfl⟩⟩

/-- The call after one that has failed, if it is not the last. -/
theorem retryCall_succ {k : Nat} {c : Call} {e : SendError}
    (hc : retryCall policy limit next request w k = some c) (hresult : c.result = .error e)
    (goes : endsRetry limit (k + 1) (c.back.clock - w.clock) c.result = false) :
    retryCall policy limit next request w (k + 1) =
      next.callAfter (policy.delayForRetry k) request (c.back.putsAway policy request k e) := by
  refine Option.ext fun d => ?_
  rw [retryCall_succ_eq_some]
  constructor
  · rintro ⟨c', e', hc', hresult', -, hcall⟩
    obtain rfl : c = c' := Option.some.inj (hc.symm.trans hc')
    obtain rfl : e = e' := Except.error.inj (hresult.symm.trans hresult')
    exact hcall
  · intro hcall
    exact ⟨c, e, hc, hresult, goes, hcall⟩

/-- Every call before another one has been made as well and was not the last. -/
theorem retryCall_before {i k : Nat} {d : Call} (hik : i < k)
    (h : retryCall policy limit next request w k = some d) :
    ∃ c, retryCall policy limit next request w i = some c ∧
      endsRetry limit (i + 1) (c.back.clock - w.clock) c.result = false := by
  induction k generalizing d with
  | zero => omega
  | succ k ih =>
    obtain ⟨c, e, hc, -, goes, -⟩ := retryCall_succ_eq_some.1 h
    rcases Nat.lt_or_eq_of_le (Nat.le_of_lt_succ hik) with hlt | rfl
    · exact ih hlt hc
    · exact ⟨c, hc, goes⟩

/-- All calls are for the request that was to be sent. -/
theorem retryCall_request {k : Nat} {c : Call}
    (h : retryCall policy limit next request w k = some c) : c.request = request := by
  obtain ⟨_, -, hcall⟩ := Option.bind_eq_some_iff.1 h
  exact (Sender.call_eq_some.1 hcall).1

end Calls

/-! ## A number of attempts -/

/-- Whether the result of an attempt, counted from zero, is the last one of at most `n`; there is
    always one attempt. -/
def FinalAttempt (n k : Nat) (result : SendResult) : Prop :=
  (∃ response, result = .ok response) ∨ result = .error .cancelled ∨ max n 1 ≤ k + 1

theorem endsRetry_attempts (n k elapsed : Nat) (result : SendResult) :
    endsRetry (.attempts n) (k + 1) elapsed result = true ↔ FinalAttempt n k result := by
  have hmax : max n 1 ≤ k + 1 ↔ n ≤ k + 1 := by omega
  unfold FinalAttempt
  rw [hmax]
  cases result with
  | ok response => simp [endsRetry]
  | error e => cases e <;> simp [endsRetry, SendError.isCancelled, Budget.isExhausted]

theorem endsRetry_attempts_eq_false (n k elapsed : Nat) (result : SendResult) :
    endsRetry (.attempts n) (k + 1) elapsed result = false ↔ ¬FinalAttempt n k result := by
  rw [← endsRetry_attempts n k elapsed, Bool.not_eq_true]

/-- Putting a failed attempt away and waiting closes the reader of its response once, no other. -/
theorem closesIn_putsAway (w : World) (policy : RetryPolicy) (request : Request) (attempts : Nat)
    (e : SendError) (d : Duration) (n : Nat) :
    closesIn (((w.putsAway policy request attempts e).wait d).since w) n =
      if SendResult.openReader? (.error e) = some n then 1 else 0 := by
  have hsince : ((w.putsAway policy request attempts e).wait d).since w =
      w.since w ++ _ := World.since_write (List.prefix_refl w.journal) _
  rw [hsince, World.since_self, List.nil_append]
  exact (e.closesJust_closingEvents.append_quiet rfl).closesIn_map w.clock n

/-- A retry with a number of attempts comes to something if its sender always comes back. -/
theorem retried_attempts_isSome {policy : RetryPolicy} {n : Nat} {next : Sender}
    {request : Request} (returns : ∀ v, (next request v).isSome = true) (w : World) :
    (retried policy (.attempts n) next request w).isSome = true := by
  have hloop : ∃ a w', Run.iterate
      (retryTurn policy (.attempts n) next request w.clock) 0 w = some (a, w') ∧ True := by
    refine Run.iterate_ends (fun attempts _ => attempts < max n 1) (fun _ _ => True)
      (fun attempts _ => max n 1 - attempts) ?_ (by omega)
    intro attempts v hlt
    obtain ⟨⟨result, back⟩, called⟩ := Option.isSome_iff_exists.1 (returns v)
    cases hends : endsRetry (.attempts n) (attempts + 1) (back.clock - w.clock) result with
    | true => exact .inr ⟨_, _, retryTurn_eq_some_iff.2 (.last called hends), trivial⟩
    | false =>
      have hgoes := (endsRetry_attempts_eq_false ..).1 hends
      have hleft : attempts + 1 < max n 1 :=
        Nat.lt_of_not_le fun hle => hgoes (.inr (.inr hle))
      obtain ⟨e, rfl, -⟩ := exists_error_of_goes hends
      cases hp : pause (policy.delayForRetry attempts) request.cancellable
          (back.putsAway policy request attempts e) with
      | mk outcome u =>
        cases outcome with
        | cancelled =>
          exact .inr ⟨_, _, retryTurn_eq_some_iff.2 (.interrupted called hends hp), trivial⟩
        | finished =>
          exact .inl ⟨_, _, retryTurn_eq_some_iff.2 (.again called hends hp), hleft, by omega⟩
  obtain ⟨a, w', hrun, -⟩ := hloop
  exact Option.isSome_iff_exists.2 ⟨(a, w'), hrun⟩

/-- A wait between two attempts was interrupted, and that was the end. -/
def RetryInterrupted (policy : RetryPolicy) (next : Sender) (request : Request) (w w' : World) :
    Prop :=
  ∃ k c e, retryCall policy (.attempts policy.maxAttempts) next request w k = some c ∧
    c.result = .error e ∧ ¬FinalAttempt policy.maxAttempts k c.result ∧
    pause (policy.delayForRetry k) request.cancellable
      (c.back.putsAway policy request k e) = (.cancelled, w')

/-- **The attempts of a policy.** Calls are counted from zero. The first is made at once; all are
    for the same request, and there are never more than the policy allows. A call that is not the
    last one has failed: the body of its response is closed, once, and a message is logged; then
    there is a wait for the delay of the policy and then the next call. The wait is for begun
    milliseconds, never for longer, and in full if it should be over within `2 ^ 63` of them. After
    the last call there is none. The retry comes to the result of the first call that succeeds, that
    the caller cancelled or that is the last one allowed, in the world in which it came back; unless
    a wait is interrupted, which comes to a cancellation. The retry comes back if its sender always
    does. -/
theorem retryPolicy_attempts (policy : RetryPolicy) (next : Sender) (request : Request)
    (w : World) :
    let call := retryCall policy (.attempts policy.maxAttempts) next request w
    let retry := (SendStep.retryPolicy policy).decorate next request w
    call 0 = next.call request w ∧
    (∀ k c, call k = some c → c.request = request ∧ k < max policy.maxAttempts 1 ∧
      ∀ i < k, ∃ b, call i = some b ∧ ¬FinalAttempt policy.maxAttempts i b.result) ∧
    (∀ k c, call k = some c → ¬FinalAttempt policy.maxAttempts k c.result →
      ∃ e, c.result = .error e ∧
        let delay := policy.delayForRetry k
        let away := c.back.write
          (e.closingEvents ++ [.logged .debug (retryMessage request (k + 1) e delay)])
        call (k + 1) = next.callAfter delay request away ∧
        (∀ d, call (k + 1) = some d → d.sent = away.wait delay ∧
          c.back.clock ≤ d.sent.clock ∧ d.sent.clock ≤ c.back.clock + delay.ceilMillis ∧
          (c.back.clock + delay.ceilMillis ≤ 2 ^ 63 →
            d.sent.clock = c.back.clock + delay.ceilMillis)) ∧
        ∀ n, closesIn ((away.wait delay).since c.back) n =
          if SendResult.openReader? c.result = some n then 1 else 0) ∧
    (∀ k c, call k = some c → FinalAttempt policy.maxAttempts k c.result →
      ∀ j, k < j → call j = none) ∧
    (∀ result w', retry = some (result, w') ↔
      (∃ k c, call k = some c ∧ FinalAttempt policy.maxAttempts k c.result ∧
        c.result = result ∧ c.back = w') ∨
      RetryInterrupted policy next request w w' ∧ result = .error .cancelled) ∧
    ((∀ v, (next request v).isSome = true) → retry.isSome = true) := by
  refine ⟨rfl, ?_, ?_, ?_, ?_, ?_⟩
  · intro k c hc
    have hbefore : ∀ i < k, ∃ b,
        retryCall policy (.attempts policy.maxAttempts) next request w i = some b ∧
          ¬FinalAttempt policy.maxAttempts i b.result := by
      intro i hik
      obtain ⟨b, hb, hgoes⟩ := retryCall_before hik hc
      exact ⟨b, hb, (endsRetry_attempts_eq_false ..).1 hgoes⟩
    refine ⟨retryCall_request hc, ?_, hbefore⟩
    -- A call beyond the number allowed would come after one that was the last.
    refine Nat.lt_of_not_le fun hle => ?_
    obtain ⟨b, -, hb⟩ := hbefore (max policy.maxAttempts 1 - 1) (by omega)
    exact hb (.inr (.inr (by omega)))
  · intro k c hc hgoes
    rw [← endsRetry_attempts_eq_false policy.maxAttempts k (c.back.clock - w.clock)] at hgoes
    obtain ⟨e, hresult, -⟩ := exists_error_of_goes hgoes
    have hnext := retryCall_succ hc hresult hgoes
    refine ⟨e, hresult, hnext, fun d hd => ?_, fun n => ?_⟩
    · rw [hnext] at hd
      have hsent := pause_finished (Sender.callAfter_eq_some.1 hd).1
      exact ⟨hsent, hsent ▸ World.wait_clock _ _⟩
    · rw [hresult]
      exact closesIn_putsAway ..
  · intro k c hc final j hkj
    refine Option.eq_none_iff_forall_ne_some.2 fun d hd => ?_
    obtain ⟨b, hb, hgoes⟩ := retryCall_before hkj hd
    obtain rfl : c = b := Option.some.inj (hc.symm.trans hb)
    exact (endsRetry_attempts_eq_false ..).1 hgoes final
  · intro result w'
    rw [show (SendStep.retryPolicy policy).decorate next request w =
      retried policy (.attempts policy.maxAttempts) next request w from rfl, retried_eq_some_iff]
    constructor
    · rintro ⟨k, c, hc, ⟨ends, hr, hw⟩ | ⟨e, hresult, goes, waited, rfl⟩⟩
      · exact .inl ⟨k, c, hc, (endsRetry_attempts ..).1 ends, hr, hw⟩
      · exact .inr ⟨⟨k, c, e, hc, hresult, (endsRetry_attempts_eq_false ..).1 goes, waited⟩, rfl⟩
    · rintro (⟨k, c, hc, final, hr, hw⟩ | ⟨⟨k, c, e, hc, hresult, final, waited⟩, rfl⟩)
      · exact ⟨k, c, hc, .inl ⟨(endsRetry_attempts ..).2 final, hr, hw⟩⟩
      · exact ⟨k, c, hc,
          .inr ⟨e, hresult, (endsRetry_attempts_eq_false ..).2 final, waited, rfl⟩⟩
  · intro returns
    exact retried_attempts_isSome returns w

end Courier
