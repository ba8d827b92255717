import Courier.Proofs.Retry.Attempts
import Courier.Proofs.Retry.Doubling

set_option autoImplicit false

/-! # How long a retry within a span goes on

A retry within a span looks at the clock after each attempt and never cuts a wait short. Its waits
double at most, so that none is longer than the first one and all the waits before it together. The
last wait begins before the span is over; so when the retry gives up, less than twice the span and
the first wait have passed. Every wait takes at least a millisecond, and so it does give up.

The main statement is `retryDuration_window`. -/

namespace Courier

/-! ## Waits that double -/

/-- The wait after a failed attempt of a doubling retry, counted from zero, in begun
    milliseconds. -/
def backoffWait (b : Duration) (k : Nat) : Nat :=
  ((RetryPolicy.exponential b).delayForRetry k).ceilMillis

/-- With a first delay beyond a minute no wait is longer than the first delay. -/
theorem backoffWait_le_of_long {b : Duration} (long : 60000000000 ≤ b.nanos) (k : Nat) :
    backoffWait b k ≤ b.ceilMillis := by
  have hcap : (RetryPolicy.exponential b).cap.nanos = b.nanos := Nat.max_eq_right long
  have hdelay := (RetryPolicy.exponential b).delayForRetry_le_cap k
  rw [hcap] at hdelay
  unfold backoffWait Duration.ceilMillis
  omega

/-- The wait for an exact delay. -/
theorem backoffWait_of_short {b : Duration} (pos : 0 < b.nanos) (short : b.nanos ≤ 60000000000)
    (k : Nat) : backoffWait b k = (min (b.nanos * 2 ^ k) 60000000000 + 999999) / 1000000 := by
  unfold backoffWait
  rw [RetryPolicy.delayForRetry_exponential pos short]
  rfl

/-- The first wait is for no more than the first delay. -/
theorem backoffWait_zero_le {b : Duration} (pos : 0 < b.nanos) :
    backoffWait b 0 ≤ b.ceilMillis := by
  rcases Nat.le_total b.nanos 60000000000 with short | long
  · rw [backoffWait_of_short pos short]
    unfold Duration.ceilMillis
    omega
  · exact backoffWait_le_of_long long 0

section Timer

variable {b : Duration} (pos : 0 < b.nanos) (timer : Timer) (now k : Nat)
include pos

/-- There is always some wait. -/
theorem backoff_millis_pos :
    0 < timer.millis now ((RetryPolicy.exponential b).delayForRetry k) := by
  refine Nat.pos_of_ne_zero fun hzero => ?_
  have hdelay : ((RetryPolicy.exponential b).delayForRetry k).nanos = 0 :=
    congrArg Duration.nanos ((timer.millis_eq_zero now).1 hzero)
  rcases Nat.le_total b.nanos 60000000000 with short | long
  · have hgrown : 0 < b.nanos * 2 ^ k := Nat.mul_pos pos (Nat.two_pow_pos k)
    rw [RetryPolicy.delayForRetry_exponential pos short] at hdelay
    have hleast : min (b.nanos * 2 ^ k) 60000000000 = 0 := hdelay
    omega
  · have hsecond := RetryPolicy.second_le_delayForRetry (Nat.le_trans (by decide) long) k
    omega

/-- A later wait is for at most twice the time that the one before it took, or for no more than the
    first delay. A wait that a timer cuts short is one of the latter kind. -/
theorem backoffWait_succ_le : backoffWait b (k + 1) ≤
    max b.ceilMillis (2 * timer.millis now ((RetryPolicy.exponential b).delayForRetry k)) := by
  rcases Nat.le_total b.nanos 60000000000 with short | long
  · have hwait := backoffWait_of_short pos short k
    have hkept := timer.millis_eq now ((RetryPolicy.exponential b).delayForRetry k) <| by
      show backoffWait b k ≤ 0x8000000000000000
      omega
    rw [hkept, show ((RetryPolicy.exponential b).delayForRetry k).ceilMillis = _ from hwait,
      backoffWait_of_short pos short, Nat.pow_succ, ← Nat.mul_assoc]
    generalize b.nanos * 2 ^ k = delay
    omega
  · exact Nat.le_trans (backoffWait_le_of_long long _) (Nat.le_max_left _ _)

end Timer

/-! ## Attempts that fail at once -/

/-- A sender that fails to send a request whenever it is called, in the millisecond in which it is
    called, and never because the caller has cancelled. -/
def Sender.FailsAtOnce (next : Sender) (request : Request) : Prop :=
  ∀ v, (request.cancellable = true → v.cancelAt = none) →
    ∃ e v', next request v = some (.error e, v') ∧ e.isCancelled = false ∧ v'.clock = v.clock ∧
      (request.cancellable = true → v'.cancelAt = none)

/-- What holds before every attempt of a retry within a span: nobody has cancelled, less than twice
    the span and the first delay have passed, and the next wait is for no more than the first delay
    and all that has passed. -/
structure InWindow (span b : Duration) (request : Request) (start attempts : Nat) (v : World) :
    Prop where
  live : request.cancellable = true → v.cancelAt = none
  begun : start ≤ v.clock
  within : (v.clock - start) * 1000000 < 2 * span.nanos + b.ceilMillis * 1000000
  next : backoffWait b attempts ≤ b.ceilMillis + (v.clock - start)

/-- What holds when such a retry gives up. -/
structure GivesUp (span b : Duration) (start : Nat) (result : SendResult) (v : World) : Prop where
  failed : ∃ e, result = .error e ∧ e.isCancelled = false
  begun : start ≤ v.clock
  spent : span.nanos ≤ (v.clock - start) * 1000000
  within : (v.clock - start) * 1000000 < 2 * span.nanos + b.ceilMillis * 1000000

variable {next : Sender} {request : Request} {span b : Duration}

/-- An attempt uses up the span, or it is put away and some of the span passes before the next. -/
theorem InWindow.turn (fails : next.FailsAtOnce request) (pos : 0 < b.nanos) {start attempts : Nat}
    {v : World} (h : InWindow span b request start attempts v) :
    (∃ v', retryTurn (RetryPolicy.exponential b) (.duration span) next request start attempts v =
        some (.inl (attempts + 1), v') ∧ InWindow span b request start (attempts + 1) v' ∧
        span.nanos - (v'.clock - start) * 1000000 < span.nanos - (v.clock - start) * 1000000) ∨
      ∃ result v', retryTurn (RetryPolicy.exponential b) (.duration span) next request start
        attempts v = some (.inr result, v') ∧ GivesUp span b start result v' := by
  obtain ⟨e, v', called, heard, hclock, live⟩ := fails v h.live
  by_cases spent : span.nanos ≤ (v'.clock - start) * 1000000
  · right
    have ends : endsRetry (.duration span) (attempts + 1) (v'.clock - start) (.error e) = true := by
      rw [endsRetry, heard, Bool.false_or]
      exact decide_eq_true spent
    refine ⟨_, _, retryTurn_eq_some_iff.2 (.last called ends), ⟨⟨e, rfl, heard⟩, ?_, spent, ?_⟩⟩
    · rw [hclock]
      exact h.begun
    · rw [hclock]
      exact h.within
  · left
    have goes : endsRetry (.duration span) (attempts + 1) (v'.clock - start) (.error e) =
        false := by
      rw [endsRetry, heard, Bool.false_or]
      exact decide_eq_false spent
    have waited : pause ((RetryPolicy.exponential b).delayForRetry attempts) request.cancellable
        (v'.putsAway (RetryPolicy.exponential b) request attempts e) = (.finished, _) :=
      pause_finishes live
    have hlater : ((v'.putsAway (RetryPolicy.exponential b) request attempts e).wait
        ((RetryPolicy.exponential b).delayForRetry attempts)).clock =
          v.clock + v'.timer.millis v'.clock
            ((RetryPolicy.exponential b).delayForRetry attempts) := by
      rw [← hclock]
      rfl
    have hpos := backoff_millis_pos pos v'.timer v'.clock attempts
    have hle : v'.timer.millis v'.clock ((RetryPolicy.exponential b).delayForRetry attempts) ≤
        backoffWait b attempts := v'.timer.millis_le v'.clock _
    have hsucc := backoffWait_succ_le pos v'.timer v'.clock attempts
    have hbegun := h.begun
    have hnext := h.next
    rw [hclock] at spent
    refine ⟨_, retryTurn_eq_some_iff.2 (.again called goes waited), ⟨live, ?_, ?_, ?_⟩, ?_⟩
    · rw [hlater]
      omega
    · -- The wait began within the span and is for no more than the first delay and all before it.
      rw [hlater]
      omega
    · rw [hlater]
      omega
    · rw [hlater]
      omega

/-- A retry within a span gives up. -/
theorem retried_duration_givesUp (span : Duration) (fails : next.FailsAtOnce request)
    (pos : 0 < b.nanos) {w : World}
    (live : request.cancellable = true → w.cancelAt = none) :
    ∃ result w', retried (RetryPolicy.exponential b) (.duration span) next request w =
      some (result, w') ∧ GivesUp span b w.clock result w' := by
  refine Run.iterate_ends (InWindow span b request w.clock) (GivesUp span b w.clock)
    (fun _ v => span.nanos - (v.clock - w.clock) * 1000000) (fun attempts v h => ?_) ?_
  · rcases h.turn fails pos with ⟨v', hturn, hinv, hless⟩ | hlast
    · exact .inl ⟨_, v', hturn, hinv, hless⟩
    · exact .inr hlast
  · have hfirst := backoffWait_zero_le pos
    have hceil := b.ceilMillis_bounds
    refine ⟨live, Nat.le_refl _, ?_, ?_⟩
    · omega
    · omega

/-- **The time window of a retry within a span.** Against a sender that fails at once and for other
    reasons than a cancellation, a retry within a span comes to an end. It has made at least one
    attempt, makes no more after the last, and comes to the error of the last one. By then the span
    is over, and less than twice the span and the first delay have passed, the first delay counted
    in begun milliseconds; so at most five times the span, if the first delay is of whole
    milliseconds and at most three times the span. -/
theorem retryDuration_window (span b : Duration) (pos : 0 < b.nanos) (next : Sender)
    (request : Request) (fails : next.FailsAtOnce request) (w : World)
    (live : request.cancellable = true → w.cancelAt = none) :
    let call := retryCall (RetryPolicy.exponential b) (.duration span) next request w
    ∃ k c e, (∀ i ≤ k, (call i).isSome = true) ∧ call k = some c ∧ (∀ i, k < i → call i = none) ∧
      c.result = .error e ∧
      (SendStep.retryDuration span b).decorate next request w = some (.error e, c.back) ∧
      ∃ elapsed, c.back.clock = w.clock + elapsed ∧ span.nanos ≤ elapsed * 1000000 ∧
        elapsed * 1000000 < 2 * span.nanos + b.ceilMillis * 1000000 ∧
        (1000000 ∣ b.nanos → b.nanos ≤ 3 * span.nanos →
          elapsed * 1000000 ≤ 5 * span.nanos) := by
  intro call
  obtain ⟨result, w', hrun, hgives⟩ := retried_duration_givesUp span fails pos live
  obtain ⟨⟨e, rfl, heard⟩, hbegun, hspent, hwithin⟩ := hgives
  obtain ⟨k, c, hc, ⟨ends, hresult, rfl⟩ | ⟨-, -, -, -, hcancelled⟩⟩ := retried_eq_some_iff.1 hrun
  · refine ⟨k, c, e, fun i hik => ?_, hc, fun i hki => ?_, hresult, hrun, c.back.clock - w.clock,
      by omega, hspent, hwithin, fun hwhole hshort => ?_⟩
    · rcases Nat.lt_or_eq_of_le hik with hlt | rfl
      · obtain ⟨d, hd, -⟩ := retryCall_before hlt hc
        exact Option.isSome_iff_exists.2 ⟨d, hd⟩
      · exact Option.isSome_iff_exists.2 ⟨c, hc⟩
    · refine Option.eq_none_iff_forall_ne_some.2 fun d hd => ?_
      obtain ⟨b', hb', hgoes⟩ := retryCall_before hki hd
      obtain rfl : c = b' := Option.some.inj (hc.symm.trans hb')
      rw [ends] at hgoes
      exact absurd hgoes (by simp)
    · obtain ⟨millis, hmillis⟩ := hwhole
      unfold Duration.ceilMillis at hwithin
      omega
  · obtain rfl := Except.error.inj hcancelled
    exact absurd heard (by simp [SendError.isCancelled])

/-! ## A service that cannot be reached -/

/-- A sender to which every request times out at once. -/
def unreachable : Sender := fun _ w => some (.error (.transport .timeout), w)

theorem unreachable_failsAtOnce (request : Request) : unreachable.FailsAtOnce request :=
  fun v live => ⟨_, v, rfl, rfl, rfl, live⟩

/-- A retry for a tenth of a second, with a first delay of ten milliseconds, comes to that failure
    between a tenth and half of a second later. -/
theorem retryDuration_window_unreachable :
    0 < (Duration.ofMillis 10).nanos ∧ unreachable.FailsAtOnce Request.empty ∧
      World.quiet.cancelAt = none ∧ ∃ w',
      (SendStep.retryDuration (.ofMillis 100) (.ofMillis 10)).decorate unreachable Request.empty
        World.quiet = some (.error (.transport .timeout), w') ∧
      100 ≤ w'.clock ∧ w'.clock ≤ 500 := by
  have pos : 0 < (Duration.ofMillis 10).nanos := by decide
  have fails := unreachable_failsAtOnce Request.empty
  obtain ⟨k, c, e, -, hc, -, hresult, hrun, elapsed, hclock, hspent, -, hmost⟩ :=
    retryDuration_window (.ofMillis 100) (.ofMillis 10) pos unreachable Request.empty fails
      World.quiet (fun _ => rfl)
  obtain ⟨_, -, hcall⟩ := Option.bind_eq_some_iff.1 hc
  have hanswer := (Prod.mk.inj (Option.some.inj (Sender.call_eq_some.1 hcall).2.2)).1
  obtain rfl : SendError.transport .timeout = e := Except.error.inj (hanswer.trans hresult)
  have hfive := hmost (by decide) (by decide)
  have hstart : World.quiet.clock = 0 := rfl
  have hspan : (Duration.ofMillis 100).nanos = 100000000 := rfl
  exact ⟨pos, fails, rfl, c.back, hrun, by omega, by omega⟩

end Courier
