import Courier.Crash
import Courier.Time.Duration

set_option autoImplicit false

/-! # Backoff

How long to wait before an attempt is repeated. The delays grow by a factor from attempt to attempt
up to a cap; they are worked out in binary floating point and rounded to nanoseconds. -/

namespace Courier

/-- How often an attempt is repeated, and after which delays. -/
structure RetryPolicy where
  maxAttempts : Nat
  initialDelay : Duration
  maxDelay : Duration
  multiplier : Binary64
  deriving DecidableEq

/-- Three attempts, with delays that double from five seconds up to a minute. -/
def RetryPolicy.standard : RetryPolicy :=
  ⟨3, .ofSeconds 5, .ofSeconds 60, Binary64.ofNat 2⟩

/-- Delays that double from a given one. -/
def RetryPolicy.exponential (backoff : Duration) : RetryPolicy :=
  { RetryPolicy.standard with initialDelay := backoff }

/-- Sets the number of attempts; there is always one. -/
def RetryPolicy.withMaxAttempts (p : RetryPolicy) (n : Nat) : RetryPolicy :=
  { p with maxAttempts := max n 1 }

/-- Sets the delay before the first repetition. -/
def RetryPolicy.withInitialDelay (p : RetryPolicy) (d : Duration) : RetryPolicy :=
  { p with initialDelay := d }

/-- Sets the longest delay. -/
def RetryPolicy.withMaxDelay (p : RetryPolicy) (d : Duration) : RetryPolicy :=
  { p with maxDelay := d }

/-- Sets the factor between delays, which must be at least one. -/
def RetryPolicy.withMultiplier (p : RetryPolicy) (m : Binary64) : Except Crash RetryPolicy :=
  if (Binary64.ofNat 1).le m then .ok { p with multiplier := m } else .error .multiplierBelowOne

/-- The cap of the delays: the longest delay, or the first one if that is longer. -/
def RetryPolicy.cap (p : RetryPolicy) : Duration := p.maxDelay.max p.initialDelay

/-- The delay before a repetition, counted from zero: the initial delay times a power of the factor,
    but never more than the cap. Beyond the sixty-third power the delay does not grow. -/
def RetryPolicy.delayForRetry (p : RetryPolicy) (retry : Nat) : Duration :=
  let seconds := p.initialDelay.toSeconds.mul (p.multiplier.pow (min retry 63))
  match Duration.ofBinary64? (seconds.min p.cap.toSeconds) with
  | some d => d.min p.cap
  | none => p.cap

/-- No delay is longer than the cap. -/
theorem RetryPolicy.delayForRetry_le_cap (p : RetryPolicy) (retry : Nat) :
    (p.delayForRetry retry).nanos ≤ p.cap.nanos := by
  unfold RetryPolicy.delayForRetry
  simp only
  split
  · exact Nat.min_le_right _ _
  · exact Nat.le_refl _

/-- The doubling delay after a number of attempts. -/
def backoffDelay (backoff : Duration) (attempt : Nat) : Duration :=
  (RetryPolicy.exponential backoff).delayForRetry attempt

/-! ## Budgets -/

/-- What bounds a loop of attempts. -/
inductive Budget
  | attempts (n : Nat)
  | duration (d : Duration)
  deriving DecidableEq

/-- Whether a budget is used up after some attempts and milliseconds. -/
def Budget.isExhausted (b : Budget) (attempts elapsedMillis : Nat) : Bool :=
  match b with
  | .attempts n => n ≤ attempts
  | .duration d => d.nanos ≤ elapsedMillis * 1000000

end Courier
