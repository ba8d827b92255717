import Courier.Time.Duration

set_option autoImplicit false

/-! # The timer

Waits are told by a timer in whole milliseconds. It counts them from its start, and the platform's
clock counts seconds; both end. A wait of up to `2 ^ 63` milliseconds, which are 292 million years,
is kept. What becomes of a longer one is up to the timer, within two bounds: it takes some time, and
it is not over late.

The milliseconds of a run are counted without an end here. The timer stands for what happens as long
as they do not pass `2 ^ 63` themselves. -/

namespace Courier

/-- The longest wait in milliseconds that every timer keeps. -/
def Timer.reach : Nat := 0x8000000000000000

/-- A timer. -/
structure Timer where
  /-- The milliseconds that a wait takes if it begins in the given one. -/
  millis : Nat → Duration → Nat
  /-- A wait within the reach is kept: it takes its span in begun milliseconds. -/
  millis_eq : ∀ now d, d.ceilMillis ≤ Timer.reach → millis now d = d.ceilMillis
  /-- No wait is over late. -/
  millis_le : ∀ now d, millis now d ≤ d.ceilMillis
  /-- A wait for some time takes some time. -/
  millis_pos : ∀ now d, 0 < d.ceilMillis → 0 < millis now d

/-- A timer on a platform that has been up for some seconds. The platform counts fewer than `2 ^ 63`
    seconds: a wait that would end after those is over after thirty years of 365 days. The timer
    counts up to `2 ^ 64 - 3` milliseconds: a wait that would end after those ends with them. -/
def Timer.after (uptime : Nat) : Timer where
  millis now d :=
    if d.ceilMillis ≤ Timer.reach then d.ceilMillis
    else if 0x8000000000000000 ≤ uptime + now / 1000 + d.nanos / 1000000000 then
      30 * 365 * 86400 * 1000
    else min d.ceilMillis (max 1 (0x10000000000000000 - 3 - now))
  millis_eq _ _ h := if_pos h
  millis_le now d := by
    unfold Timer.reach
    split
    · exact Nat.le_refl _
    · split <;> omega
  millis_pos now d h := by
    split
    · exact h
    · split <;> omega

/-- Only a wait for no time at all takes no time. -/
theorem Timer.millis_eq_zero (t : Timer) (now : Nat) {d : Duration} :
    t.millis now d = 0 ↔ d = .zero := by
  have hceil : d.ceilMillis = 0 ↔ d = .zero := by
    obtain ⟨nanos⟩ := d
    unfold Duration.ceilMillis Duration.zero
    rw [Duration.mk.injEq]
    dsimp only
    omega
  have hle := t.millis_le now d
  have hpos := t.millis_pos now d
  rw [← hceil]
  omega

end Courier
