import Courier.Proofs.Retry.Growth
import Mathlib.Algebra.Order.Group.MinMax

set_option autoImplicit false

/-! # Delays and their formula

The delay before a repetition is the first delay times a power of the factor, or the cap if that is
less. The product is worked out in binary seconds; one rounding for each unit of an exponent of up
to 63 adds up to a few nanoseconds in a million seconds (`RetryPolicy.delayForRetry_near`).

The formula is left in two places. Larger exponents are cut off at 63, so that delays may stay below
the cap for ever if the factor is close to one. And where a power of the factor is too large for the
format, a first delay of zero times that power is no number, for which the cap stands in. -/

namespace Courier

/-! ## Errors -/

/-- The roundings of a power and a product, taken together. -/
theorem roundoff_pow_bounds {k : Nat} (h : k ≤ 64) :
    1 - 1 / 2 ^ 46 ≤ (1 - roundoff) ^ k ∧ (1 + roundoff) ^ k ≤ 1 + 1 / 2 ^ 46 := by
  constructor
  · calc (1 - 1 / 2 ^ 46 : ℚ) ≤ (1 - roundoff) ^ 64 := by norm_num [roundoff]
      _ ≤ (1 - roundoff) ^ k :=
        pow_le_pow_of_le_one (by norm_num [roundoff]) (by norm_num [roundoff]) h
  · calc (1 + roundoff) ^ k ≤ (1 + roundoff) ^ 64 :=
        pow_le_pow_right₀ (by norm_num [roundoff]) h
      _ ≤ 1 + 1 / 2 ^ 46 := by norm_num [roundoff]

/-- The product of a rounded number with a rounded power is hardly too small. -/
theorem le_rounded_product {n s v : ℚ} {k : Nat} (hk : k ≤ 63) (hn : 0 ≤ n) (hv : 0 ≤ v)
    (hs : n * (1 - 1 / 2 ^ 51) ≤ s) (hs0 : 0 ≤ s) :
    n * v * (1 - 1 / 2 ^ 45) ≤ s * (v * (1 - roundoff) ^ k) * (1 - roundoff) := by
  have hrounded := (roundoff_pow_bounds (Nat.succ_le_succ hk)).1
  calc n * v * (1 - 1 / 2 ^ 45) ≤ n * v * ((1 - 1 / 2 ^ 51) * (1 - 1 / 2 ^ 46)) := by
        gcongr
        norm_num
    _ = n * (1 - 1 / 2 ^ 51) * v * (1 - 1 / 2 ^ 46) := by ring
    _ ≤ s * v * (1 - roundoff) ^ (k + 1) := by gcongr
    _ = s * (v * (1 - roundoff) ^ k) * (1 - roundoff) := by ring

/-- The product of a rounded number with a rounded power is hardly too large. -/
theorem rounded_product_le {n s v : ℚ} {k : Nat} (hk : k ≤ 63) (hn : 0 ≤ n) (hv : 0 ≤ v)
    (hs : s ≤ n * (1 + 1 / 2 ^ 51)) :
    s * (v * (1 + roundoff) ^ k) * (1 + roundoff) ≤ n * v * (1 + 1 / 2 ^ 45) := by
  have hrounded := (roundoff_pow_bounds (Nat.succ_le_succ hk)).2
  have hmore : 0 ≤ 1 + roundoff := by norm_num [roundoff]
  calc s * (v * (1 + roundoff) ^ k) * (1 + roundoff) = s * v * (1 + roundoff) ^ (k + 1) := by ring
    _ ≤ n * (1 + 1 / 2 ^ 51) * v * (1 + 1 / 2 ^ 46) := by gcongr
    _ = n * v * ((1 + 1 / 2 ^ 51) * (1 + 1 / 2 ^ 46)) := by ring
    _ ≤ n * v * (1 + 1 / 2 ^ 45) := by
        gcongr
        norm_num

/-- A span of up to a million seconds, in seconds, is hardly off, and in the range of full
    precision. -/
theorem Duration.exists_seconds_of_pos {d : Duration} (pos : 0 < d.nanos)
    (short : d.nanos ≤ 1000000000000000) :
    ∃ s : ℚ, d.toSeconds.HasValue s ∧ d.nanos / 1000000000 * (1 - 1 / 2 ^ 51) ≤ s ∧
      s ≤ d.nanos / 1000000000 * (1 + 1 / 2 ^ 51) ∧ (2 : ℚ) ^ (-1022 : Int) ≤ s := by
  obtain ⟨s, hs, hclose⟩ := d.exists_seconds short
  obtain ⟨habove, hbelow⟩ := abs_sub_le_iff.1 hclose
  have hleast : (1 : ℚ) / 1000000000 ≤ d.nanos / 1000000000 := by
    gcongr
    exact_mod_cast pos
  refine ⟨s, hs, by linarith, by linarith, ?_⟩
  calc (2 : ℚ) ^ (-1022 : Int) ≤ 2 ^ (-31 : Int) := zpow_le_zpow_right₀ one_le_two (by decide)
    _ ≤ 1 / 1000000000 * (1 - 1 / 2 ^ 51) := by norm_num
    _ ≤ s := by linarith

/-! ## Delays before they are cut off -/

variable {p : RetryPolicy} {m : ℚ} {retry : Nat}

theorem RetryPolicy.le_size_seconds (hm : p.multiplier.HasValue m) (hone : 1 ≤ m)
    (pos : 0 < p.initialDelay.nanos) (short : p.initialDelay.nanos ≤ 1000000000000000)
    (retry : Nat) :
    (p.initialDelay.nanos / 1000000000 * m ^ min retry 63 * (1 - 1 / 2 ^ 45) : ℚ) ≤
      (p.seconds retry).size := by
  obtain ⟨s, hs, hlow, -, normal⟩ := Duration.exists_seconds_of_pos pos short
  have hpow := Binary64.pow_tracks hm hone (min retry 63)
  have hless : 0 ≤ 1 - roundoff := by norm_num [roundoff]
  have hproduct := Binary64.le_size_mul hs.size.ge hpow.le_size hs.nonneg (by positivity)
    (hs.size.ge.trans' (WithTop.coe_le_coe.2 normal)) hpow.one_le
  refine le_trans (WithTop.coe_le_coe.2 ?_) hproduct
  exact le_rounded_product (Nat.min_le_right retry 63) (by positivity) (by positivity) hlow
    hs.nonneg

/-- Any cap of up to a million seconds is far from what is too large for the format. -/
theorem two_million_lt : (2000000000000000 : ℚ) < 2 ^ (1024 : Int) :=
  calc (2000000000000000 : ℚ) < 2 ^ (51 : Int) := by norm_num
    _ < 2 ^ (1024 : Int) := two_zpow_lt_iff.2 (by decide)

theorem RetryPolicy.size_seconds_le (hm : p.multiplier.HasValue m) (hone : 1 ≤ m)
    (pos : 0 < p.initialDelay.nanos)
    (short : p.initialDelay.nanos * m ^ min retry 63 ≤ 1000000000000000) :
    (p.seconds retry).size ≤
      (p.initialDelay.nanos / 1000000000 * m ^ min retry 63 * (1 + 1 / 2 ^ 45) : ℚ) := by
  have hleast : (1 : ℚ) ≤ p.initialDelay.nanos := by exact_mod_cast pos
  have hpower : 1 ≤ m ^ min retry 63 := one_le_pow₀ hone
  have hfirst : (p.initialDelay.nanos : ℚ) ≤ 1000000000000000 :=
    (le_mul_of_one_le_right (by positivity) hpower).trans short
  have hlast : m ^ min retry 63 ≤ 1000000000000000 :=
    (le_mul_of_one_le_left (by positivity) hleast).trans short
  obtain ⟨s, hs, -, hhigh, normal⟩ :=
    Duration.exists_seconds_of_pos pos (by exact_mod_cast hfirst)
  have hpow := Binary64.pow_tracks hm hone (min retry 63)
  have hmore : 1 ≤ 1 + roundoff := by norm_num [roundoff]
  have hrange : m ^ min retry 63 * (1 + roundoff) ^ min retry 63 < 2 ^ (1024 : Int) := by
    have hfew := (roundoff_pow_bounds ((Nat.min_le_right retry 63).trans (by decide))).2
    calc m ^ min retry 63 * (1 + roundoff) ^ min retry 63
        ≤ 1000000000000000 * (1 + 1 / 2 ^ 46) := by gcongr
      _ ≤ 2000000000000000 := by norm_num
      _ < 2 ^ (1024 : Int) := two_million_lt
  have hbound := rounded_product_le (Nat.min_le_right retry 63) (by positivity)
    (zero_le_one.trans hpower) hhigh
  have hsmall : (p.initialDelay.nanos / 1000000000 * m ^ min retry 63 * (1 + 1 / 2 ^ 45) : ℚ) <
      2 ^ (1024 : Int) :=
    calc (p.initialDelay.nanos / 1000000000 * m ^ min retry 63 * (1 + 1 / 2 ^ 45) : ℚ)
        = p.initialDelay.nanos * m ^ min retry 63 * ((1 + 1 / 2 ^ 45) / 1000000000) := by ring
      _ ≤ 1000000000000000 * ((1 + 1 / 2 ^ 45) / 1000000000) := by gcongr
      _ ≤ 2000000000000000 := by norm_num
      _ < 2 ^ (1024 : Int) := two_million_lt
  have hsecond : 1 ≤ m ^ min retry 63 * (1 + roundoff) ^ min retry 63 :=
    one_le_mul_of_one_le_of_one_le hpower (one_le_pow₀ hmore)
  have hproduct := Binary64.size_mul_le_of_le hs.size.le (hpow.size_le hrange)
    (normal.trans (le_mul_of_one_le_right hs.nonneg hsecond)) (hbound.trans_lt hsmall)
  exact hproduct.trans (WithTop.coe_le_coe.2 hbound)

/-! ## Delays -/

/-- A number of seconds of up to some months, cut off at a cap, is off by half a nanosecond at
    most. -/
theorem Duration.capped_near (cap : Duration) {x : Binary64} (hx : x.IsMagnitude) {z : ℚ}
    (hz : x.size = z) (small : z ≤ 10000000) :
    ∃ n : Nat, |(n : ℚ) - z * 1000000000| ≤ 1 / 2 ∧
      (cap.capped x).nanos = Min.min n cap.nanos := by
  obtain ⟨a, e, rfl, rfl⟩ := hx.exists_finite hz
  have hnear := abs_secondsNanos_sub_le a e
  have hfits : secondsNanos a e ≤ Duration.longest.nanos := by
    have hmost : (secondsNanos a e : ℚ) ≤ (20000000000000000 : Nat) := by
      have habove := (abs_sub_le_iff.1 hnear).1
      push_cast
      linarith
    exact (Nat.cast_le.1 hmost).trans (by decide)
  refine ⟨secondsNanos a e, hnear, ?_⟩
  rw [cap.capped_finite, if_pos hfits]

/-- What the formula gives for a delay, in nanoseconds. -/
def RetryPolicy.formula (p : RetryPolicy) (m : ℚ) (retry : Nat) : ℚ :=
  min (p.initialDelay.nanos * m ^ retry) p.cap.nanos

/-- Before it is rounded to nanoseconds a delay is off by 29 of them at most from what the formula
    gives for an exponent of up to 63. -/
theorem RetryPolicy.size_min_near (hm : p.multiplier.HasValue m) (hone : 1 ≤ m)
    (pos : 0 < p.initialDelay.nanos) (hcap : p.cap.nanos ≤ 1000000000000000) (retry : Nat) :
    ∃ z : ℚ, ((p.seconds retry).min p.cap.toSeconds).size = z ∧
      |z * 1000000000 - p.formula m (min retry 63)| ≤ 29 := by
  obtain ⟨c, hc, hclose⟩ := p.cap.exists_seconds hcap
  obtain ⟨habove, hbelow⟩ := abs_sub_le_iff.1 hclose
  have hcap' : (p.cap.nanos : ℚ) ≤ 1000000000000000 := by exact_mod_cast hcap
  have hcut : ((p.seconds retry).min p.cap.toSeconds).size = min (p.seconds retry).size c := by
    rw [p.size_cut hm.isMagnitude, hc.size]
  obtain ⟨z, hz, hzc⟩ := WithTop.le_coe_iff.1 (hcut.trans_le (min_le_right _ _))
  refine ⟨z, hz, abs_sub_le_iff.2 ⟨?_, ?_⟩⟩
  · have hlong : z * 1000000000 - 29 ≤ p.formula m (min retry 63) := by
      refine le_min ?_ (by linarith)
      rcases le_total (p.initialDelay.nanos * m ^ min retry 63) 1000000000000000 with h | h
      · have hproduct := RetryPolicy.size_seconds_le hm hone pos h
        have hzs : (z : WithTop ℚ) ≤ (p.seconds retry).size :=
          hz.symm.trans_le (hcut.trans_le (min_le_left _ _))
        have := WithTop.coe_le_coe.1 (hzs.trans hproduct)
        linarith
      · linarith
    linarith
  · have hfirst : p.initialDelay.nanos ≤ 1000000000000000 :=
      (Nat.le_max_right p.maxDelay.nanos p.initialDelay.nanos).trans hcap
    have hproduct := RetryPolicy.le_size_seconds hm hone pos hfirst retry
    have hleft : p.formula m (min retry 63) ≤ p.initialDelay.nanos * m ^ min retry 63 :=
      min_le_left _ _
    have hright : p.formula m (min retry 63) ≤ p.cap.nanos := min_le_right _ _
    rcases min_cases (p.seconds retry).size (c : WithTop ℚ) with ⟨h, -⟩ | ⟨h, -⟩
    · rw [← h, ← hcut, hz] at hproduct
      have := WithTop.coe_le_coe.1 hproduct
      linarith
    · obtain rfl : z = c := WithTop.coe_injective (hz.symm.trans (hcut.trans h))
      linarith

/-- A delay is off by 30 nanoseconds at most from what the formula gives for an exponent of up to
    63. -/
theorem RetryPolicy.delayForRetry_near (hm : p.multiplier.HasValue m) (hone : 1 ≤ m)
    (pos : 0 < p.initialDelay.nanos) (hcap : p.cap.nanos ≤ 1000000000000000) (retry : Nat) :
    |((p.delayForRetry retry).nanos : ℚ) - p.formula m (min retry 63)| ≤ 30 := by
  have hmagnitude := p.cut_isMagnitude hm.isMagnitude retry
  have hcap' : (p.cap.nanos : ℚ) ≤ 1000000000000000 := by exact_mod_cast hcap
  obtain ⟨z, hz, hnear⟩ := RetryPolicy.size_min_near hm hone pos hcap retry
  have hright : p.formula m (min retry 63) ≤ p.cap.nanos := min_le_right _ _
  have hmost := (abs_sub_le_iff.1 hnear).1
  obtain ⟨n, hn, hnanos⟩ := p.cap.capped_near hmagnitude hz (by linarith)
  calc |((p.delayForRetry retry).nanos : ℚ) - p.formula m (min retry 63)|
      = |min (n : ℚ) p.cap.nanos - min (p.formula m (min retry 63)) p.cap.nanos| := by
        rw [p.delayForRetry_eq, hnanos, min_eq_left hright, Nat.cast_min]
    _ ≤ |(n : ℚ) - p.formula m (min retry 63)| := by
        refine (abs_min_sub_min_le_max _ _ _ _).trans_eq ?_
        rw [sub_self, abs_zero, max_eq_left (abs_nonneg _)]
    _ ≤ |(n : ℚ) - z * 1000000000| + |z * 1000000000 - p.formula m (min retry 63)| :=
        abs_sub_le _ _ _
    _ ≤ 30 := by linarith

/-- A delay that the formula puts beyond the cap, by more than its errors, is the cap. -/
theorem RetryPolicy.delayForRetry_eq_cap (hm : p.multiplier.HasValue m) (hone : 1 ≤ m)
    (pos : 0 < p.initialDelay.nanos) (hcap : p.cap.nanos ≤ 1000000000000000)
    (reached : p.cap.nanos + 30 ≤ p.initialDelay.nanos * m ^ min retry 63) :
    p.delayForRetry retry = p.cap := by
  have hmagnitude := p.cut_isMagnitude hm.isMagnitude retry
  have hcap' : (p.cap.nanos : ℚ) ≤ 1000000000000000 := by exact_mod_cast hcap
  obtain ⟨c, hc, hclose⟩ := p.cap.exists_seconds hcap
  obtain ⟨habove, hbelow⟩ := abs_sub_le_iff.1 hclose
  have hfirst : p.initialDelay.nanos ≤ 1000000000000000 :=
    (Nat.le_max_right p.maxDelay.nanos p.initialDelay.nanos).trans hcap
  have hproduct := RetryPolicy.le_size_seconds hm hone pos hfirst retry
  have hreach : (c : WithTop ℚ) ≤ (p.seconds retry).size :=
    le_trans (WithTop.coe_le_coe.2 (by linarith)) hproduct
  have hcut : ((p.seconds retry).min p.cap.toSeconds).size = c := by
    rw [p.size_cut hm.isMagnitude, hc.size, min_eq_right hreach]
  obtain ⟨n, hn, hnanos⟩ := p.cap.capped_near hmagnitude hcut (by linarith)
  obtain ⟨hmore, hless⟩ := abs_sub_le_iff.1 hn
  have hcapped : p.cap.nanos ≤ n := by
    have : (p.cap.nanos : ℚ) < n + 1 := by linarith
    exact Nat.lt_succ_iff.1 (by exact_mod_cast this)
  refine Duration.eq_of_nanos ?_
  rw [p.delayForRetry_eq, hnanos, min_eq_right hcapped]

/-- A first delay of zero stays, as long as the power is finite. -/
theorem RetryPolicy.delayForRetry_zero (h : p.multiplier.IsMagnitude)
    (hzero : p.initialDelay = .zero)
    (finite : p.cap = .zero ∨ (p.multiplier.pow (min retry 63)).isFinite = true) :
    p.delayForRetry retry = .zero := by
  rcases finite with hcap | hpow
  · have hle := p.delayForRetry_le_cap retry
    rw [hcap] at hle
    exact Duration.eq_of_nanos (Nat.le_zero.1 hle)
  · cases hx : p.multiplier.pow (min retry 63) with
    | nan =>
      rw [hx] at hpow
      exact absurd hpow Bool.false_ne_true
    | infinity s =>
      rw [hx] at hpow
      exact absurd hpow Bool.false_ne_true
    | finite s a e =>
      exact RetryPolicy.delayForRetry_of_zero h hzero (congrArg Binary64.size hx)

/-- **Delays follow their formula.** With a finite factor of at least one and a cap of up to a
    million seconds, a delay is within a microsecond of what the formula gives, if that hardly
    grows from the sixty-third power on, as with powers that have reached the cap by then. It is
    the cap where the formula is clearly beyond it. A first delay of zero stays, as long as the
    power is finite. -/
theorem delays_follow_formula {p : RetryPolicy} {m : ℚ} (hm : p.multiplier.HasValue m)
    (hone : 1 ≤ m) (hcap : p.cap.nanos ≤ 1000000 * 1000000000) (retry : Nat)
    (steady : p.formula m retry ≤ p.formula m (min retry 63) + 970)
    (finite : p.initialDelay = .zero →
      p.cap = .zero ∨ (p.multiplier.pow (min retry 63)).isFinite = true) :
    |((p.delayForRetry retry).nanos : ℚ) - p.formula m retry| ≤ 1000 ∧
      (p.cap.nanos + 30 ≤ p.initialDelay.nanos * m ^ min retry 63 →
        p.delayForRetry retry = p.cap) ∧
      (p.initialDelay = .zero → p.delayForRetry retry = .zero) := by
  rcases Nat.eq_zero_or_pos p.initialDelay.nanos with hzero | pos
  · have hnone : p.initialDelay = .zero := Duration.eq_of_nanos hzero
    have hdelay := RetryPolicy.delayForRetry_zero hm.isMagnitude hnone (finite hnone)
    have hformula : p.formula m retry = 0 := by
      rw [RetryPolicy.formula, hzero, Nat.cast_zero, zero_mul]
      exact min_eq_left (Nat.cast_nonneg _)
    refine ⟨?_, fun reached => ?_, fun _ => hdelay⟩
    · rw [hdelay, hformula]
      norm_num [Duration.zero]
    · rw [hzero, Nat.cast_zero, zero_mul] at reached
      have : (0 : ℚ) ≤ p.cap.nanos := Nat.cast_nonneg _
      linarith
  · have hgrows : p.formula m (min retry 63) ≤ p.formula m retry := by
      refine min_le_min_right _ ?_
      gcongr
      exact Nat.min_le_left retry 63
    obtain ⟨habove, hbelow⟩ :=
      abs_sub_le_iff.1 (RetryPolicy.delayForRetry_near hm hone pos hcap retry)
    refine ⟨abs_sub_le_iff.2 ⟨by linarith, by linarith⟩, fun reached => ?_, fun hnone => ?_⟩
    · exact RetryPolicy.delayForRetry_eq_cap hm hone pos hcap reached
    · rw [hnone] at pos
      exact absurd pos (lt_irrefl 0)

/-- A factor of three halves has reached the cap long before the sixty-third power. -/
theorem delays_follow_formula_halves : ∃ p,
    RetryPolicy.standard.withMultiplier (.finite false (3 * 2 ^ 51) (-52)) = .ok p ∧
      p.multiplier.HasValue (3 / 2) ∧ p.cap.nanos ≤ 1000000 * 1000000000 ∧
      p.formula (3 / 2) 100 ≤ p.formula (3 / 2) 63 + 970 ∧
      |((p.delayForRetry 100).nanos : ℚ) - p.formula (3 / 2) 100| ≤ 1000 ∧
      p.delayForRetry 100 = .ofSeconds 60 := by
  have hset : RetryPolicy.standard.withMultiplier (.finite false (3 * 2 ^ 51) (-52)) =
      .ok ⟨3, .ofSeconds 5, .ofSeconds 60, .finite false (3 * 2 ^ 51) (-52)⟩ := by
    decide +kernel
  have hm : (Binary64.finite false (3 * 2 ^ 51) (-52)).HasValue (3 / 2) := by
    refine ⟨3 * 2 ^ 51, -52, rfl, ?_, .inr ⟨by decide, by decide, by decide, by decide⟩⟩
    rw [dyadic, zpow_neg]
    norm_num
  have hreached : ((60000000000 : Nat) : ℚ) + 30 ≤ (5000000000 : Nat) * (3 / 2) ^ 63 := by norm_num
  have hsteady : RetryPolicy.formula
      ⟨3, .ofSeconds 5, .ofSeconds 60, .finite false (3 * 2 ^ 51) (-52)⟩ (3 / 2) 100 ≤
        RetryPolicy.formula
          ⟨3, .ofSeconds 5, .ofSeconds 60, .finite false (3 * 2 ^ 51) (-52)⟩ (3 / 2) 63 + 970 :=
    calc _ ≤ ((60000000000 : Nat) : ℚ) := min_le_right _ _
      _ = RetryPolicy.formula
          ⟨3, .ofSeconds 5, .ofSeconds 60, .finite false (3 * 2 ^ 51) (-52)⟩ (3 / 2) 63 :=
        (min_eq_right ((le_add_of_nonneg_right (by norm_num)).trans hreached)).symm
      _ ≤ _ := le_add_of_nonneg_right (by norm_num)
  have hfollows := delays_follow_formula hm (by norm_num) (by decide) 100 hsteady
    fun hzero => absurd hzero (by decide)
  exact ⟨_, hset, hm, by decide, hsteady, hfollows.1, hfollows.2.1 hreached⟩

/-- The powers of a factor close to one are cut off below the cap, and a first delay of zero is
    followed by the cap once a power is too large. -/
theorem not_delays_follow_formula :
    (∃ p, (RetryPolicy.exponential (.ofSeconds 5)).withMultiplier
        (.finite false (65 * 2 ^ 46) (-52)) = .ok p ∧
      p.multiplier.HasValue (65 / 64) ∧ p.formula (65 / 64) 200 = 60000000000 ∧
      (p.delayForRetry 200).nanos = 13279236690) ∧
    (∃ p, (RetryPolicy.exponential .zero).withMultiplier (Binary64.ofDecimal false 1 200) = .ok p ∧
      p.multiplier.isFinite = true ∧ p.delayForRetry 2 = .ofSeconds 60) := by
  have hset : (RetryPolicy.exponential (.ofSeconds 5)).withMultiplier
      (.finite false (65 * 2 ^ 46) (-52)) =
        .ok ⟨3, .ofSeconds 5, .ofSeconds 60, .finite false (65 * 2 ^ 46) (-52)⟩ := by
    decide +kernel
  have hset' : (RetryPolicy.exponential .zero).withMultiplier (Binary64.ofDecimal false 1 200) =
      .ok ⟨3, .zero, .ofSeconds 60, Binary64.ofDecimal false 1 200⟩ := by
    decide +kernel
  have hm : (Binary64.finite false (65 * 2 ^ 46) (-52)).HasValue (65 / 64) := by
    refine ⟨65 * 2 ^ 46, -52, rfl, ?_, .inr ⟨by decide, by decide, by decide, by decide⟩⟩
    rw [dyadic, zpow_neg]
    norm_num
  refine ⟨⟨_, hset, hm, ?_, by decide +kernel⟩, _, hset', by decide +kernel, by decide +kernel⟩
  have hreached : ((60000000000 : Nat) : ℚ) ≤ (5000000000 : Nat) * (65 / 64) ^ 200 := by norm_num
  exact (min_eq_right hreached).trans (by norm_num)

end Courier
