import Courier.Proofs.Number.Powers
import Courier.Proofs.Retry.Doubling

set_option autoImplicit false

/-! # Delays never shrink

The factor of a policy that is put together with the setters is a number of the format of at least
one, or infinite. So its rounded powers never fall, and what is made of them keeps the order:
products, the lesser of two, and spans that are cut off at a cap. The longer of two neighbouring
delays is the later one, then (`delays_never_shrink`), also where a power is infinite, and where an
infinite power of a first delay of zero is no number.

A first delay that is itself the cap is the delay of every attempt. With the exact delays up to a
minute that settles the delays that double (`doubling_delays`). -/

namespace Courier

/-! ## Policies -/

/-- Whether a policy is put together with the setters, from the standard one or a doubling one. -/
inductive RetryPolicy.Built : RetryPolicy → Prop
  | standard : Built .standard
  | exponential (backoff : Duration) : Built (.exponential backoff)
  | withMaxAttempts {p : RetryPolicy} (h : Built p) (n : Nat) : Built (p.withMaxAttempts n)
  | withInitialDelay {p : RetryPolicy} (h : Built p) (d : Duration) : Built (p.withInitialDelay d)
  | withMaxDelay {p : RetryPolicy} (h : Built p) (d : Duration) : Built (p.withMaxDelay d)
  | withMultiplier {p q : RetryPolicy} (h : Built p) {m : Binary64} (format : m.InFormat)
      (set : p.withMultiplier m = .ok q) : Built q

/-- A factor between delays that never shrink: a magnitude of at least one. -/
structure Binary64.IsGrowth (x : Binary64) : Prop where
  isMagnitude : x.IsMagnitude
  one_le : 1 ≤ x.size

theorem Binary64.ofNat_one_eq : Binary64.ofNat 1 = .finite false (2 ^ 52) (-52) := by
  decide +kernel

/-- What the setter of the factor lets pass. -/
theorem Binary64.isGrowth_of_le {x : Binary64} (format : x.InFormat)
    (h : (Binary64.ofNat 1).le x = true) : x.IsGrowth := by
  rw [Binary64.ofNat_one_eq] at h
  cases x with
  | nan => exact absurd h (by simp [Binary64.le])
  | infinity s =>
    cases s with
    | false => exact ⟨⟨trivial, rfl⟩, le_top⟩
    | true => exact absurd h (by simp [Binary64.le, Binary64.lt])
  | finite s m e =>
    have hnotless : (Binary64.finite s m e).lt (.finite false (2 ^ 52) (-52)) = false := by
      simpa [Binary64.le] using h
    cases s with
    | false =>
      have hlt := Binary64.lt_iff m (2 ^ 52) format.2.1 (show -1074 ≤ -52 by decide)
      have hone : dyadic (2 ^ 52) (-52) = 1 := by
        exact_mod_cast (dyadic_two_pow 52 (-52)).trans (zpow_zero 2)
      rw [hone, hnotless] at hlt
      exact ⟨⟨format, rfl⟩, WithTop.coe_le_coe.2 (not_lt.1 fun hless => by simpa using hlt.2 hless)⟩
    | true =>
      have hneg : Binary64.units true m e ≤ 0 := Int.neg_nonpos_of_nonneg (Int.natCast_nonneg _)
      have hpos : 0 < Binary64.units false (2 ^ 52) (-52) := by decide +kernel
      exact absurd (hneg.trans_lt hpos) (of_decide_eq_false hnotless)

theorem RetryPolicy.Built.isGrowth {p : RetryPolicy} (h : p.Built) : p.multiplier.IsGrowth := by
  have htwo : (Binary64.ofNat 2).IsGrowth :=
    Binary64.isGrowth_of_le (Binary64.ofRatio_inFormat false 2 Nat.one_pos) (by decide +kernel)
  induction h with
  | standard => exact htwo
  | exponential backoff => exact htwo
  | withMaxAttempts _ n ih => exact ih
  | withInitialDelay _ d ih => exact ih
  | withMaxDelay _ d ih => exact ih
  | withMultiplier _ format set =>
    unfold RetryPolicy.withMultiplier at set
    split at set
    · rename_i hle
      obtain rfl := Except.ok.inj set
      exact Binary64.isGrowth_of_le format hle
    · exact absurd set (by simp)

/-! ## Delays in order -/

theorem RetryPolicy.seconds_isMagnitude {p : RetryPolicy} (h : p.multiplier.IsMagnitude)
    (retry : Nat) : (p.seconds retry).IsMagnitude :=
  p.initialDelay.toSeconds_isMagnitude.mul (h.pow _)

theorem RetryPolicy.cut_isMagnitude {p : RetryPolicy} (h : p.multiplier.IsMagnitude)
    (retry : Nat) : ((p.seconds retry).min p.cap.toSeconds).IsMagnitude :=
  (p.seconds_isMagnitude h retry).min p.cap.toSeconds_isMagnitude

theorem RetryPolicy.size_cut {p : RetryPolicy} (h : p.multiplier.IsMagnitude) (retry : Nat) :
    ((p.seconds retry).min p.cap.toSeconds).size =
      min (p.seconds retry).size p.cap.toSeconds.size :=
  (p.seconds_isMagnitude h retry).size_min p.cap.toSeconds_isMagnitude

/-- A delay is no longer than another one if its power of the factor is no greater. -/
theorem RetryPolicy.delayForRetry_le {p : RetryPolicy} (h : p.multiplier.IsMagnitude) {i j : Nat}
    (hpow : (p.multiplier.pow (min i 63)).size ≤ (p.multiplier.pow (min j 63)).size) :
    (p.delayForRetry i).nanos ≤ (p.delayForRetry j).nanos := by
  have hseconds : (p.seconds i).size ≤ (p.seconds j).size := Binary64.size_mul_le le_rfl hpow
  rw [p.delayForRetry_eq, p.delayForRetry_eq]
  refine p.cap.capped_mono (p.cut_isMagnitude h i) (p.cut_isMagnitude h j) ?_
  rw [p.size_cut h, p.size_cut h]
  exact min_le_min_right _ hseconds

/-- **Delays never shrink.** Of a policy that is put together with the setters, no delay is longer
    than the one after it, or than the longer of the longest and the first delay. -/
theorem delays_never_shrink {p : RetryPolicy} (h : p.Built) (retry : Nat) :
    (p.delayForRetry retry).nanos ≤ (p.delayForRetry (retry + 1)).nanos ∧
      (p.delayForRetry retry).nanos ≤ max p.maxDelay.nanos p.initialDelay.nanos := by
  refine ⟨?_, p.delayForRetry_le_cap retry⟩
  obtain ⟨hmagnitude, hone⟩ := h.isGrowth
  refine p.delayForRetry_le hmagnitude ?_
  rcases Nat.lt_or_ge retry 63 with hless | hmore
  · rw [Nat.min_eq_left hless.le, Nat.min_eq_left hless]
    exact Binary64.pow_size_le_succ hmagnitude.inFormat hone retry
  · rw [Nat.min_eq_right hmore, Nat.min_eq_right (Nat.le_succ_of_le hmore)]

/-- With an infinite factor a first delay of zero is followed by the longest delay. -/
theorem delays_never_shrink_infinite : ∃ p,
    (RetryPolicy.exponential .zero).withMultiplier (.infinity false) = .ok p ∧ p.Built ∧
      (p.delayForRetry 0).nanos ≤ (p.delayForRetry 1).nanos ∧
      (p.delayForRetry 0).nanos ≤ max p.maxDelay.nanos p.initialDelay.nanos ∧
      p.delayForRetry 0 = .zero ∧ p.delayForRetry 1 = .ofSeconds 60 := by
  have hset : (RetryPolicy.exponential .zero).withMultiplier (.infinity false) =
      .ok { RetryPolicy.exponential .zero with multiplier := .infinity false } := by
    decide +kernel
  have hformat : (Binary64.infinity false).InFormat := trivial
  have hbuilt := (RetryPolicy.Built.exponential .zero).withMultiplier hformat hset
  have hnever := delays_never_shrink hbuilt 0
  exact ⟨_, hset, hbuilt, hnever.1, hnever.2, by decide +kernel, by decide +kernel⟩

/-! ## Delays that double -/

/-- A first delay of zero stays, unless a power of the factor is too large for the format. -/
theorem RetryPolicy.delayForRetry_of_zero {p : RetryPolicy} (h : p.multiplier.IsMagnitude)
    (hzero : p.initialDelay = .zero) {retry : Nat} {v : ℚ}
    (hpow : (p.multiplier.pow (min retry 63)).size = v) : p.delayForRetry retry = .zero := by
  have hsize : (p.seconds retry).size = 0 := by
    unfold RetryPolicy.seconds
    rw [hzero, Binary64.size_mul Duration.toSeconds_zero.size hpow, zero_mul,
      Binary64.nearest_zero, Binary64.inRange, if_pos (zpow_pos two_pos _)]
    rfl
  rw [p.delayForRetry_eq]
  refine p.cap.capped_of_zero (p.cut_isMagnitude h retry) ?_
  rw [p.size_cut h, hsize]
  exact min_le_left _ _

theorem Binary64.IsAtLeastOne.one_le_size {x : Binary64} (h : x.IsAtLeastOne) : 1 ≤ x.size := by
  rcases h with rfl | ⟨m, e, rfl, hone, -⟩
  · exact le_top
  · exact WithTop.coe_le_coe.2 hone

/-- A first delay of at least a second that is the cap is the delay of every attempt. -/
theorem RetryPolicy.delayForRetry_eq_first {p : RetryPolicy} (h : p.multiplier.IsGrowth)
    (long : 1000000000 ≤ p.initialDelay.nanos) (hcap : p.cap = p.initialDelay) (retry : Nat) :
    p.delayForRetry retry = p.delayForRetry 0 := by
  have hfirst := p.initialDelay.toSeconds_isMagnitude
  -- Every product reaches the first delay, so what is cut off is the first delay each time.
  have hcut : ∀ i, ((p.seconds i).min p.cap.toSeconds).size = p.initialDelay.toSeconds.size := by
    intro i
    have hone := (Duration.toSeconds_isAtLeastOne long).one_le_size
    have hpow := Binary64.one_le_size_pow h.isMagnitude.inFormat h.one_le (min i 63)
    rw [← Binary64.size_one] at hpow
    have hreach : p.initialDelay.toSeconds.size ≤ (p.seconds i).size :=
      calc p.initialDelay.toSeconds.size
          = ((Binary64.ofNat 1).mul p.initialDelay.toSeconds).size :=
            (Binary64.size_one_mul hfirst.inFormat hone).symm
        _ ≤ ((p.multiplier.pow (min i 63)).mul p.initialDelay.toSeconds).size :=
            Binary64.size_mul_le hpow le_rfl
        _ = (p.seconds i).size := Binary64.size_mul_comm _ _
    rw [p.size_cut h.isMagnitude, hcap, min_eq_right hreach]
  have hle : ∀ i j, (p.delayForRetry i).nanos ≤ (p.delayForRetry j).nanos := by
    intro i j
    rw [p.delayForRetry_eq, p.delayForRetry_eq]
    exact p.cap.capped_mono (p.cut_isMagnitude h.isMagnitude i) (p.cut_isMagnitude h.isMagnitude j)
      (by rw [hcut, hcut])
  exact Duration.eq_of_nanos (Nat.le_antisymm (hle retry 0) (hle 0 retry))

/-- **Delays that double.** From a first delay of up to a minute on, delays double exactly to the
    nanosecond until they reach a minute. A longer first delay is never exceeded, and all delays are
    the same. -/
theorem doubling_delays (b : Duration) :
    (b.nanos ≤ 60000000000 →
      ∀ k, (backoffDelay b k).nanos = min (b.nanos * 2 ^ k) 60000000000) ∧
    (60000000000 < b.nanos →
      ∀ k, backoffDelay b k = backoffDelay b 0 ∧ (backoffDelay b k).nanos ≤ b.nanos) := by
  have hgrowth : (Binary64.ofNat 2).IsGrowth := (RetryPolicy.Built.exponential b).isGrowth
  refine ⟨fun short k => ?_, fun long k => ?_⟩
  · rcases Nat.eq_zero_or_pos b.nanos with hzero | pos
    · have hpow := (two_pow_hasValue (Nat.min_le_right k 63)).size
      have hdelay := (RetryPolicy.exponential b).delayForRetry_of_zero hgrowth.isMagnitude
        (Duration.eq_of_nanos hzero) hpow
      rw [backoffDelay, hdelay, hzero, Nat.zero_mul, Nat.zero_min]
      rfl
    · rw [backoffDelay, RetryPolicy.delayForRetry_exponential pos short]
  · have hcap : (RetryPolicy.exponential b).cap = b :=
      Duration.eq_of_nanos (Nat.max_eq_right long.le)
    have hlong : 1000000000 ≤ b.nanos := Nat.le_trans (by decide) long.le
    refine ⟨(RetryPolicy.exponential b).delayForRetry_eq_first hgrowth hlong hcap k, ?_⟩
    have hle := (RetryPolicy.exponential b).delayForRetry_le_cap k
    rwa [hcap] at hle

/-- A tenth of a second doubles nine times before it reaches the minute; a minute and a half
    stays. -/
theorem doubling_delays_tenth :
    (backoffDelay ⟨100000000⟩ 9).nanos = 51200000000 ∧
      (backoffDelay ⟨100000000⟩ 10).nanos = 60000000000 ∧
      (backoffDelay ⟨90000000000⟩ 7).nanos ≤ 90000000000 := by
  have htenth := (doubling_delays ⟨100000000⟩).1 (by decide)
  have hlonger := (doubling_delays ⟨90000000000⟩).2 (by decide) 7
  exact ⟨htenth 9, htenth 10, hlonger.2⟩

end Courier
