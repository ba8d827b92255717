import Courier.Backoff
import Courier.Proofs.Time.Seconds

set_option autoImplicit false

/-! # Delays that double

The delays of a doubling backoff are worked out in binary seconds, each step rounded. For delays of
up to a minute the errors add up to far less than half a nanosecond, and a power of two as a factor
adds none, so that every delay is exact: `delayForRetry_exponential`. A first delay beyond a minute
is the cap of all others, and none of them is shorter than a second. -/

namespace Courier

/-! ## Powers of two -/

/-- Up to the sixty-third the powers of two are exact. -/
theorem two_pow_hasValue {k : Nat} (h : k ≤ 63) :
    ((Binary64.ofNat 2).pow k).HasValue (2 ^ k) := by
  have hpow : ∀ k < 64, (Binary64.ofNat 2).pow k = .finite false (2 ^ 52) ((k : Int) - 52) := by
    decide +kernel
  refine ⟨2 ^ 52, (k : Int) - 52, hpow k (by omega), ?_,
    .inr ⟨le_refl _, by decide, by omega, by omega⟩⟩
  rw [dyadic, zpow_sub₀ two_ne_zero, zpow_natCast, Nat.cast_pow, Nat.cast_ofNat]
  exact mul_div_cancel₀ _ (by norm_num)

/-! ## Delays -/

theorem minute_hasValue : (Duration.toSeconds ⟨60000000000⟩).HasValue 60 := by
  have hminute : Duration.toSeconds ⟨60000000000⟩ = .finite false (60 * 2 ^ 47) (-47) := by
    decide +kernel
  refine ⟨60 * 2 ^ 47, -47, hminute, ?_, .inr ⟨by decide, by decide, by decide, by decide⟩⟩
  rw [dyadic, zpow_neg]
  norm_num

/-- The errors of a delay that is cut off at a minute are less than half a nanosecond. -/
theorem cut_near {s : ℚ} {n j : Nat} (hs : |s - n / 1000000000| ≤ n / 1000000000 / 2 ^ 51) :
    |(if 60 < s * 2 ^ j then 60 else s * 2 ^ j) * 1000000000 -
      (min (n * 2 ^ j) 60000000000 : Nat)| < 1 / 2 := by
  have hp : (0 : ℚ) < 2 ^ j := by positivity
  have hscaled : |s * 2 ^ j * 1000000000 - (n * 2 ^ j : Nat)| ≤ (n * 2 ^ j : Nat) / 2 ^ 51 := by
    calc |s * 2 ^ j * 1000000000 - (n * 2 ^ j : Nat)|
        = |s - n / 1000000000| * (2 ^ j * 1000000000) := by
          rw [← abs_of_pos (mul_pos hp (by norm_num : (0 : ℚ) < 1000000000)), ← abs_mul]
          congr 1
          push_cast
          field_simp
      _ ≤ n / 1000000000 / 2 ^ 51 * (2 ^ j * 1000000000) := by gcongr
      _ = (n * 2 ^ j : Nat) / 2 ^ 51 := by
          push_cast
          field_simp
  obtain ⟨hbelow, habove⟩ := abs_sub_le_iff.1 hscaled
  generalize n * 2 ^ j = a at hbelow habove ⊢
  generalize s * 2 ^ j = x at hbelow habove ⊢
  rw [abs_sub_lt_iff]
  rcases Nat.lt_or_ge 60000000000 a with hlong | hshort
  · -- A nanosecond beyond the minute is more than the errors can take back.
    have hlong' : (60000000001 : ℚ) ≤ a := by exact_mod_cast hlong
    have hcut : 60 < x := by
      norm_num at habove
      linarith
    rw [if_pos hcut, min_eq_right hlong.le]
    norm_num
  · have hshort' : (a : ℚ) ≤ 60000000000 := by exact_mod_cast hshort
    rw [min_eq_left hshort]
    norm_num at hbelow habove
    split
    · constructor <;> linarith
    · constructor <;> linarith

/-- The seconds of a delay before they are cut off. -/
def RetryPolicy.seconds (p : RetryPolicy) (retry : Nat) : Binary64 :=
  p.initialDelay.toSeconds.mul (p.multiplier.pow (min retry 63))

theorem RetryPolicy.delayForRetry_eq (p : RetryPolicy) (retry : Nat) :
    p.delayForRetry retry = p.cap.capped ((p.seconds retry).min p.cap.toSeconds) := by
  unfold RetryPolicy.delayForRetry RetryPolicy.seconds Duration.capped
  dsimp only
  split
  · rename_i d hd
    rw [hd, Option.elim_some]
  · rename_i hd
    rw [hd, Option.elim_none]

/-- Delays from up to a minute double exactly, up to a minute. -/
theorem RetryPolicy.delayForRetry_exponential {b : Duration} (pos : 0 < b.nanos)
    (short : b.nanos ≤ 60000000000) (k : Nat) :
    (RetryPolicy.exponential b).delayForRetry k = ⟨min (b.nanos * 2 ^ k) 60000000000⟩ := by
  have hcap : (RetryPolicy.exponential b).cap = ⟨60000000000⟩ :=
    congrArg Duration.mk (Nat.max_eq_left short)
  obtain ⟨s, hs, hclose⟩ := b.exists_seconds (Nat.le_trans short (by decide))
  have hpower : min k 63 ≤ 63 := Nat.min_le_right k 63
  have hsmall : s * 2 ^ min k 63 < 2 ^ (1024 : Int) := by
    have hminute : (b.nanos / 1000000000 : ℚ) ≤ 60 := by
      rw [div_le_iff₀ (by norm_num)]
      norm_num
      exact_mod_cast short
    have hupper := (abs_sub_le_iff.1 hclose).1
    have hseconds : s ≤ 64 := by
      norm_num at hupper
      linarith
    calc s * 2 ^ min k 63 ≤ 64 * 2 ^ 63 :=
          mul_le_mul hseconds (pow_le_pow_right₀ one_le_two hpower) (by positivity) (by norm_num)
      _ = 2 ^ (69 : Int) := by norm_num
      _ < 2 ^ (1024 : Int) := two_zpow_lt_iff.2 (by decide)
  have hproduct := hs.mul_two_pow (two_pow_hasValue hpower) hsmall
  have hlesser := hproduct.min_eq minute_hasValue
  have hvalue : (((RetryPolicy.exponential b).seconds k).min
      (Duration.toSeconds ⟨60000000000⟩)).HasValue
        (if 60 < s * 2 ^ min k 63 then 60 else s * 2 ^ min k 63) := by
    have hseconds : (RetryPolicy.exponential b).seconds k =
        b.toSeconds.mul ((Binary64.ofNat 2).pow (min k 63)) := rfl
    rw [hseconds, hlesser]
    split
    · exact minute_hasValue
    · exact hproduct
  have hback := Duration.ofBinary64?_eq hvalue (cut_near hclose)
    (Nat.le_trans (Nat.min_le_right _ _) (by decide))
  -- From the sixty-third power on every delay is a minute.
  have hexponent : min (b.nanos * 2 ^ min k 63) 60000000000 =
      min (b.nanos * 2 ^ k) 60000000000 := by
    rcases Nat.le_total k 63 with hk | hk
    · rw [Nat.min_eq_left hk]
    · have hfar : ∀ i, 63 ≤ i → 60000000000 ≤ b.nanos * 2 ^ i := fun i hi =>
        calc 60000000000 ≤ 1 * 2 ^ 63 := by decide
          _ ≤ b.nanos * 2 ^ i := Nat.mul_le_mul pos (Nat.pow_le_pow_right (by decide) hi)
      rw [Nat.min_eq_right hk, Nat.min_eq_right (hfar 63 (le_refl _)), Nat.min_eq_right (hfar k hk)]
  rw [RetryPolicy.delayForRetry_eq, hcap, Duration.capped, hback, hexponent, Option.elim_some]
  exact congrArg Duration.mk (Nat.min_eq_left (Nat.min_le_right _ _))

/-! ## Delays beyond a minute -/

/-- A number of at least one, or beyond all finite ones. -/
def Binary64.IsAtLeastOne (x : Binary64) : Prop :=
  x = .infinity false ∨ ∃ m e, x = .finite false m e ∧ 1 ≤ dyadic m e ∧ -1074 ≤ e

theorem Binary64.Rounds.isAtLeastOne {x : Binary64} {v : ℚ} (h : x.Rounds v) (hv : 1 ≤ v) :
    x.IsAtLeastOne := by
  obtain ⟨num, den, hden, rfl, rfl⟩ := h
  exact Binary64.ofRatio_ge_one false hden hv

theorem Binary64.IsAtLeastOne.add {x y : Binary64} {u : ℚ} (hx : x.IsAtLeastOne)
    (hy : y.HasValue u) : (x.add y).IsAtLeastOne := by
  have hu := hy.nonneg
  obtain ⟨n, f, rfl, rfl, hf⟩ := hy.exists_finite
  rcases hx with rfl | ⟨m, e, rfl, hone, he⟩
  · exact .inl rfl
  · exact (Binary64.add_rounds m n he hf).isAtLeastOne (by linarith)

theorem Binary64.IsAtLeastOne.mul {x y : Binary64} (hx : x.IsAtLeastOne)
    (hy : y.IsAtLeastOne) : (x.mul y).IsAtLeastOne := by
  have nonzero : ∀ {m : Nat} {e : Int}, 1 ≤ dyadic m e → m ≠ 0 := by
    rintro m e hone rfl
    rw [dyadic, Nat.cast_zero, zero_mul] at hone
    exact absurd hone (by norm_num)
  rcases hx with rfl | ⟨m, e, rfl, hone, -⟩
  · rcases hy with rfl | ⟨n, f, rfl, hone', -⟩
    · exact .inl rfl
    · exact .inl (if_neg (nonzero hone'))
  · rcases hy with rfl | ⟨n, f, rfl, hone', -⟩
    · exact .inl (if_neg (nonzero hone))
    · exact (Binary64.mul_rounds m n e f).isAtLeastOne (one_le_mul_of_one_le_of_one_le hone hone')

/-- A number of seconds that is at least one stands for at least a second, if for any span. -/
theorem Binary64.IsAtLeastOne.second_le {x : Binary64} {d : Duration} (h : x.IsAtLeastOne)
    (hd : Duration.ofBinary64? x = some d) : 1000000000 ≤ d.nanos := by
  rcases h with rfl | ⟨m, e, rfl, hone, -⟩
  · exact absurd hd (by simp [Duration.ofBinary64?])
  · unfold Duration.ofBinary64? at hd
    dsimp only at hd
    rw [if_neg (by simp)] at hd
    split at hd
    · obtain rfl := Option.some.inj hd
      refine le_roundHalfEven (Binary64.magnitude_pos m e) ?_
      rw [Nat.cast_mul, mul_div_right_comm, Binary64.magnitude_div]
      push_cast
      linarith
    · exact absurd hd (by simp)

theorem Binary64.HasValue.isAtLeastOne {x : Binary64} {v : ℚ} (h : x.HasValue v) (hv : 1 ≤ v) :
    x.IsAtLeastOne := by
  obtain ⟨m, e, rfl, rfl, he⟩ := h.exists_finite
  exact .inr ⟨m, e, rfl, hv, he⟩

theorem Duration.toSeconds_isAtLeastOne {d : Duration} (long : 1000000000 ≤ d.nanos) :
    d.toSeconds.IsAtLeastOne := by
  obtain ⟨u, hu, -⟩ := Duration.exists_fraction (d.nanos % 1000000000) (Nat.mod_lt _ (by decide))
  have hwhole : 1 ≤ d.nanos / 1000000000 := by omega
  exact ((Binary64.ofNat_rounds _).isAtLeastOne (by exact_mod_cast hwhole)).add hu

/-- Delays that begin with a second or more are never shorter than a second. -/
theorem RetryPolicy.second_le_delayForRetry {b : Duration} (long : 1000000000 ≤ b.nanos)
    (k : Nat) : 1000000000 ≤ ((RetryPolicy.exponential b).delayForRetry k).nanos := by
  have hcap : 1000000000 ≤ (RetryPolicy.exponential b).cap.nanos :=
    Nat.le_trans (by decide) (Nat.le_max_left 60000000000 b.nanos)
  have hpower : ((Binary64.ofNat 2).pow (min k 63)).IsAtLeastOne :=
    (two_pow_hasValue (Nat.min_le_right k 63)).isAtLeastOne (one_le_pow₀ one_le_two)
  have hproduct := (Duration.toSeconds_isAtLeastOne long).mul hpower
  have hlesser : ((b.toSeconds.mul ((Binary64.ofNat 2).pow (min k 63))).min
      (RetryPolicy.exponential b).cap.toSeconds).IsAtLeastOne := by
    rcases Binary64.min_cases (b.toSeconds.mul ((Binary64.ofNat 2).pow (min k 63)))
      (RetryPolicy.exponential b).cap.toSeconds with h | h
    · rwa [h]
    · rw [h]
      exact Duration.toSeconds_isAtLeastOne hcap
  unfold RetryPolicy.delayForRetry
  dsimp only
  split
  · rename_i d hd
    exact Nat.le_min.2 ⟨hlesser.second_le hd, hcap⟩
  · exact hcap

end Courier
