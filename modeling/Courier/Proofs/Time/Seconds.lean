import Courier.Proofs.Number.Order
import Courier.Time.Duration

set_option autoImplicit false

/-! # Spans in binary seconds

A span of up to a million seconds is off by far less than half a nanosecond once it is written as a
binary number of seconds (`Duration.exists_seconds`), and on the way back a number of seconds is
rounded to the nearest nanosecond. The way back keeps the order, also where it is cut off at a cap
(`Duration.capped_mono`). -/

namespace Courier

/-! ## Seconds -/

theorem hasValue_billion : (Binary64.ofNat 1000000000).HasValue 1000000000 := by
  exact_mod_cast Binary64.ofNat_hasValue (n := 1000000000) (by decide)

/-- Seconds between a nanosecond and eleven days are well within the range of full precision. -/
theorem Binary64.Rounds.near_seconds {x : Binary64} {v : ℚ} (h : x.Rounds v) (hlow : 1 / 2 ^ 31 ≤ v)
    (hhigh : v ≤ 2 ^ 20) : ∃ u, x.HasValue u ∧ |u - v| ≤ v / 2 ^ 53 := by
  refine h.near ?_ ?_
  · calc (2 : ℚ) ^ (-1022 : Int) ≤ 2 ^ (-31 : Int) := zpow_le_zpow_right₀ one_le_two (by decide)
      _ = 1 / 2 ^ 31 := by norm_num
      _ ≤ v := hlow
  · calc v ≤ 2 ^ 20 := hhigh
      _ = 2 ^ (20 : Int) := by norm_num
      _ < 2 ^ (1023 : Int) := two_zpow_lt_iff.2 (by decide)

/-- The part of a span below a second, in seconds. -/
theorem Duration.exists_fraction (n : Nat) (h : n < 1000000000) :
    ∃ u, ((Binary64.ofNat n).div (Binary64.ofNat 1000000000)).HasValue u ∧
      |u - n / 1000000000| ≤ n / 1000000000 / 2 ^ 53 := by
  have hround := (Binary64.ofNat_hasValue (show n < 2 ^ 53 by omega)).div hasValue_billion
    (by norm_num)
  by_cases hzero : n = 0
  · rw [hzero, Nat.cast_zero, zero_div] at hround
    refine ⟨0, hzero ▸ hround.zero, ?_⟩
    rw [hzero]
    norm_num
  · have hlow : (1 : ℚ) ≤ n := by exact_mod_cast Nat.pos_of_ne_zero hzero
    have hhigh : (n : ℚ) ≤ 1000000000 := by exact_mod_cast h.le
    refine hround.near_seconds ?_ ?_
    · rw [le_div_iff₀ (by norm_num)]
      norm_num
      linarith
    · rw [div_le_iff₀ (by norm_num)]
      linarith

theorem Duration.toSeconds_zero : Duration.zero.toSeconds.HasValue 0 := by
  have hzero : Duration.zero.toSeconds = .finite false 0 (-1074) := by decide +kernel
  exact ⟨0, -1074, hzero, by rw [dyadic, Nat.cast_zero, zero_mul], .inl ⟨rfl, rfl⟩⟩

/-- A span of up to a million seconds, in seconds, is off by at most one part in `2 ^ 51`. -/
theorem Duration.exists_seconds (d : Duration) (short : d.nanos ≤ 1000000000000000) :
    ∃ s, d.toSeconds.HasValue s ∧ |s - d.nanos / 1000000000| ≤ d.nanos / 1000000000 / 2 ^ 51 := by
  obtain ⟨n⟩ := d
  dsimp only at short ⊢
  rcases Nat.eq_zero_or_pos n with rfl | pos
  · exact ⟨0, Duration.toSeconds_zero, by norm_num⟩
  have hwhole : n / 1000000000 < 2 ^ 53 := by omega
  have hmod : n % 1000000000 < 1000000000 := Nat.mod_lt _ (by decide)
  obtain ⟨u, hu, hfraction⟩ := Duration.exists_fraction (n % 1000000000) hmod
  have hround := (Binary64.ofNat_hasValue hwhole).add hu
  have hsplit : (n / 1000000000 : ℚ) =
      (n / 1000000000 : Nat) + (n % 1000000000 : Nat) / 1000000000 := by
    have hcast : (n : ℚ) = (n / 1000000000 : Nat) * 1000000000 + (n % 1000000000 : Nat) := by
      exact_mod_cast (Nat.div_add_mod' n 1000000000).symm
    rw [hcast, add_div, mul_div_cancel_right₀ _ (by norm_num)]
  have hlow : (1 / 1000000000 : ℚ) ≤ n / 1000000000 := by
    gcongr
    exact_mod_cast pos
  have hhigh : (n / 1000000000 : ℚ) ≤ 1000000 := by
    rw [div_le_iff₀ (by norm_num)]
    norm_num
    exact_mod_cast short
  have hwhole' : (0 : ℚ) ≤ (n / 1000000000 : Nat) := Nat.cast_nonneg _
  have hrest : (0 : ℚ) ≤ (n % 1000000000 : Nat) / 1000000000 := by positivity
  unfold Duration.toSeconds
  dsimp only
  rw [hsplit] at hlow hhigh ⊢
  generalize ((n / 1000000000 : Nat) : ℚ) = q at *
  generalize ((n % 1000000000 : Nat) / 1000000000 : ℚ) = r at *
  obtain ⟨hbelow, habove⟩ := abs_sub_le_iff.1 hfraction
  obtain ⟨s, hs, hclose⟩ := hround.near_seconds (by linarith) (by linarith)
  refine ⟨s, hs, ?_⟩
  obtain ⟨hlower, hupper⟩ := abs_sub_le_iff.1 hclose
  rw [abs_sub_le_iff]
  constructor <;> linarith

/-- The seconds of a span are a number of the format and not negative. -/
theorem Duration.toSeconds_isMagnitude (d : Duration) : d.toSeconds.IsMagnitude := by
  obtain ⟨u, hu, -⟩ := Duration.exists_fraction (d.nanos % 1000000000) (Nat.mod_lt _ (by decide))
  exact (Binary64.ofNat_rounds (d.nanos / 1000000000)).isMagnitude.add hu.isMagnitude

/-! ## The way back -/

/-- The nanoseconds that a finite number of seconds is nearest to. -/
def secondsNanos (m : Nat) (e : Int) : Nat :=
  roundHalfEven ((Binary64.magnitude m e).1 * 1000000000) (Binary64.magnitude m e).2

theorem magnitude_nanos (m : Nat) (e : Int) :
    (((Binary64.magnitude m e).1 * 1000000000 : Nat) / (Binary64.magnitude m e).2 : ℚ) =
      dyadic m e * 1000000000 := by
  rw [Nat.cast_mul, mul_div_right_comm, Binary64.magnitude_div]
  norm_cast

theorem abs_secondsNanos_sub_le (m : Nat) (e : Int) :
    |(secondsNanos m e : ℚ) - dyadic m e * 1000000000| ≤ 1 / 2 := by
  rw [← magnitude_nanos]
  exact abs_roundHalfEven_sub_le _ (Binary64.magnitude_pos m e)

theorem secondsNanos_mono {m n : Nat} {e f : Int} (h : dyadic m e ≤ dyadic n f) :
    secondsNanos m e ≤ secondsNanos n f := by
  refine roundHalfEven_mono (Binary64.magnitude_pos m e) (Binary64.magnitude_pos n f) ?_
  rw [magnitude_nanos, magnitude_nanos]
  gcongr

theorem Duration.ofBinary64?_finite (m : Nat) (e : Int) :
    Duration.ofBinary64? (.finite false m e) =
      if secondsNanos m e ≤ Duration.longest.nanos then some ⟨secondsNanos m e⟩ else none := by
  unfold Duration.ofBinary64?
  dsimp only
  rw [if_neg (by simp)]
  rfl

/-- A number of seconds less than half a nanosecond away from a whole number of them becomes that
    one. -/
theorem Duration.ofBinary64?_eq {x : Binary64} {v : ℚ} {n : Nat} (hx : x.HasValue v)
    (hnear : |v * 1000000000 - n| < 1 / 2) (hn : n ≤ Duration.longest.nanos) :
    Duration.ofBinary64? x = some ⟨n⟩ := by
  obtain ⟨m, e, rfl, rfl, -⟩ := hx.exists_finite
  have hround : secondsNanos m e = n := by
    refine roundHalfEven_eq (Binary64.magnitude_pos m e) ?_
    rwa [magnitude_nanos]
  rw [Duration.ofBinary64?_finite, hround, if_pos hn]

theorem Duration.eq_of_nanos {a b : Duration} (h : a.nanos = b.nanos) : a = b :=
  congrArg Duration.mk h

/-- The span for a number of seconds, cut off at a cap. The cap stands in for a number that stands
    for no span. -/
def Duration.capped (cap : Duration) (x : Binary64) : Duration :=
  (Duration.ofBinary64? x).elim cap fun d => d.min cap

theorem Duration.capped_le (cap : Duration) (x : Binary64) :
    (cap.capped x).nanos ≤ cap.nanos := by
  unfold Duration.capped
  cases Duration.ofBinary64? x with
  | none => exact le_rfl
  | some d => exact Nat.min_le_right _ _

theorem Duration.capped_of_top (cap : Duration) {x : Binary64} (h : x.size = ⊤) :
    cap.capped x = cap := by
  cases x with
  | nan => rfl
  | infinity s => rfl
  | finite s m e => exact absurd h WithTop.coe_ne_top

theorem Duration.capped_finite (cap : Duration) (m : Nat) (e : Int) :
    (cap.capped (.finite false m e)).nanos =
      if secondsNanos m e ≤ Duration.longest.nanos then Min.min (secondsNanos m e) cap.nanos
      else cap.nanos := by
  unfold Duration.capped
  rw [Duration.ofBinary64?_finite]
  split <;> rfl

theorem Duration.capped_of_zero (cap : Duration) {x : Binary64} (hx : x.IsMagnitude)
    (h : x.size ≤ 0) : cap.capped x = .zero := by
  obtain ⟨v, hv, hle⟩ := WithTop.le_coe_iff.1 h
  obtain ⟨m, e, rfl, rfl⟩ := hx.exists_finite hv
  have hzero : dyadic m e = 0 := le_antisymm hle (dyadic_nonneg m e)
  have hnear := (abs_sub_le_iff.1 (abs_secondsNanos_sub_le m e)).1
  rw [hzero, zero_mul, sub_zero] at hnear
  have hnone : secondsNanos m e = 0 := by
    have hless : (secondsNanos m e : ℚ) < 1 := by linarith
    exact Nat.lt_one_iff.1 (by exact_mod_cast hless)
  refine Duration.eq_of_nanos ?_
  rw [cap.capped_finite, hnone, if_pos (Nat.zero_le _), Nat.zero_min]
  rfl

/-- A greater number of seconds is cut off to no shorter a span. -/
theorem Duration.capped_mono (cap : Duration) {x y : Binary64} (hx : x.IsMagnitude)
    (hy : y.IsMagnitude) (h : x.size ≤ y.size) :
    (cap.capped x).nanos ≤ (cap.capped y).nanos := by
  by_cases htop : y.size = ⊤
  · rw [cap.capped_of_top htop]
    exact cap.capped_le x
  · obtain ⟨u, hu⟩ := WithTop.ne_top_iff_exists.1 htop
    rw [← hu] at h
    obtain ⟨v, hv, hle⟩ := WithTop.le_coe_iff.1 h
    obtain ⟨m, e, rfl, rfl⟩ := hx.exists_finite hv
    obtain ⟨n, f, rfl, rfl⟩ := hy.exists_finite hu.symm
    have hnanos := secondsNanos_mono hle
    rw [cap.capped_finite, cap.capped_finite]
    split <;> split <;> omega

end Courier
