import Courier.Proofs.Number.Rounding

set_option autoImplicit false

/-! # Sums, products and quotients of finite numbers

An operation on finite numbers of the 64-bit format is the exact rational result, rounded. A result
is described in two steps: `Binary64.Rounds x v` says that `x` is what the magnitude `v` is rounded
to, and `Binary64.HasValue x v` that `x` is zero or of full precision and is `v` exactly. -/

namespace Courier

/-! ## Values -/

/-- A number that is what a magnitude is rounded to. -/
def Binary64.Rounds (x : Binary64) (v : ℚ) : Prop :=
  ∃ num den : Nat, 0 < den ∧ (num / den : ℚ) = v ∧ x = Binary64.ofRatio false num den

/-- A number that is zero or of full precision, with its magnitude. -/
def Binary64.HasValue (x : Binary64) (v : ℚ) : Prop :=
  ∃ m e, x = .finite false m e ∧ dyadic m e = v ∧ (m = 0 ∧ e = -1074 ∨ IsNormal m e)

variable {x y : Binary64} {v u : ℚ}

theorem Binary64.HasValue.nonneg (h : x.HasValue v) : 0 ≤ v := by
  obtain ⟨m, e, -, rfl, -⟩ := h
  unfold dyadic
  positivity

/-- A magnitude of zero is rounded to zero. -/
theorem Binary64.Rounds.zero (h : x.Rounds 0) : x.HasValue 0 := by
  obtain ⟨num, den, hden, hv, rfl⟩ := h
  have hnum : num = 0 := by
    rcases div_eq_zero_iff.1 hv with hnum | hzero
    · exact_mod_cast hnum
    · exact absurd hzero (Nat.cast_ne_zero.2 hden.ne')
  refine ⟨0, -1074, ?_, ?_, .inl ⟨rfl, rfl⟩⟩
  · rw [hnum, Binary64.ofRatio, if_pos rfl]
  · rw [dyadic, Nat.cast_zero, zero_mul]

/-- A magnitude in the range of full precision is rounded to one nearby. -/
theorem Binary64.Rounds.near (h : x.Rounds v) (hlow : (2 : ℚ) ^ (-1022 : Int) ≤ v)
    (hhigh : v < 2 ^ (1023 : Int)) : ∃ u, x.HasValue u ∧ |u - v| ≤ v / 2 ^ 53 := by
  obtain ⟨num, den, hden, rfl, rfl⟩ := h
  obtain ⟨m, e, hround, hnormal, hclose⟩ := Binary64.ofRatio_near false hden hlow hhigh
  exact ⟨_, ⟨m, e, hround, rfl, .inr hnormal⟩, hclose⟩

/-- A magnitude of full precision is kept. -/
theorem Binary64.Rounds.exact {m : Nat} {e : Int} (h : x.Rounds (dyadic m e))
    (hm : IsNormal m e) : x.HasValue (dyadic m e) := by
  obtain ⟨num, den, hden, hv, rfl⟩ := h
  exact ⟨m, e, Binary64.ofRatio_exact false hden hm hv, rfl, .inr hm⟩

/-! ## Whole numbers -/

theorem Binary64.ofNat_rounds (n : Nat) : (Binary64.ofNat n).Rounds n :=
  ⟨n, 1, Nat.one_pos, by norm_num, rfl⟩

/-- A positive whole number of at most 53 bits has full precision. -/
theorem exists_normal_eq {n : Nat} (hpos : n ≠ 0) (h : n < 2 ^ 53) :
    ∃ m e, IsNormal m e ∧ dyadic m e = n := by
  have hlow := Nat.log2_self_le hpos
  have hhigh : n < 2 ^ (n.log2 + 1) := Nat.lt_log2_self
  have hlog : n.log2 < 53 := (Nat.log2_lt hpos).2 h
  obtain ⟨k, hk⟩ := Nat.exists_eq_add_of_le (Nat.le_of_lt_succ hlog)
  have hpow : 2 ^ n.log2 * 2 ^ k = 2 ^ 52 := by rw [← Nat.pow_add, ← hk]
  refine ⟨n * 2 ^ k, -(k : Int), ⟨?_, ?_, by omega, by omega⟩, ?_⟩
  · rw [← hpow]
    exact Nat.mul_le_mul_right _ hlow
  · calc n * 2 ^ k
        < 2 ^ (n.log2 + 1) * 2 ^ k := Nat.mul_lt_mul_of_pos_right hhigh (Nat.two_pow_pos k)
      _ = 2 ^ 52 * 2 := by rw [Nat.pow_succ, Nat.mul_right_comm, hpow]
  · rw [dyadic, zpow_neg, zpow_natCast]
    push_cast
    rw [mul_inv_cancel_right₀ (by positivity)]

/-- A whole number of at most 53 bits is kept. -/
theorem Binary64.ofNat_hasValue {n : Nat} (h : n < 2 ^ 53) : (Binary64.ofNat n).HasValue n := by
  have hround := Binary64.ofNat_rounds n
  by_cases hzero : n = 0
  · subst hzero
    exact_mod_cast (show (Binary64.ofNat 0).Rounds 0 by exact_mod_cast hround).zero
  · obtain ⟨m, e, hnormal, hvalue⟩ := exists_normal_eq hzero h
    rw [← hvalue] at hround ⊢
    exact hround.exact hnormal

/-! ## Operations -/

theorem dyadic_mul (m n : Nat) (e f : Int) : dyadic (m * n) (e + f) = dyadic m e * dyadic n f := by
  unfold dyadic
  rw [zpow_add₀ two_ne_zero]
  push_cast
  ring

theorem dyadic_div (m n : Nat) (e f : Int) : dyadic m (e - f) / n = dyadic m e / dyadic n f := by
  unfold dyadic
  rw [zpow_sub₀ two_ne_zero]
  field_simp

/-- A product is the exact one, rounded. -/
theorem Binary64.mul_rounds (m n : Nat) (e f : Int) :
    ((Binary64.finite false m e).mul (.finite false n f)).Rounds (dyadic m e * dyadic n f) :=
  ⟨_, _, Binary64.magnitude_pos (m * n) (e + f),
    (Binary64.magnitude_div (m * n) (e + f)).trans (dyadic_mul m n e f), rfl⟩

/-- A quotient is the exact one, rounded. -/
theorem Binary64.div_rounds (m : Nat) {n : Nat} (hn : n ≠ 0) (e f : Int) :
    ((Binary64.finite false m e).div (.finite false n f)).Rounds (dyadic m e / dyadic n f) := by
  refine ⟨(Binary64.magnitude m (e - f)).1, (Binary64.magnitude m (e - f)).2 * n,
    Nat.mul_pos (Binary64.magnitude_pos _ _) (Nat.pos_of_ne_zero hn), ?_, ?_⟩
  · rw [Nat.cast_mul, ← div_div, Binary64.magnitude_div, dyadic_div]
  · rw [Binary64.div, if_neg hn]
    rfl

/-- A magnitude in units of the least one. -/
theorem Binary64.units_eq (m : Nat) {e : Int} (he : -1074 ≤ e) :
    (Binary64.units false m e : ℚ) = dyadic m (e + 1074) := by
  obtain ⟨k, hk⟩ := Int.eq_ofNat_of_zero_le (show 0 ≤ e + 1074 by omega)
  unfold Binary64.units dyadic
  rw [hk, Int.toNat_natCast, zpow_natCast]
  show (((m * 2 ^ k : Nat) : Int) : ℚ) = _
  push_cast
  rfl

theorem natPow_two_pos (k : Nat) : 0 < Nat.pow 2 k :=
  Nat.two_pow_pos k

theorem natCast_two_pow (k : Nat) {e : Int} (h : e = k) : ((Nat.pow 2 k : Nat) : ℚ) = 2 ^ e := by
  rw [h, zpow_natCast]
  exact_mod_cast rfl

/-- A sum is the exact one, rounded. -/
theorem Binary64.add_rounds (m n : Nat) {e f : Int} (he : -1074 ≤ e) (hf : -1074 ≤ f) :
    ((Binary64.finite false m e).add (.finite false n f)).Rounds (dyadic m e + dyadic n f) := by
  have hm : 0 ≤ Binary64.units false m e := Int.natCast_nonneg _
  have hn : 0 ≤ Binary64.units false n f := Int.natCast_nonneg _
  have hsum : ((Binary64.units false m e + Binary64.units false n f : Int) : ℚ) =
      (dyadic m e + dyadic n f) * 2 ^ (1074 : Int) := by
    rw [Int.cast_add, Binary64.units_eq m he, Binary64.units_eq n hf, dyadic_add, dyadic_add,
      add_mul]
  have hp : (2 : ℚ) ^ (1074 : Int) ≠ 0 := zpow_ne_zero _ two_ne_zero
  have hden := natPow_two_pos 1074
  have hunit := natCast_two_pow 1074 (e := 1074) rfl
  unfold Binary64.add
  dsimp only
  obtain ⟨sum, hnat⟩ := Int.eq_ofNat_of_zero_le (Int.add_nonneg hm hn)
  rw [hnat] at hsum ⊢
  rw [Int.cast_natCast] at hsum
  refine ⟨sum, _, hden, ?_, ?_⟩
  · rw [hsum, hunit, mul_div_cancel_right₀ _ hp]
  · split
    · rename_i hzero
      rw [Int.natCast_eq_zero.1 hzero, Binary64.ofRatio, if_pos rfl, Bool.and_false]
    · rw [decide_eq_false (not_lt.2 (Int.natCast_nonneg sum)), Int.natAbs_natCast]

/-! ## Operations on values -/

theorem Binary64.HasValue.exists_finite (h : x.HasValue v) :
    ∃ m e, x = .finite false m e ∧ dyadic m e = v ∧ -1074 ≤ e := by
  obtain ⟨m, e, rfl, rfl, ⟨-, rfl⟩ | hm⟩ := h
  · exact ⟨m, -1074, rfl, rfl, le_refl _⟩
  · exact ⟨m, e, rfl, rfl, hm.le_exponent⟩

theorem Binary64.HasValue.add (hx : x.HasValue v) (hy : y.HasValue u) :
    (x.add y).Rounds (v + u) := by
  obtain ⟨m, e, rfl, rfl, he⟩ := hx.exists_finite
  obtain ⟨n, f, rfl, rfl, hf⟩ := hy.exists_finite
  exact Binary64.add_rounds m n he hf

theorem Binary64.HasValue.div (hx : x.HasValue v) (hy : y.HasValue u) (hu : u ≠ 0) :
    (x.div y).Rounds (v / u) := by
  obtain ⟨m, e, rfl, rfl, -⟩ := hx
  obtain ⟨n, f, rfl, rfl, -⟩ := hy
  refine Binary64.div_rounds m ?_ e f
  rintro rfl
  exact hu (by rw [dyadic, Nat.cast_zero, zero_mul])

/-- A product with a power of two is exact unless it is too large. -/
theorem Binary64.HasValue.mul_two_pow {k : Nat} (hx : x.HasValue v) (hy : y.HasValue (2 ^ k))
    (h : v * 2 ^ k < 2 ^ (1024 : Int)) : (x.mul y).HasValue (v * 2 ^ k) := by
  obtain ⟨m, e, rfl, rfl, hm⟩ := hx
  obtain ⟨n, f, rfl, hvalue, -⟩ := hy
  have hround := Binary64.mul_rounds m n e f
  rw [hvalue] at hround
  rcases hm with ⟨rfl, -⟩ | hm
  · have hzero : dyadic 0 e * 2 ^ k = 0 := by rw [dyadic, Nat.cast_zero, zero_mul, zero_mul]
    rw [hzero] at hround ⊢
    exact hround.zero
  · have hshift : dyadic m e * 2 ^ k = dyadic m (e + k) := by rw [dyadic_add, zpow_natCast]
    rw [hshift] at hround h ⊢
    have hfits : IsNormal m (e + k) := by
      have hle := hm.le_exponent
      -- The significand has 53 bits, so the exponent is that of the product less 52.
      have hlow : (2 : ℚ) ^ (e + k + 52) ≤ dyadic m (e + k) := by
        rw [dyadic_add, show e + k + 52 = e + 52 + k by omega, zpow_add₀ two_ne_zero]
        exact mul_le_mul_of_nonneg_right hm.bounds.1 (zpow_pos two_pos _).le
      have hlt := two_zpow_lt_iff.1 (hlow.trans_lt h)
      exact ⟨hm.le_significand, hm.significand_lt, by omega, by omega⟩
    exact hround.exact hfits

theorem Binary64.lt_iff (m n : Nat) {e f : Int} (he : -1074 ≤ e) (hf : -1074 ≤ f) :
    (Binary64.finite false m e).lt (.finite false n f) = true ↔ dyadic m e < dyadic n f := by
  have hp : (0 : ℚ) < 2 ^ (1074 : Int) := zpow_pos two_pos _
  unfold Binary64.lt
  dsimp only
  rw [decide_eq_true_iff, ← Int.cast_lt (R := ℚ), Binary64.units_eq m he, Binary64.units_eq n hf,
    dyadic_add, dyadic_add, mul_lt_mul_iff_left₀ hp]

theorem Binary64.HasValue.lt_iff (hx : x.HasValue v) (hy : y.HasValue u) :
    x.lt y = true ↔ v < u := by
  obtain ⟨m, e, rfl, rfl, he⟩ := hx.exists_finite
  obtain ⟨n, f, rfl, rfl, hf⟩ := hy.exists_finite
  exact Binary64.lt_iff m n he hf

/-- The lesser of two numbers is the one with the lesser value. -/
theorem Binary64.HasValue.min_eq (hx : x.HasValue v) (hy : y.HasValue u) :
    x.min y = if u < v then y else x := by
  have hlt := hy.lt_iff hx
  obtain ⟨m, e, rfl, -, -⟩ := hx.exists_finite
  obtain ⟨n, f, rfl, -, -⟩ := hy.exists_finite
  unfold Binary64.min
  dsimp only
  by_cases h : u < v
  · rw [if_pos (hlt.2 h), if_pos h]
  · rw [if_neg (mt hlt.1 h), if_neg h]

end Courier
