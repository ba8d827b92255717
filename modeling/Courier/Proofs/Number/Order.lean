import Courier.Proofs.Number.Arithmetic
import Mathlib.Order.WithBot

set_option autoImplicit false

/-! # Rounding keeps the order

Of two magnitudes the greater one is never rounded to less, and rounding does not depend on how a
magnitude is written as a quotient. So the size of a product, which is the rounded product of the
sizes of its factors, never falls when the factors grow: `Binary64.size_mul_le`. Infinities, and
what is no number, count as beyond all sizes; that makes the rule hold for all factors, since a
product with one of them is one of them. -/

namespace Courier

/-! ## Whole numbers -/

/-- A quotient halfway between two whole numbers is rounded to the even one. -/
theorem roundHalfEven_even {num den q : Nat} (h : 0 < den) (half : 2 * num = (2 * q + 1) * den) :
    roundHalfEven num den % 2 = 0 := by
  have hodd : (2 * q + 1) * den = 2 * (q * den) + den := by
    rw [Nat.succ_mul, Nat.mul_assoc]
  have hdiv : num / den = q := by
    refine Nat.div_eq_of_lt_le ?_ ?_
    · omega
    · rw [Nat.succ_mul]
      omega
  have hmod : 2 * (num % den) = den := by
    have hsplit := Nat.div_add_mod' num den
    rw [hdiv] at hsplit
    omega
  unfold roundHalfEven
  dsimp only
  rw [hdiv, hmod, if_neg (lt_irrefl den), if_neg (lt_irrefl den)]
  split
  · assumption
  · omega

/-- Rounding to whole numbers keeps the order. -/
theorem roundHalfEven_mono {a b c d : Nat} (hb : 0 < b) (hd : 0 < d)
    (h : (a / b : ℚ) ≤ c / d) : roundHalfEven a b ≤ roundHalfEven c d := by
  by_contra hfalls
  have hnear := (abs_sub_le_iff.1 (abs_roundHalfEven_sub_le a hb)).1
  have hfar := (abs_sub_le_iff.1 (abs_roundHalfEven_sub_le c hd)).2
  have hstep : (roundHalfEven c d : ℚ) + 1 ≤ roundHalfEven a b := by
    exact_mod_cast not_le.1 hfalls
  -- Both quotients are halfway between the two results, of which only one is even.
  have hfirst : (a / b : ℚ) = (2 * roundHalfEven c d + 1) / 2 := by linarith
  have hsecond : (c / d : ℚ) = (2 * roundHalfEven c d + 1) / 2 := by linarith
  have hnext : roundHalfEven a b = roundHalfEven c d + 1 := by
    refine Nat.le_antisymm ?_ (not_le.1 hfalls)
    have : (roundHalfEven a b : ℚ) ≤ roundHalfEven c d + 1 := by linarith
    exact_mod_cast this
  have half : ∀ {m n : Nat}, 0 < n → (m / n : ℚ) = (2 * roundHalfEven c d + 1) / 2 →
      2 * m = (2 * roundHalfEven c d + 1) * n := by
    intro m n hn heq
    rw [div_eq_div_iff (Nat.cast_ne_zero.2 hn.ne') two_ne_zero, mul_comm] at heq
    exact_mod_cast heq
  have heven := roundHalfEven_even hb (half hb hfirst)
  have heven' := roundHalfEven_even hd (half hd hsecond)
  omega

/-! ## Magnitudes -/

theorem dyadic_nonneg (m : Nat) (e : Int) : 0 ≤ dyadic m e := by
  unfold dyadic
  positivity

theorem dyadic_le {m n : Nat} (h : m ≤ n) (e : Int) : dyadic m e ≤ dyadic n e := by
  unfold dyadic
  gcongr

theorem dyadic_two_pow (k : Nat) (e : Int) : dyadic (2 ^ k) e = 2 ^ (e + k) := by
  rw [dyadic, ← two_zpow_add, zpow_natCast]
  push_cast
  rfl

/-- What a magnitude is rounded to if exponents may be as large as they like. -/
def Binary64.rounded (num den : Nat) : ℚ :=
  dyadic (Binary64.significandAt num den (Binary64.exponentOf num den))
    (Binary64.exponentOf num den)

theorem Binary64.rounded_zero {den : Nat} (hden : 0 < den) : Binary64.rounded 0 den = 0 := by
  have hzero : ∀ e, Binary64.significandAt 0 den e = 0 := by
    intro e
    refine Nat.le_zero.1 (roundHalfEven_le (Binary64.scaled_pos 0 hden e) ?_)
    rw [Binary64.scaled_div, Nat.cast_zero, zero_div, zero_div]
  rw [Binary64.rounded, hzero, dyadic, Nat.cast_zero, zero_mul]

/-- Rounding keeps the order of magnitudes. -/
theorem Binary64.rounded_mono {num den num' den' : Nat} (hden : 0 < den) (hden' : 0 < den')
    (h : (num / den : ℚ) ≤ num' / den') :
    Binary64.rounded num den ≤ Binary64.rounded num' den' := by
  by_cases hnum : num = 0
  · rw [hnum, Binary64.rounded_zero hden]
    exact dyadic_nonneg _ _
  have hnum' : num' ≠ 0 := by
    rintro rfl
    have hpos : (0 : ℚ) < num / den := by
      have := Nat.pos_of_ne_zero hnum
      positivity
    rw [Nat.cast_zero, zero_div] at h
    exact absurd h (not_le.2 hpos)
  obtain ⟨hleast, habove, hbelow⟩ := Binary64.exponentOf_spec hnum hden.ne'
  obtain ⟨hleast', habove', hbelow'⟩ := Binary64.exponentOf_spec hnum' hden'.ne'
  unfold Binary64.rounded
  generalize Binary64.exponentOf num den = e at hleast habove hbelow ⊢
  generalize Binary64.exponentOf num' den' = f at hleast' habove' hbelow' ⊢
  rcases lt_trichotomy e f with hlt | rfl | hgt
  · -- The next power of two separates the two magnitudes.
    have hfits : (2 : ℚ) ^ (f + 52) ≤ num' / den' := hbelow'.resolve_left (by omega)
    calc dyadic (Binary64.significandAt num den e) e
        ≤ dyadic (2 ^ 53) e := dyadic_le (Binary64.significandAt_le hden habove) e
      _ = 2 ^ (e + 53) := by exact_mod_cast dyadic_two_pow 53 e
      _ ≤ 2 ^ (f + 52) := zpow_le_zpow_right₀ one_le_two (by omega)
      _ = dyadic (2 ^ 52) f := by exact_mod_cast (dyadic_two_pow 52 f).symm
      _ ≤ dyadic (Binary64.significandAt num' den' f) f :=
        dyadic_le (Binary64.le_significandAt hden' hfits) f
  · refine dyadic_le (roundHalfEven_mono (Binary64.scaled_pos num hden e)
      (Binary64.scaled_pos num' hden' e) ?_) e
    rw [Binary64.scaled_div, Binary64.scaled_div]
    gcongr
  · have hfits : (2 : ℚ) ^ (e + 52) ≤ num / den := hbelow.resolve_left (by omega)
    have := two_zpow_lt_iff.1 (hfits.trans_lt (h.trans_lt habove'))
    omega

/-- What a magnitude is rounded to, however it is written as a quotient. -/
def Binary64.nearest (v : ℚ) : ℚ := Binary64.rounded v.num.toNat v.den

theorem toNat_num_div_den {v : ℚ} (h : 0 ≤ v) : (v.num.toNat / v.den : ℚ) = v := by
  have hnum : ((v.num.toNat : Int) : ℚ) = v.num := by
    rw [Int.toNat_of_nonneg (Rat.num_nonneg.2 h)]
  rw [← Int.cast_natCast, hnum, Rat.num_div_den]

theorem Binary64.rounded_eq (num : Nat) {den : Nat} (hden : 0 < den) :
    Binary64.rounded num den = Binary64.nearest (num / den) := by
  have hsame := toNat_num_div_den (show (0 : ℚ) ≤ num / den by positivity)
  exact le_antisymm (Binary64.rounded_mono hden (Rat.den_pos _) hsame.ge)
    (Binary64.rounded_mono (Rat.den_pos _) hden hsame.le)

theorem Binary64.nearest_mono {u v : ℚ} (hu : 0 ≤ u) (h : u ≤ v) :
    Binary64.nearest u ≤ Binary64.nearest v := by
  refine Binary64.rounded_mono (Rat.den_pos u) (Rat.den_pos v) ?_
  rwa [toNat_num_div_den hu, toNat_num_div_den (hu.trans h)]

theorem Binary64.nearest_zero : Binary64.nearest 0 = 0 :=
  Binary64.rounded_zero Nat.one_pos

/-- Within the range of full precision, what a magnitude is rounded to differs from it by one part
    in `2 ^ 53` at most. -/
theorem Binary64.abs_nearest_sub_le {v : ℚ} (h : (2 : ℚ) ^ (-1022 : Int) ≤ v) :
    |Binary64.nearest v - v| ≤ v / 2 ^ 53 := by
  have hquotient := toNat_num_div_den ((zpow_pos two_pos _).le.trans h)
  have hclose := (Binary64.significandAt_near (Rat.den_pos v) rfl (h.trans hquotient.ge)).2
  rwa [hquotient] at hclose

/-! ## Sizes -/

/-- How far a number is from zero. An infinity, and what is no number, is beyond all that is
    finite. -/
def Binary64.size : Binary64 → WithTop ℚ
  | .finite _ m e => (dyadic m e : ℚ)
  | _ => ⊤

/-- A magnitude as a size; from `2 ^ 1024` on there are only infinities. -/
def Binary64.inRange (v : ℚ) : WithTop ℚ := if v < 2 ^ (1024 : Int) then v else ⊤

theorem Binary64.inRange_mono {u v : ℚ} (h : u ≤ v) : Binary64.inRange u ≤ Binary64.inRange v := by
  unfold Binary64.inRange
  by_cases hv : v < 2 ^ (1024 : Int)
  · rw [if_pos hv, if_pos (h.trans_lt hv)]
    exact WithTop.coe_le_coe.2 h
  · rw [if_neg hv]
    exact le_top

theorem Binary64.le_inRange (v : ℚ) : v ≤ Binary64.inRange v := by
  unfold Binary64.inRange
  split
  · exact le_rfl
  · exact le_top

/-- The size of what a magnitude is rounded to. -/
theorem Binary64.size_ofRatio (negative : Bool) (num : Nat) {den : Nat} (hden : 0 < den) :
    (Binary64.ofRatio negative num den).size =
      Binary64.inRange (Binary64.nearest (num / den)) := by
  rw [← Binary64.rounded_eq num hden]
  by_cases hnum : num = 0
  · rw [hnum, Binary64.rounded_zero hden, Binary64.ofRatio, if_pos rfl, Binary64.inRange,
      if_pos (zpow_pos two_pos _), Binary64.size, dyadic, Nat.cast_zero, zero_mul]
  obtain ⟨hleast, habove, hbelow⟩ := Binary64.exponentOf_spec hnum hden.ne'
  rw [Binary64.ofRatio_eq negative den hnum rfl, Binary64.rounded]
  generalize Binary64.exponentOf num den = e at hleast habove hbelow ⊢
  have hmost := Binary64.significandAt_le hden habove
  unfold Binary64.inRange
  by_cases hcarry : Binary64.significandAt num den e = 2 ^ 53
  · have hvalue : dyadic (2 ^ 53) e = 2 ^ (e + 53) := by exact_mod_cast dyadic_two_pow 53 e
    have hcarried : dyadic (2 ^ 52) (e + 1) = 2 ^ (e + 1 + 52) := by
      exact_mod_cast dyadic_two_pow 52 (e + 1)
    rw [if_pos hcarry, hcarry, hvalue]
    by_cases hlarge : 971 < e + 1
    · rw [if_pos hlarge, if_neg (fun h => by have := two_zpow_lt_iff.1 h; omega)]
      rfl
    · rw [if_neg hlarge, if_pos (two_zpow_lt_iff.2 (by omega)), Binary64.size, hcarried]
      congr 2
      omega
  · rw [if_neg hcarry]
    by_cases hlarge : 971 < e
    · have hfits := Binary64.le_significandAt hden (hbelow.resolve_left (by omega))
      have hbeyond : (2 : ℚ) ^ (1024 : Int) ≤ dyadic (Binary64.significandAt num den e) e :=
        calc (2 : ℚ) ^ (1024 : Int) ≤ 2 ^ (e + 52) := zpow_le_zpow_right₀ one_le_two (by omega)
          _ = dyadic (2 ^ 52) e := by exact_mod_cast (dyadic_two_pow 52 e).symm
          _ ≤ _ := dyadic_le hfits e
      rw [if_pos hlarge, if_neg (not_lt.2 hbeyond)]
      rfl
    · have hwithin : dyadic (Binary64.significandAt num den e) e < 2 ^ (1024 : Int) :=
        calc dyadic (Binary64.significandAt num den e) e < dyadic (2 ^ 53) e := by
              unfold dyadic
              have hless : Binary64.significandAt num den e < 2 ^ 53 := by omega
              gcongr
          _ = 2 ^ (e + 53) := by exact_mod_cast dyadic_two_pow 53 e
          _ ≤ 2 ^ (1024 : Int) := zpow_le_zpow_right₀ one_le_two (by omega)
      rw [if_neg hlarge, if_pos hwithin]
      rfl

variable {x y x' y' : Binary64} {v u : ℚ}

theorem Binary64.exists_finite_of_size (h : x.size = v) :
    ∃ s m e, x = .finite s m e ∧ dyadic m e = v := by
  cases x with
  | nan => exact absurd h.symm (WithTop.coe_ne_top)
  | infinity s => exact absurd h.symm (WithTop.coe_ne_top)
  | finite s m e => exact ⟨s, m, e, rfl, WithTop.coe_injective h⟩

theorem Binary64.nonneg_of_size (h : x.size = v) : 0 ≤ v := by
  obtain ⟨s, m, e, -, rfl⟩ := Binary64.exists_finite_of_size h
  exact dyadic_nonneg m e

/-! ## Products -/

/-- What a product is: beyond all finite numbers if one of its factors is, else the rounded product
    of the sizes. -/
inductive Binary64.Multiplies (x y : Binary64) : Binary64 → Prop
  | undefined (beyond : x.size = ⊤ ∨ y.size = ⊤) : Multiplies x y .nan
  | infinite (beyond : x.size = ⊤ ∨ y.size = ⊤) :
      Multiplies x y (.infinity (x.negative != y.negative))
  | rounded {v u : ℚ} {num den : Nat} (hx : x.size = v) (hy : y.size = u) (hden : 0 < den)
      (hvalue : (num / den : ℚ) = v * u) :
      Multiplies x y (.ofRatio (x.negative != y.negative) num den)

theorem Binary64.mul_multiplies (x y : Binary64) : x.Multiplies y (x.mul y) := by
  have split : ∀ {c : Prop} [Decidable c] {s : Bool}, (x.size = ⊤ ∨ y.size = ⊤) →
      s = (x.negative != y.negative) → x.Multiplies y (if c then .nan else .infinity s) := by
    rintro c _ s beyond rfl
    split
    · exact .undefined beyond
    · exact .infinite beyond
  cases x with
  | nan => exact .undefined (.inl rfl)
  | infinity s =>
    cases y with
    | nan => exact .undefined (.inr rfl)
    | infinity t => exact .infinite (.inl rfl)
    | finite t n f => exact split (.inl rfl) rfl
  | finite s m e =>
    cases y with
    | nan => exact .undefined (.inr rfl)
    | infinity t => exact split (.inr rfl) rfl
    | finite t n f =>
      exact .rounded rfl rfl (Binary64.magnitude_pos (m * n) (e + f))
        ((Binary64.magnitude_div (m * n) (e + f)).trans (dyadic_mul m n e f))

theorem Binary64.size_mul (hx : x.size = v) (hy : y.size = u) :
    (x.mul y).size = Binary64.inRange (Binary64.nearest (v * u)) := by
  have hnone : ¬(x.size = ⊤ ∨ y.size = ⊤) := by
    rw [hx, hy]
    exact not_or.2 ⟨WithTop.coe_ne_top, WithTop.coe_ne_top⟩
  have h := Binary64.mul_multiplies x y
  generalize x.mul y = z at h ⊢
  cases h with
  | undefined beyond => exact absurd beyond hnone
  | infinite beyond => exact absurd beyond hnone
  | rounded hv hu hden hvalue =>
    obtain rfl := WithTop.coe_injective (hv.symm.trans hx)
    obtain rfl := WithTop.coe_injective (hu.symm.trans hy)
    rw [Binary64.size_ofRatio _ _ hden, hvalue]

theorem Binary64.size_mul_top (h : x.size = ⊤ ∨ y.size = ⊤) : (x.mul y).size = ⊤ := by
  have hmul := Binary64.mul_multiplies x y
  generalize x.mul y = z at hmul ⊢
  cases hmul with
  | undefined => rfl
  | infinite => rfl
  | rounded hv hu =>
    rw [hv, hu] at h
    exact absurd h (not_or.2 ⟨WithTop.coe_ne_top, WithTop.coe_ne_top⟩)

theorem Binary64.size_mul_comm (x y : Binary64) : (x.mul y).size = (y.mul x).size := by
  by_cases htop : x.size = ⊤ ∨ y.size = ⊤
  · rw [Binary64.size_mul_top htop, Binary64.size_mul_top htop.symm]
  · obtain ⟨hx, hy⟩ := not_or.1 htop
    obtain ⟨v, hv⟩ := WithTop.ne_top_iff_exists.1 hx
    obtain ⟨u, hu⟩ := WithTop.ne_top_iff_exists.1 hy
    rw [Binary64.size_mul hv.symm hu.symm, Binary64.size_mul hu.symm hv.symm, mul_comm]

/-- The size of a product never falls when the sizes of its factors grow. -/
theorem Binary64.size_mul_le (hx : x.size ≤ x'.size) (hy : y.size ≤ y'.size) :
    (x.mul y).size ≤ (x'.mul y').size := by
  by_cases htop : x'.size = ⊤ ∨ y'.size = ⊤
  · rw [Binary64.size_mul_top htop]
    exact le_top
  · obtain ⟨hx', hy'⟩ := not_or.1 htop
    obtain ⟨v', hv'⟩ := WithTop.ne_top_iff_exists.1 hx'
    obtain ⟨u', hu'⟩ := WithTop.ne_top_iff_exists.1 hy'
    rw [← hv'] at hx
    rw [← hu'] at hy
    obtain ⟨v, hv, hvle⟩ := WithTop.le_coe_iff.1 hx
    obtain ⟨u, hu, hule⟩ := WithTop.le_coe_iff.1 hy
    have hvpos := Binary64.nonneg_of_size hv
    have hupos := Binary64.nonneg_of_size hu
    rw [Binary64.size_mul hv hu, Binary64.size_mul hv'.symm hu'.symm]
    exact Binary64.inRange_mono (Binary64.nearest_mono (mul_nonneg hvpos hupos)
      (mul_le_mul hvle hule hupos (hvpos.trans hvle)))

/-- The error of one rounding, as a part of what is rounded. -/
def roundoff : ℚ := 1 / 2 ^ 53

/-- A product is too small by one rounding at most. -/
theorem Binary64.le_size_mul (hx : v ≤ x.size) (hy : u ≤ y.size) (hv : 0 ≤ v) (hu : 0 ≤ u)
    (normal : ((2 ^ (-1022 : Int) : ℚ) : WithTop ℚ) ≤ x.size) (hone : 1 ≤ y.size) :
    (v * u * (1 - roundoff) : ℚ) ≤ (x.mul y).size := by
  by_cases htop : x.size = ⊤ ∨ y.size = ⊤
  · rw [Binary64.size_mul_top htop]
    exact le_top
  · obtain ⟨hx', hy'⟩ := not_or.1 htop
    obtain ⟨a, ha⟩ := WithTop.ne_top_iff_exists.1 hx'
    obtain ⟨b, hb⟩ := WithTop.ne_top_iff_exists.1 hy'
    rw [← ha] at hx normal
    rw [← hb] at hy hone
    have hva := WithTop.coe_le_coe.1 hx
    have hub := WithTop.coe_le_coe.1 hy
    have hone' : 1 ≤ b := WithTop.coe_le_coe.1 hone
    have hpos : 0 ≤ a := hv.trans hva
    have hnear := (abs_sub_le_iff.1 (Binary64.abs_nearest_sub_le
      ((WithTop.coe_le_coe.1 normal).trans (le_mul_of_one_le_right hpos hone')))).2
    rw [Binary64.size_mul ha.symm hb.symm]
    refine le_trans (WithTop.coe_le_coe.2 ?_) (Binary64.le_inRange _)
    calc v * u * (1 - roundoff) ≤ a * b * (1 - roundoff) := by
          have hless : 0 ≤ 1 - roundoff := by norm_num [roundoff]
          gcongr
      _ = a * b - a * b / 2 ^ 53 := by
          unfold roundoff
          ring
      _ ≤ Binary64.nearest (a * b) := by linarith

/-- A product that is far from overflow is too large by one rounding at most. -/
theorem Binary64.size_mul_le_of_le (hx : x.size ≤ v) (hy : y.size ≤ u)
    (normal : (2 : ℚ) ^ (-1022 : Int) ≤ v * u)
    (small : v * u * (1 + roundoff) < 2 ^ (1024 : Int)) :
    (x.mul y).size ≤ (v * u * (1 + roundoff) : ℚ) := by
  obtain ⟨a, ha, hav⟩ := WithTop.le_coe_iff.1 hx
  obtain ⟨b, hb, hbu⟩ := WithTop.le_coe_iff.1 hy
  have hpos := Binary64.nonneg_of_size ha
  have hpos' := Binary64.nonneg_of_size hb
  have hnear := (abs_sub_le_iff.1 (Binary64.abs_nearest_sub_le normal)).1
  have hround : Binary64.nearest (a * b) ≤ v * u * (1 + roundoff) :=
    calc Binary64.nearest (a * b) ≤ Binary64.nearest (v * u) :=
          Binary64.nearest_mono (mul_nonneg hpos hpos')
            (mul_le_mul hav hbu hpos' (hpos.trans hav))
      _ ≤ v * u + v * u / 2 ^ 53 := by linarith
      _ = v * u * (1 + roundoff) := by
          unfold roundoff
          ring
  rw [Binary64.size_mul ha hb, Binary64.inRange, if_pos (hround.trans_lt small)]
  exact WithTop.coe_le_coe.2 hround

/-! ## Numbers of the format -/

/-- Whether a number is one that the format can hold. -/
def Binary64.InFormat : Binary64 → Prop
  | .finite _ m e => m < 2 ^ 53 ∧ -1074 ≤ e ∧ e ≤ 971 ∧ (2 ^ 52 ≤ m ∨ e = -1074)
  | _ => True

/-- Rounding brings a number of the format. -/
theorem Binary64.ofRatio_inFormat (negative : Bool) (num : Nat) {den : Nat} (hden : 0 < den) :
    (Binary64.ofRatio negative num den).InFormat := by
  by_cases hnum : num = 0
  · rw [hnum, Binary64.ofRatio, if_pos rfl]
    exact ⟨by decide, by decide, by decide, .inr rfl⟩
  obtain ⟨hleast, habove, hbelow⟩ := Binary64.exponentOf_spec hnum hden.ne'
  rw [Binary64.ofRatio_eq negative den hnum rfl]
  generalize Binary64.exponentOf num den = e at hleast habove hbelow ⊢
  have hmost := Binary64.significandAt_le hden habove
  split
  · split
    · trivial
    · exact ⟨by decide, by omega, by omega, .inl (by decide)⟩
  · split
    · trivial
    · refine ⟨by omega, hleast, by omega, ?_⟩
      rcases hbelow with hleast | hfits
      · exact .inr hleast
      · exact .inl (Binary64.le_significandAt hden hfits)

theorem Binary64.mul_inFormat (x y : Binary64) : (x.mul y).InFormat := by
  have hmul := Binary64.mul_multiplies x y
  generalize x.mul y = z at hmul ⊢
  cases hmul with
  | undefined => trivial
  | infinite => trivial
  | rounded _ _ hden => exact Binary64.ofRatio_inFormat _ _ hden

/-- A number of the format that is not negative. -/
structure Binary64.IsMagnitude (x : Binary64) : Prop where
  inFormat : x.InFormat
  nonnegative : x.negative = false

theorem Binary64.ofRatio_negative (negative : Bool) (num : Nat) {den : Nat} :
    (Binary64.ofRatio negative num den).negative = negative := by
  by_cases hnum : num = 0
  · rw [hnum, Binary64.ofRatio, if_pos rfl]
    rfl
  rw [Binary64.ofRatio_eq negative den hnum rfl]
  split
  · split <;> rfl
  · split <;> rfl

theorem Binary64.Rounds.isMagnitude (h : x.Rounds v) : x.IsMagnitude := by
  obtain ⟨num, den, hden, -, rfl⟩ := h
  exact ⟨Binary64.ofRatio_inFormat _ _ hden, Binary64.ofRatio_negative _ _⟩

theorem Binary64.HasValue.isMagnitude (h : x.HasValue v) : x.IsMagnitude := by
  obtain ⟨m, e, rfl, -, ⟨rfl, rfl⟩ | hm⟩ := h
  · exact ⟨⟨by decide, le_rfl, by decide, .inr rfl⟩, rfl⟩
  · exact ⟨⟨hm.significand_lt, hm.le_exponent, hm.exponent_le, .inl hm.le_significand⟩, rfl⟩

theorem Binary64.IsMagnitude.mul (hx : x.IsMagnitude) (hy : y.IsMagnitude) :
    (x.mul y).IsMagnitude := by
  refine ⟨Binary64.mul_inFormat x y, ?_⟩
  have hmul := Binary64.mul_multiplies x y
  generalize x.mul y = z at hmul ⊢
  have hsigns : (x.negative != y.negative) = false := by
    rw [hx.nonnegative, hy.nonnegative]
    rfl
  cases hmul with
  | undefined => rfl
  | infinite => exact hsigns
  | rounded => rw [Binary64.ofRatio_negative, hsigns]

theorem Binary64.IsMagnitude.add (hx : x.IsMagnitude) (hy : y.IsMagnitude) :
    (x.add y).IsMagnitude := by
  cases x with
  | nan => exact ⟨trivial, rfl⟩
  | infinity s =>
    obtain rfl : s = false := hx.nonnegative
    cases y with
    | nan => exact ⟨trivial, rfl⟩
    | infinity t =>
      obtain rfl : t = false := hy.nonnegative
      exact ⟨trivial, rfl⟩
    | finite t n f => exact ⟨trivial, rfl⟩
  | finite s m e =>
    obtain rfl : s = false := hx.nonnegative
    cases y with
    | nan => exact ⟨trivial, rfl⟩
    | infinity t =>
      obtain rfl : t = false := hy.nonnegative
      exact ⟨trivial, rfl⟩
    | finite t n f =>
      obtain rfl : t = false := hy.nonnegative
      exact (Binary64.add_rounds m n hx.inFormat.2.1 hy.inFormat.2.1).isMagnitude

theorem Binary64.IsMagnitude.exists_finite (hx : x.IsMagnitude) (h : x.size = v) :
    ∃ m e, x = .finite false m e ∧ dyadic m e = v := by
  obtain ⟨s, m, e, rfl, hv⟩ := Binary64.exists_finite_of_size h
  obtain rfl : s = false := hx.nonnegative
  exact ⟨m, e, rfl, hv⟩

/-- The lesser of two numbers is one of them. -/
theorem Binary64.min_cases (x y : Binary64) : x.min y = x ∨ x.min y = y := by
  unfold Binary64.min
  split
  · exact .inr rfl
  · exact .inl rfl
  · split
    · exact .inr rfl
    · exact .inl rfl

theorem Binary64.IsMagnitude.min (hx : x.IsMagnitude) (hy : y.IsMagnitude) :
    (x.min y).IsMagnitude := by
  rcases Binary64.min_cases x y with h | h
  · rwa [h]
  · rwa [h]

/-- The size of the lesser of two magnitudes is the lesser size. -/
theorem Binary64.IsMagnitude.size_min (hx : x.IsMagnitude) (hy : y.IsMagnitude) :
    (x.min y).size = Min.min x.size y.size := by
  cases x with
  | nan => exact (min_eq_right le_top).symm
  | infinity s =>
    obtain rfl : s = false := hx.nonnegative
    cases y with
    | nan => exact (min_self ⊤).symm
    | infinity t =>
      obtain rfl : t = false := hy.nonnegative
      exact (min_self ⊤).symm
    | finite t n f => exact (min_eq_right le_top).symm
  | finite s m e =>
    obtain rfl : s = false := hx.nonnegative
    cases y with
    | nan => exact (min_eq_left le_top).symm
    | infinity t =>
      obtain rfl : t = false := hy.nonnegative
      exact (min_eq_left le_top).symm
    | finite t n f =>
      obtain rfl : t = false := hy.nonnegative
      have hlt := Binary64.lt_iff n m hy.inFormat.2.1 hx.inFormat.2.1
      unfold Binary64.min
      dsimp only
      by_cases h : dyadic n f < dyadic m e
      · rw [if_pos (hlt.2 h)]
        exact (min_eq_right (WithTop.coe_le_coe.2 h.le)).symm
      · rw [if_neg (mt hlt.1 h)]
        exact (min_eq_left (WithTop.coe_le_coe.2 (not_lt.1 h))).symm

theorem Binary64.HasValue.size (h : x.HasValue v) : x.size = v := by
  obtain ⟨m, e, rfl, rfl, -⟩ := h
  rfl

theorem Binary64.Rounds.size (h : x.Rounds v) : x.size = Binary64.inRange (Binary64.nearest v) := by
  obtain ⟨num, den, hden, rfl, rfl⟩ := h
  exact Binary64.size_ofRatio false num hden

/-- A magnitude of full precision is rounded to itself. -/
theorem IsNormal.inRange_nearest {m : Nat} {e : Int} (h : IsNormal m e) :
    Binary64.inRange (Binary64.nearest (dyadic m e)) = dyadic m e := by
  have hquotient := toNat_num_div_den (dyadic_nonneg m e)
  have hexact := Binary64.ofRatio_exact false (Rat.den_pos _) h hquotient
  have hsize := Binary64.size_ofRatio false (dyadic m e).num.toNat (Rat.den_pos (dyadic m e))
  rw [hquotient, hexact] at hsize
  exact hsize.symm

/-- A number of the format of at least one has full precision. -/
theorem Binary64.isNormal_of_one_le {s : Bool} {m : Nat} {e : Int}
    (h : (Binary64.finite s m e).InFormat) (hone : 1 ≤ dyadic m e) : IsNormal m e := by
  obtain ⟨hless, hleast, hmost, hfull | rfl⟩ := h
  · exact ⟨hfull, hless, hleast, hmost⟩
  · have hsmall : dyadic m (-1074) ≤ 2 ^ (-1021 : Int) :=
      calc dyadic m (-1074) ≤ dyadic (2 ^ 53) (-1074) := dyadic_le hless.le _
        _ = 2 ^ (-1021 : Int) := by exact_mod_cast dyadic_two_pow 53 (-1074)
    have hbelow : (2 : ℚ) ^ (-1021 : Int) < 2 ^ (0 : Int) := two_zpow_lt_iff.2 (by decide)
    rw [zpow_zero] at hbelow
    exact absurd hone (not_le.2 (hsmall.trans_lt hbelow))

theorem Binary64.size_one : (Binary64.ofNat 1).size = 1 := by
  exact_mod_cast (Binary64.ofNat_hasValue (n := 1) (by decide)).size

/-- A number of the format of at least one is kept by a factor of one. -/
theorem Binary64.size_one_mul (h : x.InFormat) (hone : 1 ≤ x.size) :
    ((Binary64.ofNat 1).mul x).size = x.size := by
  cases x with
  | nan => exact Binary64.size_mul_top (.inr rfl)
  | infinity s => exact Binary64.size_mul_top (.inr rfl)
  | finite s m e =>
    have hnormal := Binary64.isNormal_of_one_le h (WithTop.coe_le_coe.1 hone)
    have hvalue : (Binary64.ofNat 1).size = (1 : ℚ) := Binary64.size_one
    rw [Binary64.size_mul hvalue rfl, one_mul, hnormal.inRange_nearest]
    rfl

theorem Binary64.one_inFormat : (Binary64.ofNat 1).InFormat :=
  Binary64.ofRatio_inFormat false 1 Nat.one_pos

theorem Binary64.one_le_size_mul (hx : 1 ≤ x.size) (hy : 1 ≤ y.size) : 1 ≤ (x.mul y).size := by
  have hone := Binary64.size_one_mul Binary64.one_inFormat Binary64.size_one.ge
  rw [← Binary64.size_one] at hx hy
  calc (1 : WithTop ℚ) = ((Binary64.ofNat 1).mul (Binary64.ofNat 1)).size := by
        rw [hone, Binary64.size_one]
    _ ≤ (x.mul y).size := Binary64.size_mul_le hx hy

end Courier
