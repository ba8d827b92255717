import Courier.Number.Binary64
import Mathlib.Algebra.Order.Field.Power
import Mathlib.Data.Rat.Cast.Order
import Mathlib.Tactic.FieldSimp
import Mathlib.Tactic.GCongr
import Mathlib.Tactic.Linarith
import Mathlib.Tactic.NormNum
import Mathlib.Tactic.Positivity
import Mathlib.Tactic.Ring

set_option autoImplicit false

/-! # How far rounding leads away

A magnitude `num / den` is compared with the number of the 64-bit format that it is rounded to, as
rational numbers. Within the range of full precision the two differ by at most one part in
`2 ^ 53`, a magnitude that the format can hold is kept, and one that is not below one stays so. -/

namespace Courier

/-! ## Whole numbers -/

/-- A quotient is rounded to a whole number at most half a unit away. -/
theorem roundHalfEven_bounds (num : Nat) {den : Nat} (h : 0 < den) :
    2 * num ≤ (2 * roundHalfEven num den + 1) * den ∧
      2 * (roundHalfEven num den * den) ≤ 2 * num + den := by
  have hdiv := Nat.div_add_mod num den
  have hmod := Nat.mod_lt num h
  rw [Nat.mul_comm] at hdiv
  have hsucc : (num / den + 1) * den = num / den * den + den := Nat.succ_mul ..
  have hodd : ∀ q, (2 * q + 1) * den = 2 * (q * den) + den := fun q => by
    rw [Nat.succ_mul, Nat.mul_assoc]
  rw [hodd]
  unfold roundHalfEven
  dsimp only
  split
  · omega
  · split
    · rw [hsucc]
      omega
    · split
      · omega
      · rw [hsucc]
        omega

theorem abs_roundHalfEven_sub_le (num : Nat) {den : Nat} (h : 0 < den) :
    |(roundHalfEven num den : ℚ) - num / den| ≤ 1 / 2 := by
  obtain ⟨hlow, hhigh⟩ := roundHalfEven_bounds num h
  have hden : (0 : ℚ) < den := Nat.cast_pos.2 h
  have hlow' : (2 : ℚ) * num ≤ (2 * roundHalfEven num den + 1) * den := by exact_mod_cast hlow
  have hhigh' : (2 : ℚ) * (roundHalfEven num den * den) ≤ 2 * num + den := by
    exact_mod_cast hhigh
  rw [abs_sub_le_iff]
  constructor
  · rw [sub_le_iff_le_add, ← sub_le_iff_le_add', le_div_iff₀ hden]
    linarith
  · rw [sub_le_iff_le_add, div_le_iff₀ hden]
    linarith

/-- A whole number that is not above a quotient is not above what it is rounded to. -/
theorem le_roundHalfEven {a num den : Nat} (h : 0 < den) (hle : (a : ℚ) ≤ num / den) :
    a ≤ roundHalfEven num den := by
  have hround := (abs_sub_le_iff.1 (abs_roundHalfEven_sub_le num h)).2
  have hlt : (a : ℚ) < roundHalfEven num den + 1 := by linarith
  exact Nat.le_of_lt_succ (by exact_mod_cast hlt)

theorem roundHalfEven_le {a num den : Nat} (h : 0 < den) (hle : (num / den : ℚ) ≤ a) :
    roundHalfEven num den ≤ a := by
  have hround := (abs_sub_le_iff.1 (abs_roundHalfEven_sub_le num h)).1
  have hlt : (roundHalfEven num den : ℚ) < a + 1 := by linarith
  exact Nat.le_of_lt_succ (by exact_mod_cast hlt)

/-- A quotient less than half a unit away from a whole number is rounded to that one. -/
theorem roundHalfEven_eq {a num den : Nat} (h : 0 < den) (hnear : |(num / den : ℚ) - a| < 1 / 2) :
    roundHalfEven num den = a := by
  have hround := abs_sub_le_iff.1 (abs_roundHalfEven_sub_le num h)
  have hclose := abs_sub_lt_iff.1 hnear
  have hbelow : (a : ℚ) < roundHalfEven num den + 1 := by linarith
  have habove : (roundHalfEven num den : ℚ) < a + 1 := by linarith
  exact Nat.le_antisymm (Nat.le_of_lt_succ (by exact_mod_cast habove))
    (Nat.le_of_lt_succ (by exact_mod_cast hbelow))

/-! ## Exponents -/

/-- The magnitude of a significand and an exponent. -/
def dyadic (m : Nat) (e : Int) : ℚ := m * (2 : ℚ) ^ e

theorem dyadic_add (m : Nat) (e f : Int) : dyadic m (e + f) = dyadic m e * 2 ^ f := by
  rw [dyadic, dyadic, zpow_add₀ two_ne_zero, mul_assoc]

/-- A power of two with a whole exponent as a quotient of two natural ones. -/
theorem two_pow_toNat_div (e : Int) :
    ((2 ^ e.toNat : Nat) : ℚ) / (2 ^ (-e).toNat : Nat) = 2 ^ e := by
  rcases le_total 0 e with he | he
  · obtain ⟨n, rfl⟩ := Int.eq_ofNat_of_zero_le he
    have hzero : (-(n : Int)).toNat = 0 := by omega
    rw [hzero, Int.toNat_natCast, zpow_natCast]
    norm_num
  · obtain ⟨n, hn⟩ := Int.eq_ofNat_of_zero_le (Int.neg_nonneg.2 he)
    obtain rfl : e = -(n : Int) := by omega
    have hzero : (-(n : Int)).toNat = 0 := by omega
    rw [hzero, neg_neg, Int.toNat_natCast, zpow_neg, zpow_natCast]
    norm_num

theorem Binary64.magnitude_pos (m : Nat) (e : Int) : 0 < (Binary64.magnitude m e).2 :=
  Nat.two_pow_pos _

/-- Numerator and denominator of a finite magnitude. -/
theorem Binary64.magnitude_div (m : Nat) (e : Int) :
    ((Binary64.magnitude m e).1 : ℚ) / (Binary64.magnitude m e).2 = dyadic m e := by
  unfold Binary64.magnitude dyadic
  rw [← two_pow_toNat_div e]
  show ((m * 2 ^ e.toNat : Nat) : ℚ) / (2 ^ (-e).toNat : Nat) = _
  push_cast
  rw [mul_div_assoc]

theorem Binary64.scaled_pos (num : Nat) {den : Nat} (h : 0 < den) (e : Int) :
    0 < (Binary64.scaled num den e).2 :=
  Nat.mul_pos h (Nat.two_pow_pos _)

/-- A magnitude divided by a power of two. -/
theorem Binary64.scaled_div (num den : Nat) (e : Int) :
    ((Binary64.scaled num den e).1 : ℚ) / (Binary64.scaled num den e).2 = num / den / 2 ^ e := by
  unfold Binary64.scaled
  rw [← two_pow_toNat_div e]
  show ((num * 2 ^ (-e).toNat : Nat) : ℚ) / (den * 2 ^ e.toNat : Nat) = _
  push_cast
  rw [div_div_eq_mul_div, mul_div_mul_comm, ← mul_div_assoc, div_mul_eq_mul_div]

/-- A positive whole number lies between two neighbouring powers of two. -/
theorem log2_bounds {n : Nat} (h : n ≠ 0) :
    (2 : ℚ) ^ (n.log2 : Int) ≤ n ∧ (n : ℚ) < 2 ^ ((n.log2 : Int) + 1) := by
  have hlow := Nat.log2_self_le h
  have hhigh : n < 2 ^ (n.log2 + 1) := Nat.lt_log2_self
  constructor
  · rw [zpow_natCast]
    exact_mod_cast hlow
  · rw [← Int.natCast_succ, zpow_natCast]
    exact_mod_cast hhigh

/-- The first guess at an exponent is at most one too high. -/
theorem log2_sub_bounds {num den : Nat} (hnum : num ≠ 0) (hden : den ≠ 0) :
    (2 : ℚ) ^ ((num.log2 : Int) - den.log2 - 1) < num / den ∧
      (num / den : ℚ) < 2 ^ ((num.log2 : Int) - den.log2 + 1) := by
  obtain ⟨hnlow, hnhigh⟩ := log2_bounds hnum
  obtain ⟨hdlow, hdhigh⟩ := log2_bounds hden
  have hpos : (0 : ℚ) < den := Nat.cast_pos.2 (Nat.pos_of_ne_zero hden)
  constructor
  · rw [lt_div_iff₀ hpos]
    calc (2 : ℚ) ^ ((num.log2 : Int) - den.log2 - 1) * den
        < 2 ^ ((num.log2 : Int) - den.log2 - 1) * 2 ^ ((den.log2 : Int) + 1) := by gcongr
      _ = 2 ^ (num.log2 : Int) := by
        rw [← zpow_add₀ two_ne_zero]
        congr 1
        omega
      _ ≤ num := hnlow
  · rw [div_lt_iff₀ hpos]
    calc (num : ℚ) < 2 ^ ((num.log2 : Int) + 1) := hnhigh
      _ = 2 ^ ((num.log2 : Int) - den.log2 + 1) * 2 ^ (den.log2 : Int) := by
        rw [← zpow_add₀ two_ne_zero]
        congr 1
        omega
      _ ≤ 2 ^ ((num.log2 : Int) - den.log2 + 1) * den := by gcongr

/-- Twice a power of two is the next one. -/
theorem two_zpow_add (k e : Int) : (2 : ℚ) ^ k * 2 ^ e = 2 ^ (e + k) := by
  rw [← zpow_add₀ two_ne_zero, add_comm]

/-- Powers of two are in the order of their exponents. -/
theorem two_zpow_lt_iff {a b : Int} : (2 : ℚ) ^ a < 2 ^ b ↔ a < b :=
  zpow_lt_zpow_iff_right₀ one_lt_two

/-- Whether a scaled magnitude falls short of 53 bits. -/
theorem Binary64.scaled_lt_iff {num den : Nat} (hden : 0 < den) (e : Int) :
    (Binary64.scaled num den e).1 < (Binary64.scaled num den e).2 * 0x10000000000000 ↔
      (num / den : ℚ) < 2 ^ (e + 52) := by
  have hd : (0 : ℚ) < (Binary64.scaled num den e).2 :=
    Nat.cast_pos.2 (Binary64.scaled_pos num hden e)
  have hp : (0 : ℚ) < 2 ^ e := zpow_pos two_pos e
  rw [← two_zpow_add, ← div_lt_iff₀ hp, ← Binary64.scaled_div, div_lt_iff₀ hd, mul_comm]
  norm_cast

theorem Binary64.exponentOf_eq (num den : Nat) :
    Binary64.exponentOf num den =
      let guess : Int := (num.log2 : Int) - den.log2 - 52
      let s := Binary64.scaled num den guess
      max (-1074) (if s.1 < s.2 * 0x10000000000000 then guess - 1 else guess) :=
  rfl

/-- The exponent for a magnitude makes it a significand of 53 bits, or of fewer if it is the least
    exponent. -/
theorem Binary64.exponentOf_spec {num den : Nat} (hnum : num ≠ 0) (hden : den ≠ 0) :
    -1074 ≤ Binary64.exponentOf num den ∧
      (num / den : ℚ) < 2 ^ (Binary64.exponentOf num den + 53) ∧
      (Binary64.exponentOf num den = -1074 ∨
        (2 : ℚ) ^ (Binary64.exponentOf num den + 52) ≤ num / den) := by
  obtain ⟨hlow, hhigh⟩ := log2_sub_bounds hnum hden
  rw [Binary64.exponentOf_eq]
  dsimp only
  simp only [Binary64.scaled_lt_iff (Nat.pos_of_ne_zero hden)]
  generalize (num.log2 : Int) - den.log2 = g at hlow hhigh ⊢
  generalize (num / den : ℚ) = v at hlow hhigh ⊢
  -- Before the least exponent comes in, the exponent fits from both sides.
  have fits : ∀ f, f = (if v < (2 : ℚ) ^ (g - 52 + 52) then g - 52 - 1 else g - 52) →
      (2 : ℚ) ^ (f + 52) ≤ v ∧ v < 2 ^ (f + 53) := by
    rintro f rfl
    split
    · rename_i hlt
      rw [show g - 52 - 1 + 52 = g - 1 by omega, show g - 52 - 1 + 53 = g - 52 + 52 by omega]
      exact ⟨hlow.le, hlt⟩
    · rename_i hge
      rw [show g - 52 + 53 = g + 1 by omega]
      exact ⟨not_lt.1 hge, hhigh⟩
  obtain ⟨hbelow, habove⟩ := fits _ rfl
  generalize (if v < (2 : ℚ) ^ (g - 52 + 52) then g - 52 - 1 else g - 52) = f at hbelow habove ⊢
  refine ⟨le_max_left _ _, habove.trans_le ?_, ?_⟩
  · exact zpow_le_zpow_right₀ one_le_two (by omega)
  · rcases le_total f (-1074) with hf | hf
    · exact .inl (max_eq_left hf)
    · exact .inr (by rwa [max_eq_right hf])

/-! ## Magnitudes -/

/-- A significand and an exponent of full precision. -/
structure IsNormal (m : Nat) (e : Int) : Prop where
  le_significand : 2 ^ 52 ≤ m
  significand_lt : m < 2 ^ 53
  le_exponent : -1074 ≤ e
  exponent_le : e ≤ 971

/-- The significand for a magnitude and an exponent, before a carry. -/
def Binary64.significandAt (num den : Nat) (e : Int) : Nat :=
  roundHalfEven (Binary64.scaled num den e).1 (Binary64.scaled num den e).2

/-- What a magnitude is rounded to. -/
theorem Binary64.ofRatio_eq (negative : Bool) {num : Nat} (den : Nat) (hnum : num ≠ 0) {e : Int}
    (he : Binary64.exponentOf num den = e) :
    Binary64.ofRatio negative num den =
      if Binary64.significandAt num den e = 2 ^ 53 then
        if 971 < e + 1 then .infinity negative else .finite negative (2 ^ 52) (e + 1)
      else if 971 < e then .infinity negative
      else .finite negative (Binary64.significandAt num den e) e := by
  unfold Binary64.ofRatio
  rw [if_neg hnum, he]
  dsimp only
  by_cases hcarry : Binary64.significandAt num den e = 2 ^ 53
  · have hround : roundHalfEven (Binary64.scaled num den e).1 (Binary64.scaled num den e).2 =
        0x20000000000000 := hcarry
    rw [if_pos hcarry, if_pos hround]
    rfl
  · have hround : ¬roundHalfEven (Binary64.scaled num den e).1 (Binary64.scaled num den e).2 =
        0x20000000000000 := hcarry
    rw [if_neg hcarry, if_neg hround]
    rfl

/-- The significand is at most half a unit off. -/
theorem Binary64.abs_significandAt_sub_le (num : Nat) {den : Nat} (hden : 0 < den) (e : Int) :
    |dyadic (Binary64.significandAt num den e) e - num / den| ≤ 2 ^ e / 2 := by
  have hp : (0 : ℚ) < 2 ^ e := zpow_pos two_pos e
  have hround := abs_roundHalfEven_sub_le (Binary64.scaled num den e).1
    (Binary64.scaled_pos num hden e)
  rw [Binary64.scaled_div] at hround
  calc |dyadic (Binary64.significandAt num den e) e - num / den|
      = |(Binary64.significandAt num den e : ℚ) - num / den / 2 ^ e| * 2 ^ e := by
        rw [← abs_of_pos hp, ← abs_mul, sub_mul, abs_of_pos hp, div_mul_cancel₀ _ hp.ne']
        rfl
    _ ≤ 1 / 2 * 2 ^ e := by gcongr; exact hround
    _ = 2 ^ e / 2 := by ring

/-- A magnitude that does not fall short of 53 bits has a significand that does not either. -/
theorem Binary64.le_significandAt {num den : Nat} (hden : 0 < den) {e : Int}
    (hlow : (2 : ℚ) ^ (e + 52) ≤ num / den) : 2 ^ 52 ≤ Binary64.significandAt num den e := by
  refine le_roundHalfEven (Binary64.scaled_pos num hden e) ?_
  rw [Binary64.scaled_div, le_div_iff₀ (zpow_pos two_pos e)]
  rw [← two_zpow_add] at hlow
  exact_mod_cast hlow

/-- A magnitude of at most 53 bits has a significand of 53 bits, or carries into the next. -/
theorem Binary64.significandAt_le {num den : Nat} (hden : 0 < den) {e : Int}
    (hhigh : (num / den : ℚ) < 2 ^ (e + 53)) : Binary64.significandAt num den e ≤ 2 ^ 53 := by
  refine roundHalfEven_le (Binary64.scaled_pos num hden e) ?_
  rw [Binary64.scaled_div, div_le_iff₀ (zpow_pos two_pos e)]
  rw [← two_zpow_add] at hhigh
  exact_mod_cast hhigh.le

/-- The significand of a magnitude within the range of full precision does not fall short of 53
    bits, and is off by at most one part in `2 ^ 53`. -/
theorem Binary64.significandAt_near {num den : Nat} (hden : 0 < den) {e : Int}
    (he : Binary64.exponentOf num den = e) (hlow : (2 : ℚ) ^ (-1022 : Int) ≤ num / den) :
    (2 : ℚ) ^ (e + 52) ≤ num / den ∧
      |dyadic (Binary64.significandAt num den e) e - num / den| ≤ num / den / 2 ^ 53 := by
  have hnum : num ≠ 0 := by
    rintro rfl
    rw [Nat.cast_zero, zero_div] at hlow
    exact absurd hlow (not_le.2 (zpow_pos two_pos _))
  obtain ⟨-, -, hbelow⟩ := Binary64.exponentOf_spec hnum hden.ne'
  rw [he] at hbelow
  have hfits : (2 : ℚ) ^ (e + 52) ≤ num / den := by
    rcases hbelow with rfl | h
    · exact hlow
    · exact h
  have hunit : (2 : ℚ) ^ e / 2 ≤ num / den / 2 ^ 53 := by
    have hscaled := hfits
    rw [← two_zpow_add] at hscaled
    rw [div_le_div_iff₀ two_pos (by positivity)]
    norm_num at hscaled ⊢
    linarith
  exact ⟨hfits, (Binary64.abs_significandAt_sub_le num hden e).trans hunit⟩

/-- A magnitude within the range of full precision is rounded to one that differs from it by at
    most one part in `2 ^ 53`. -/
theorem Binary64.ofRatio_near (negative : Bool) {num den : Nat} (hden : 0 < den)
    (hlow : (2 : ℚ) ^ (-1022 : Int) ≤ num / den) (hhigh : (num / den : ℚ) < 2 ^ (1023 : Int)) :
    ∃ m e, Binary64.ofRatio negative num den = .finite negative m e ∧ IsNormal m e ∧
      |dyadic m e - num / den| ≤ num / den / 2 ^ 53 := by
  have hnum : num ≠ 0 := by
    rintro rfl
    rw [Nat.cast_zero, zero_div] at hlow
    exact absurd hlow (not_le.2 (zpow_pos two_pos _))
  obtain ⟨hleast, habove, -⟩ := Binary64.exponentOf_spec hnum hden.ne'
  obtain ⟨hfits, hclose⟩ := Binary64.significandAt_near hden rfl hlow
  have hround := Binary64.ofRatio_eq negative den hnum rfl
  generalize Binary64.exponentOf num den = e at hleast habove hfits hclose hround
  -- The range keeps the exponent away from both ends.
  have hmost : e < 971 := by
    have := two_zpow_lt_iff.1 (hfits.trans_lt hhigh)
    omega
  have hq52 := Binary64.le_significandAt hden hfits
  have hq53 := Binary64.significandAt_le hden habove
  by_cases hcarry : Binary64.significandAt num den e = 2 ^ 53
  · rw [if_pos hcarry, if_neg (by omega)] at hround
    refine ⟨_, _, hround, ⟨le_refl _, by decide, by omega, by omega⟩, ?_⟩
    rw [hcarry] at hclose
    refine le_trans (le_of_eq ?_) hclose
    congr 2
    rw [dyadic_add]
    unfold dyadic
    norm_num
    ring
  · rw [if_neg hcarry, if_neg (by omega)] at hround
    exact ⟨_, _, hround, ⟨hq52, lt_of_le_of_ne hq53 hcarry, hleast, by omega⟩, hclose⟩

/-- A magnitude of full precision lies between two neighbouring powers of two. -/
theorem IsNormal.bounds {m : Nat} {e : Int} (h : IsNormal m e) :
    (2 : ℚ) ^ (e + 52) ≤ dyadic m e ∧ dyadic m e < 2 ^ (e + 53) := by
  have hp : (0 : ℚ) < 2 ^ e := zpow_pos two_pos e
  have hlow : (2 : ℚ) ^ 52 ≤ m := by exact_mod_cast h.le_significand
  have hhigh : (m : ℚ) < 2 ^ 53 := by exact_mod_cast h.significand_lt
  rw [← two_zpow_add, ← two_zpow_add]
  exact ⟨mul_le_mul_of_nonneg_right (by exact_mod_cast hlow) hp.le,
    mul_lt_mul_of_pos_right (by exact_mod_cast hhigh) hp⟩

/-- A magnitude that the format can hold is kept. -/
theorem Binary64.ofRatio_exact (negative : Bool) {num den m : Nat} {e : Int} (hden : 0 < den)
    (hm : IsNormal m e) (h : (num / den : ℚ) = dyadic m e) :
    Binary64.ofRatio negative num den = .finite negative m e := by
  obtain ⟨hlow, hhigh⟩ := hm.bounds
  have hnum : num ≠ 0 := by
    rintro rfl
    rw [← h, Nat.cast_zero, zero_div] at hlow
    exact absurd hlow (not_le.2 (zpow_pos two_pos _))
  obtain ⟨-, habove, hbelow⟩ := Binary64.exponentOf_spec hnum hden.ne'
  rw [h] at habove hbelow
  have hexponent : Binary64.exponentOf num den = e := by
    have hle := two_zpow_lt_iff.1 (hlow.trans_lt habove)
    rcases hbelow with hleast | hbelow
    · have := hm.le_exponent
      omega
    · have := two_zpow_lt_iff.1 (hbelow.trans_lt hhigh)
      omega
  have hsignificand : Binary64.significandAt num den e = m := by
    refine roundHalfEven_eq (Binary64.scaled_pos num hden e) ?_
    rw [Binary64.scaled_div, h, dyadic, mul_div_cancel_right₀ _ (zpow_pos two_pos e).ne', sub_self]
    norm_num
  rw [Binary64.ofRatio_eq negative den hnum hexponent, hsignificand,
    if_neg (Nat.ne_of_lt hm.significand_lt), if_neg (not_lt.2 hm.exponent_le)]

/-- A magnitude of at least one is rounded to one of at least one. -/
theorem Binary64.ofRatio_ge_one (negative : Bool) {num den : Nat} (hden : 0 < den)
    (h : (1 : ℚ) ≤ num / den) :
    Binary64.ofRatio negative num den = .infinity negative ∨
      ∃ m e, Binary64.ofRatio negative num den = .finite negative m e ∧ 1 ≤ dyadic m e ∧
        -1074 ≤ e := by
  have hnum : num ≠ 0 := by
    rintro rfl
    norm_num at h
  obtain ⟨-, habove, hbelow⟩ := Binary64.exponentOf_spec hnum hden.ne'
  have hround := Binary64.ofRatio_eq negative den hnum rfl
  generalize Binary64.exponentOf num den = e at habove hbelow hround
  have hleast : -53 < e := by
    have := two_zpow_lt_iff.1 ((zpow_zero (2 : ℚ)).le.trans_lt (h.trans_lt habove))
    omega
  have hfits : (2 : ℚ) ^ (e + 52) ≤ num / den := hbelow.resolve_left (by omega)
  have hq := Binary64.le_significandAt hden hfits
  -- A significand of 53 bits makes at least one with every exponent from here on.
  have hone : ∀ m f, 2 ^ 52 ≤ m → e ≤ f → 1 ≤ dyadic m f := by
    intro m f hm hf
    have hcast : (2 : ℚ) ^ (52 : Int) ≤ m := by exact_mod_cast hm
    calc (1 : ℚ) ≤ 2 ^ (f + 52) := one_le_zpow₀ one_le_two (by omega)
      _ = 2 ^ (52 : Int) * 2 ^ f := (two_zpow_add 52 f).symm
      _ ≤ dyadic m f := mul_le_mul_of_nonneg_right hcast (zpow_pos two_pos f).le
  rw [hround]
  split
  · split
    · exact .inl rfl
    · exact .inr ⟨_, _, rfl, hone _ _ (le_refl _) (by omega), by omega⟩
  · split
    · exact .inl rfl
    · exact .inr ⟨_, _, rfl, hone _ _ hq (le_refl _), by omega⟩

end Courier
