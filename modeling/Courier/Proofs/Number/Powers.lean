import Courier.Proofs.Number.Order
import Mathlib.Algebra.Order.Ring.Pow

set_option autoImplicit false

/-! # Powers by repeated squaring

Powers are products of squares, each of them rounded. Powers with neighbouring exponents are made of
different squares; still a power of a number of at least one is never less than the one before it
(`Binary64.pow_size_le_succ`). It lies within one rounding for each unit of the exponent of the
exact power, or that is too large for the format (`Binary64.pow_tracks`). -/

namespace Courier

/-! ## The loop -/

theorem Binary64.powLoop_zero (fuel : Nat) (base acc : Binary64) :
    Binary64.powLoop fuel base acc 0 = acc := by
  cases fuel <;> rfl

/-- One digit of the exponent. -/
theorem Binary64.powLoop_succ (fuel : Nat) (base acc : Binary64) (n : Nat) :
    Binary64.powLoop (fuel + 1) base acc n =
      Binary64.powLoop fuel (base.mul base) (if n % 2 = 1 then acc.mul base else acc) (n / 2) := by
  rw [Binary64.powLoop]
  split
  · rename_i hlast
    rw [hlast, Binary64.powLoop_zero]
  · rfl

/-- More fuel than there are digits makes no difference. -/
theorem Binary64.powLoop_add {fuel n : Nat} (h : n < 2 ^ fuel) (extra : Nat)
    (base acc : Binary64) :
    Binary64.powLoop (fuel + extra) base acc n = Binary64.powLoop fuel base acc n := by
  induction fuel generalizing base acc n with
  | zero =>
    obtain rfl : n = 0 := by omega
    rw [Binary64.powLoop_zero, Binary64.powLoop_zero]
  | succ fuel ih =>
    rw [Nat.succ_add, Binary64.powLoop_succ, Binary64.powLoop_succ, ih (by omega)]

theorem Binary64.pow_eq {fuel n : Nat} (h : n < 2 ^ fuel) (base : Binary64) :
    base.pow n = Binary64.powLoop fuel base (Binary64.ofNat 1) n := by
  have hdigits : n < 2 ^ (n.log2 + 1) := Nat.lt_log2_self
  unfold Binary64.pow
  rw [← Binary64.powLoop_add hdigits fuel, Nat.add_comm, Binary64.powLoop_add h]

theorem Binary64.IsMagnitude.powLoop {base acc : Binary64} (hbase : base.IsMagnitude)
    (hacc : acc.IsMagnitude) (fuel n : Nat) : (Binary64.powLoop fuel base acc n).IsMagnitude := by
  induction fuel generalizing base acc n with
  | zero => exact hacc
  | succ fuel ih =>
    rw [Binary64.powLoop_succ]
    refine ih (hbase.mul hbase) ?_ _
    split
    · exact hacc.mul hbase
    · exact hacc

theorem Binary64.IsMagnitude.pow {base : Binary64} (h : base.IsMagnitude) (n : Nat) :
    (base.pow n).IsMagnitude :=
  h.powLoop (Binary64.ofNat_rounds 1).isMagnitude _ _

/-! ## Order -/

theorem Binary64.powLoop_size_le {a b : Binary64} (h : a.size ≤ b.size) (fuel : Nat)
    (base : Binary64) (n : Nat) :
    (Binary64.powLoop fuel base a n).size ≤ (Binary64.powLoop fuel base b n).size := by
  induction fuel generalizing base a b n with
  | zero => exact h
  | succ fuel ih =>
    rw [Binary64.powLoop_succ, Binary64.powLoop_succ]
    refine ih ?_ _ _
    split
    · exact Binary64.size_mul_le h le_rfl
    · exact h

/-- The loop for one exponent stays below that for the next one. As long as the digits of the first
    are ones, those of the second are zeros: what the first has gathered is at most the square that
    the second waits for. -/
theorem Binary64.powLoop_size_le_succ {fuel n : Nat} {base a : Binary64}
    (format : base.InFormat) (hone : 1 ≤ base.size) (ha : a.size ≤ base.size)
    (h : n + 1 < 2 ^ fuel) :
    (Binary64.powLoop fuel base a n).size ≤
      (Binary64.powLoop fuel base (Binary64.ofNat 1) (n + 1)).size := by
  induction fuel generalizing base a n with
  | zero => omega
  | succ fuel ih =>
    rw [Binary64.powLoop_succ, Binary64.powLoop_succ]
    rcases Nat.mod_two_eq_zero_or_one n with heven | hodd
    · rw [if_neg (by omega), if_pos (by omega), show (n + 1) / 2 = n / 2 by omega]
      refine Binary64.powLoop_size_le ?_ _ _ _
      rwa [Binary64.size_one_mul format hone]
    · rw [if_pos hodd, if_neg (by omega), show (n + 1) / 2 = n / 2 + 1 by omega]
      exact ih (Binary64.mul_inFormat _ _) (Binary64.one_le_size_mul hone hone)
        (Binary64.size_mul_le ha le_rfl) (by omega)

/-- Powers of a number of at least one never shrink as the exponent grows, though each is a product
    of other rounded squares than the one before it. -/
theorem Binary64.pow_size_le_succ {base : Binary64} (format : base.InFormat)
    (hone : 1 ≤ base.size) (n : Nat) : (base.pow n).size ≤ (base.pow (n + 1)).size := by
  have hfuel : n + 1 < 2 ^ (n + 1) := Nat.lt_two_pow_self
  rw [Binary64.pow_eq (by omega : n < 2 ^ (n + 1)), Binary64.pow_eq hfuel]
  exact Binary64.powLoop_size_le_succ format hone (by rwa [Binary64.size_one]) hfuel

theorem Binary64.one_le_size_pow {base : Binary64} (format : base.InFormat)
    (hone : 1 ≤ base.size) (n : Nat) : 1 ≤ (base.pow n).size := by
  induction n with
  | zero =>
    rw [Binary64.pow_eq (show 0 < 2 ^ 0 by decide), Binary64.powLoop_zero, Binary64.size_one]
  | succ n ih => exact ih.trans (Binary64.pow_size_le_succ format hone n)

/-! ## Errors -/

/-- A number of at least one that stands for a value after a number of roundings. Of a value that is
    too large for the format nothing is said but that the number is not too small. -/
structure Binary64.Tracks (x : Binary64) (v : ℚ) (roundings : Nat) : Prop where
  one_le : 1 ≤ x.size
  le_size : (v * (1 - roundoff) ^ roundings : ℚ) ≤ x.size
  size_le : v * (1 + roundoff) ^ roundings < 2 ^ (1024 : Int) →
    x.size ≤ (v * (1 + roundoff) ^ roundings : ℚ)

variable {x y : Binary64} {v u : ℚ} {i j : Nat}

theorem Binary64.HasValue.tracks (h : x.HasValue v) (hv : 1 ≤ v) : x.Tracks v 0 := by
  refine ⟨?_, ?_, fun _ => ?_⟩
  · rw [h.size]
    exact WithTop.coe_le_coe.2 hv
  · rw [pow_zero, mul_one, h.size]
  · rw [pow_zero, mul_one, h.size]

/-- A product adds one rounding to those of its factors. -/
theorem Binary64.Tracks.mul (hx : x.Tracks v i) (hy : y.Tracks u j) (hv : 1 ≤ v) (hu : 1 ≤ u) :
    (x.mul y).Tracks (v * u) (i + j + 1) := by
  have hless : 0 ≤ 1 - roundoff := by norm_num [roundoff]
  have hmore : 1 ≤ 1 + roundoff := by norm_num [roundoff]
  refine ⟨Binary64.one_le_size_mul hx.one_le hy.one_le, ?_, fun small => ?_⟩
  · have normal : ((2 ^ (-1022 : Int) : ℚ) : WithTop ℚ) ≤ x.size :=
      le_trans (WithTop.coe_le_coe.2 (zpow_le_one_of_nonpos₀ one_le_two (by decide))) hx.one_le
    have hmul := Binary64.le_size_mul hx.le_size hy.le_size (by positivity) (by positivity) normal
      hy.one_le
    refine le_trans (le_of_eq (congrArg _ ?_)) hmul
    ring
  · have hsplit : v * u * (1 + roundoff) ^ (i + j + 1) =
        v * (1 + roundoff) ^ i * (u * (1 + roundoff) ^ j) * (1 + roundoff) := by ring
    have hfirst : 1 ≤ v * (1 + roundoff) ^ i :=
      one_le_mul_of_one_le_of_one_le hv (one_le_pow₀ hmore)
    have hsecond : 1 ≤ u * (1 + roundoff) ^ j :=
      one_le_mul_of_one_le_of_one_le hu (one_le_pow₀ hmore)
    rw [hsplit] at small ⊢
    have hboth := (le_mul_of_one_le_right (by positivity) hmore).trans_lt small
    refine Binary64.size_mul_le_of_le (hx.size_le ?_) (hy.size_le ?_) ?_ small
    · exact (le_mul_of_one_le_right (by positivity) hsecond).trans_lt hboth
    · exact (le_mul_of_one_le_left (by positivity) hfirst).trans_lt hboth
    · exact (zpow_le_one_of_nonpos₀ one_le_two (by decide)).trans
        (one_le_mul_of_one_le_of_one_le hfirst hsecond)

/-- The loop for an exponent adds, for each of its units, one rounding to those of the base. -/
theorem Binary64.powLoop_tracks {fuel n : Nat} {base acc : Binary64} {b a : ℚ}
    (hbase : base.Tracks b j) (hacc : acc.Tracks a i) (hb : 1 ≤ b) (ha : 1 ≤ a)
    (h : n < 2 ^ fuel) :
    (Binary64.powLoop fuel base acc n).Tracks (a * b ^ n) (i + n * (j + 1)) := by
  induction fuel generalizing base acc b a i j n with
  | zero =>
    obtain rfl : n = 0 := by omega
    rw [Binary64.powLoop_zero, pow_zero, mul_one, Nat.zero_mul, Nat.add_zero]
    exact hacc
  | succ fuel ih =>
    have hsquare := hbase.mul hbase hb hb
    have hpower : b ^ n = b ^ (n % 2) * (b * b) ^ (n / 2) := by
      rw [← pow_two, ← pow_mul, ← pow_add, Nat.mod_add_div]
    have hcount : n * (j + 1) = n % 2 * (j + 1) + n / 2 * (j + j + 1 + 1) := by
      calc n * (j + 1) = (n % 2 + 2 * (n / 2)) * (j + 1) := by rw [Nat.mod_add_div]
        _ = n % 2 * (j + 1) + n / 2 * (j + j + 1 + 1) := by ring
    rw [Binary64.powLoop_succ, hpower, hcount, ← mul_assoc, ← Nat.add_assoc]
    rcases Nat.mod_two_eq_zero_or_one n with heven | hodd
    · rw [if_neg (by omega), heven, pow_zero, mul_one, Nat.zero_mul, Nat.add_zero]
      exact ih hsquare hacc (one_le_mul_of_one_le_of_one_le hb hb) ha (by omega)
    · rw [if_pos hodd, hodd, pow_one, Nat.one_mul, ← Nat.add_assoc]
      exact ih hsquare (hacc.mul hbase ha hb) (one_le_mul_of_one_le_of_one_le hb hb)
        (one_le_mul_of_one_le_of_one_le ha hb) (by omega)

/-- A power is off by one rounding at most for each unit of the exponent. -/
theorem Binary64.pow_tracks {base : Binary64} {b : ℚ} (h : base.HasValue b) (hb : 1 ≤ b) (n : Nat) :
    (base.pow n).Tracks (b ^ n) n := by
  have hone : (Binary64.ofNat 1).HasValue 1 := by
    exact_mod_cast Binary64.ofNat_hasValue (n := 1) (by decide)
  have hloop := Binary64.powLoop_tracks (h.tracks hb) (hone.tracks le_rfl) hb le_rfl
    (show n < 2 ^ n from Nat.lt_two_pow_self)
  rw [Binary64.pow_eq Nat.lt_two_pow_self]
  rwa [one_mul, Nat.zero_add, Nat.zero_add, Nat.mul_one] at hloop

end Courier
