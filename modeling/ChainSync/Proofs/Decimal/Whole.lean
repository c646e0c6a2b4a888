import ChainSync.Proofs.Decimal.Nearest

/-!
# Whole Values

Binary64 values that are whole numbers, how they are made, compared and taken apart.

A value rounded to a whole number is always one of the values itself: either it had no
bits behind the point, or it was so small that the whole number has 53 bits. So
rounding to a whole number is exact although its result is rounded to the nearest value
once more (`round_whole`). Comparing two values compares the numbers they stand for,
brought to the smaller of both exponents. What 64 bits can hold is taken over as it is.

## Main definitions

* `Binary64.number`: The number a finite value stands for.

## Theorems

* `Binary64.lt_iff`, `Binary64.ge_iff`: Values are compared like their numbers.
* `Binary64.roundHalfUp_eq`: Rounding to a whole number, a half going up.
* `Binary64.ofRatio_whole`: Whole numbers that are values are kept.
* `Binary64.round_whole`: The rounded value is that number.
* `Binary64.toInt64_whole`: Its 64 bits are, if it fits into them.
-/

namespace ChainSync

namespace Binary64

open Nearness (scaled scaled_pos scaled_shift)

variable {a b negative : Bool} {m n : Nat} {e k : Int}

/-! ## Numbers in order -/

/-- The number a finite value stands for. -/
def number (negative : Bool) (m : Nat) (e : Int) : ℚ :=
  if negative then -scaled m e else scaled m e

theorem number_of_scaled {w : Nat} (h : scaled m e = w) :
    number negative m e = (signed negative w : Int) := by
  unfold number signed
  rw [h]
  cases negative <;> simp

/-- A number brought to a smaller exponent. -/
theorem number_eq_signed (negative : Bool) (m : Nat) {e c : Int} (h : c ≤ e) :
    number negative m e = (signed negative (m <<< (e - c).toNat) : Int) * 2 ^ c := by
  have hvalue : scaled m e = (m <<< (e - c).toNat : Nat) * 2 ^ c := by
    have hshift := scaled_shift m (e - c).toNat c
    rw [show c + ((e - c).toNat : Int) = e by omega] at hshift
    rw [← hshift, Nat.shiftLeft_eq]
    rfl
  unfold number signed
  rw [hvalue]
  generalize m <<< (e - c).toNat = w
  cases negative <;> simp

theorem number_lt_iff : number a m e < number b n k ↔
    signed a (m <<< (e - k).toNat) < signed b (n <<< (k - e).toNat) := by
  have hpos : (0 : ℚ) < 2 ^ min e k := by positivity
  rw [number_eq_signed a m (min_le_left e k), number_eq_signed b n (min_le_right e k),
    mul_lt_mul_iff_left₀ hpos, Int.cast_lt, show (e - min e k).toNat = (e - k).toNat by omega,
    show (k - min e k).toNat = (k - e).toNat by omega]

theorem lt_iff : (finite a m e).lt (finite b n k) = true ↔ number a m e < number b n k := by
  unfold lt order?
  rw [decide_eq_true_iff, Option.some.injEq, compare_lt_iff_lt, number_lt_iff]

theorem ge_iff : (finite a m e).ge (finite b n k) = true ↔ number b n k ≤ number a m e := by
  unfold ge order?
  rw [Bool.or_eq_true, decide_eq_true_iff, decide_eq_true_iff, Option.some.injEq,
    Option.some.injEq, compare_gt_iff_gt, compare_eq_iff_eq, ← not_lt, number_lt_iff, not_lt,
    le_iff_lt_or_eq, eq_comm]

theorem infinite_lt (side : Bool) : (infinite side).lt (finite b n k) = side := by
  cases side <;> rfl

theorem infinite_ge (side : Bool) : (infinite side).ge (finite b n k) = !side := by
  cases side <;> rfl

/-! ## Rounding to whole numbers -/

theorem roundHalfUp_eq (m : Nat) (e : Int) : roundHalfUp m e = ⌊scaled m e + 1 / 2⌋₊ := by
  have hratio := shifted_ratio m 1 (-e)
  have hunit : (0 : ℚ) < (1 <<< (-e).toNat : Nat) := by
    exact_mod_cast shiftLeft_pos Nat.one_pos _
  rw [neg_neg, Nat.cast_one, div_one, zpow_neg, div_inv_eq_mul] at hratio
  have hhalf : scaled m e + (1 / 2 : ℚ) =
      ((2 * m <<< e.toNat + 1 <<< (-e).toNat : Nat) : ℚ) / (2 * 1 <<< (-e).toNat : Nat) := by
    change (m : ℚ) * 2 ^ e + 1 / 2 = _
    rw [← hratio]
    push_cast
    field_simp
  rw [hhalf, Nat.floor_div_eq_div]
  rfl

/-- A whole number that comes of rounding a value has 53 bits. -/
theorem exists_scaled_eq_roundHalfUp (hm : m < 2 ^ 53) (he : e ≤ maxExponent) :
    ∃ n k, n < 2 ^ 53 ∧ minExponent ≤ k ∧ k ≤ maxExponent ∧ scaled n k = roundHalfUp m e := by
  by_cases hwhole : 0 ≤ e
  · refine ⟨m, e, hm, (show minExponent ≤ 0 by decide).trans hwhole, he, ?_⟩
    obtain ⟨n, rfl⟩ := Int.eq_ofNat_of_zero_le hwhole
    have hself : scaled m n = (m * 2 ^ n : Nat) := by
      unfold scaled
      push_cast
      rw [zpow_natCast]
    have hfloor : ⌊((m * 2 ^ n : Nat) : ℚ) + 1 / 2⌋₊ = m * 2 ^ n := by
      rw [Nat.floor_eq_iff (by positivity)]
      constructor <;> linarith
    rw [roundHalfUp_eq, hself, hfloor]
  · -- At least half of the mantissa is behind the point.
    refine ⟨roundHalfUp m e, 0, ?_, by decide, by decide, ?_⟩
    · have hunit : 2 ^ 1 ≤ 2 ^ (-e).toNat := Nat.pow_le_pow_right (by decide) (by omega)
      unfold roundHalfUp
      simp only [Nat.shiftLeft_eq, show e.toNat = 0 by omega, pow_zero, mul_one, one_mul]
      rw [Nat.div_lt_iff_lt_mul (by positivity)]
      nlinarith
    · unfold scaled
      rw [zpow_zero, mul_one]

/-- A whole number that is a value is not changed by rounding. -/
theorem ofRatio_whole (negative : Bool) {w : Nat} (hn : n < 2 ^ 53) (hk : minExponent ≤ k)
    (hk' : k ≤ maxExponent) (h : scaled n k = w) :
    ∃ m e, ofRatio negative w 1 = finite negative m e ∧ scaled m e = w := by
  have hround := rounded_ofRatio negative w Nat.one_pos
  rw [Nat.cast_one, div_one] at hround
  generalize ofRatio negative w 1 = x at hround
  cases hround with
  | finite hnearest _ => exact ⟨_, _, rfl, hnearest.eq_of_scaled hn hk h⟩
  | infinite hnearest htop =>
      exfalso
      have hn' : (n : ℚ) < 2 ^ (53 : Int) := by exact_mod_cast hn
      have hexponent : k ≤ 971 := hk'
      have hlt : scaled n k < 2 ^ (1024 : Int) :=
        calc scaled n k < 2 ^ (53 : Int) * 2 ^ k := mul_lt_mul_of_pos_right hn' (by positivity)
          _ ≤ 2 ^ (53 : Int) * 2 ^ (971 : Int) := by
            gcongr
            norm_num
          _ = 2 ^ (1024 : Int) := by
            rw [← zpow_add₀ two_ne_zero]
            rfl
      rw [h, ← hnearest.eq_of_scaled hn hk h] at hlt
      exact absurd hlt (hnearest.le_of_infinite htop).not_gt

/-- Rounding to a whole number is exact. -/
theorem round_whole (negative : Bool) (hm : m < 2 ^ 53) (he : e ≤ maxExponent) :
    ∃ n k, (finite negative m e).round = finite negative n k ∧
      scaled n k = roundHalfUp m e := by
  rcases exists_scaled_eq_roundHalfUp hm he with ⟨n, k, hn, hk, hk', hvalue⟩
  exact ofRatio_whole negative hn hk hk' hvalue

/-- A whole number of 53 bits is a value. -/
theorem ofInt_whole {n : Int} (hn : n.natAbs < 2 ^ 53) :
    ∃ m e, ofInt n = finite (n < 0) m e ∧ scaled m e = n.natAbs := by
  refine ofRatio_whole (decide (n < 0)) (k := 0) hn (by decide) (by decide) ?_
  unfold scaled
  rw [zpow_zero, mul_one]

/-! ## Whole numbers of 64 bits -/

/-- A whole number in the range of 64 bits is taken over. -/
theorem toInt64_whole {w : Nat} (h : scaled m e = w) (hlow : -2 ^ 63 ≤ signed negative w)
    (hhigh : signed negative w < 2 ^ 63) :
    (finite negative m e).toInt64.toInt = signed negative w := by
  have hpart : m <<< e.toNat >>> (-e).toNat = w := by
    have hratio := shifted_ratio m 1 (-e)
    have hunit : (0 : ℚ) < (1 <<< (-e).toNat : Nat) := by
      exact_mod_cast shiftLeft_pos Nat.one_pos _
    rw [neg_neg, Nat.cast_one, div_one, zpow_neg, div_inv_eq_mul, show (m : ℚ) * 2 ^ e = w from h,
      div_eq_iff hunit.ne'] at hratio
    have hshift : m <<< e.toNat = w * 1 <<< (-e).toNat := by exact_mod_cast hratio
    rw [hshift, Nat.shiftLeft_eq, one_mul, Nat.shiftRight_eq_div_pow,
      Nat.mul_div_cancel _ (Nat.two_pow_pos _)]
  have hmin : Int64.minValue.toInt ≤ signed negative w := hlow
  have hmax : signed negative w ≤ Int64.maxValue.toInt := Int.le_of_lt_add_one hhigh
  change (Int64.ofIntClamp (signed negative (m <<< e.toNat >>> (-e).toNat))).toInt = _
  unfold Int64.ofIntClamp
  rw [hpart, dif_pos hmin, dif_pos hmax, Int64.toInt_ofIntLE]

end Binary64

end ChainSync
