import ChainSync.Proofs.Session.Percent

/-!
# Rounding

How far the result of an operation on binary64 values lies from the exact one.

A value is a mantissa and an exponent, so the exact result of an operation is a
rational number. The operations themselves work on mantissas: they compute more
bits than needed, cut off what is too much and round what is left up or down.
Nearest or not is not asked here. What is left after cutting off has 53 bits, so
one unit of it is less than the 2 ^ 52-th part of the value, and rounding up adds
one unit at most. That bound is all that is used later on.

Only positive values occur. Values next to zero have fewer bits, which is why
`Rounds` is stated for exact results above `2 ^ (-1000)`. There is no bound from
above: how great an exponent may be is a question of packing, not of rounding.

## Main definitions

* `scaled`: The value of a mantissa and an exponent.
* `Rounds`: A value with 53 bits close to an exact one.

## Theorems

* `roundWithAccuracy_eq`: Rounding leaves 53 bits, one unit up at most.
* `rounds_roundWithAccuracy`: So it stays close to the exact result.
* `rounds_mul`, `rounds_div`, `rounds_add`, `rounds_ofNat`: The operations.
-/

namespace ChainSync

namespace Nearness

open Float.Model Float.Model.UnpackedFloat

/-- The value of a mantissa and an exponent. -/
def scaled (m : Nat) (e : Int) : ℚ := m * 2 ^ e

theorem scaled_pos {m : Nat} (hm : 0 < m) (e : Int) : 0 < scaled m e := by
  unfold scaled
  positivity

theorem scaled_shift (m n : Nat) (e : Int) : scaled (m * 2 ^ n) e = scaled m (e + n) := by
  unfold scaled
  rw [zpow_add₀ (by norm_num), zpow_natCast]
  push_cast
  ring

theorem scaled_le {m n : Nat} (h : m ≤ n) (e : Int) : scaled m e ≤ scaled n e := by
  unfold scaled
  gcongr

theorem targetExponent_eq (t : Int) :
    Format.binary64.targetExponent t = max (t - 53) (-1074) := rfl

theorem mantissa_ofMantissaAndAccuracy (m : Nat) (accuracy : Accuracy) :
    (ExtendedMantissa.ofMantissaAndAccuracy m accuracy).mantissa = m := by
  unfold ExtendedMantissa.ofMantissaAndAccuracy
  split <;> rfl

theorem roundedMantissa_cases (m : ExtendedMantissa) :
    m.roundedMantissa = m.mantissa ∨ m.roundedMantissa = m.mantissa + 1 := by
  rcases m with ⟨m, roundBit, stickyBit⟩
  cases roundBit <;> cases stickyBit <;>
    simp [ExtendedMantissa.roundedMantissa, ExtendedMantissa.accuracy,
      Accuracy.roundToNearestEven]
  omega

/-- A mantissa with more bits than needed is cut to 53 of them. -/
theorem shiftToTargetExponent_eq {m : Nat} {e : Int} (accuracy : Accuracy) (hm : 2 ^ 52 ≤ m)
    (he : -1074 ≤ e + (m.log2 - 52 : Nat)) :
    (shiftToTargetExponent Format.binary64 m e accuracy).1.mantissa = m / 2 ^ (m.log2 - 52) ∧
      (shiftToTargetExponent Format.binary64 m e accuracy).2 = e + (m.log2 - 52 : Nat) := by
  have hlog : 52 ≤ m.log2 := (Nat.le_log2 (by omega)).mpr hm
  have hshift : (Format.binary64.targetExponent (totalExponent m e) - e).toNat = m.log2 - 52 := by
    rw [targetExponent_eq, totalExponent]
    omega
  simp only [shiftToTargetExponent, shiftToExponent, hshift, mantissa_shiftRight,
    mantissa_ofMantissaAndAccuracy, and_self]

/-- What is left of a mantissa that is cut has 53 bits. -/
theorem div_log2_bounds {m : Nat} (hm : 2 ^ 52 ≤ m) :
    2 ^ 52 ≤ m / 2 ^ (m.log2 - 52) ∧ m / 2 ^ (m.log2 - 52) < 2 ^ 53 := by
  have hlog : 52 ≤ m.log2 := (Nat.le_log2 (by omega)).mpr hm
  have hlow : 2 ^ (52 + (m.log2 - 52)) ≤ m := by
    rw [show 52 + (m.log2 - 52) = m.log2 by omega]
    exact Nat.log2_self_le (by omega)
  have hhigh : m < 2 ^ (53 + (m.log2 - 52)) := by
    rw [show 53 + (m.log2 - 52) = m.log2 + 1 by omega]
    exact Nat.lt_log2_self
  rw [Nat.pow_add] at hlow hhigh
  exact ⟨(Nat.le_div_iff_mul_le (Nat.two_pow_pos _)).mpr hlow, Nat.div_lt_of_lt_mul (by
    rwa [Nat.mul_comm])⟩

/-- A mantissa that has 53 bits is left alone. -/
theorem shiftToTargetExponent_self {m : Nat} {e : Int} (hm : 2 ^ 52 ≤ m) (hm' : m < 2 ^ 53)
    (he : -1074 ≤ e) : (shiftToTargetExponent Format.binary64 m e .exact).1.mantissa = m ∧
      (shiftToTargetExponent Format.binary64 m e .exact).2 = e := by
  have hlog : m.log2 = 52 := (Nat.log2_eq_iff (by omega)).mpr ⟨hm, hm'⟩
  rcases shiftToTargetExponent_eq .exact hm (e := e) (by omega) with ⟨hmantissa, hexponent⟩
  rw [hlog] at hmantissa hexponent
  exact ⟨by simpa using hmantissa, by simpa using hexponent⟩

/-- A mantissa that rounding has made one bit too long is cut by that bit. -/
theorem shiftToTargetExponent_carry {e : Int} (he : -1074 ≤ e) :
    (shiftToTargetExponent Format.binary64 (2 ^ 53) e .exact).1.mantissa = 2 ^ 52 ∧
      (shiftToTargetExponent Format.binary64 (2 ^ 53) e .exact).2 = e + 1 := by
  have hlog : (2 ^ 53 : Nat).log2 = 53 := Nat.log2_two_pow
  rcases shiftToTargetExponent_eq .exact (show 2 ^ 52 ≤ 2 ^ 53 by decide) (e := e) (by omega) with
    ⟨hmantissa, hexponent⟩
  rw [hlog] at hmantissa hexponent
  exact ⟨by simpa using hmantissa, by simpa using hexponent⟩

/-- A value is rounded to a mantissa of 53 bits, down or up by less than one unit. -/
theorem roundWithAccuracy_eq {m : Nat} {e : Int} (accuracy : Accuracy) (hm : 2 ^ 52 ≤ m)
    (he : -1074 ≤ e + (m.log2 - 52 : Nat)) :
    ∃ m' e' hm', roundWithAccuracy Format.binary64 .positive m e accuracy =
        .finite .positive m' e' hm' ∧
      2 ^ 52 ≤ m' ∧ m' < 2 ^ 53 ∧ -1074 ≤ e' ∧
      ∃ r, (r = m / 2 ^ (m.log2 - 52) ∨ r = m / 2 ^ (m.log2 - 52) + 1) ∧
        scaled m' e' = scaled r (e + (m.log2 - 52 : Nat)) := by
  rcases shiftToTargetExponent_eq accuracy hm he with ⟨hmantissa, hexponent⟩
  rcases div_log2_bounds hm with ⟨hlow, hhigh⟩
  have hrounded := roundedMantissa_cases (shiftToTargetExponent Format.binary64 m e accuracy).1
  rw [hmantissa] at hrounded
  unfold roundWithAccuracy
  simp only [hexponent]
  generalize (shiftToTargetExponent Format.binary64 m e accuracy).1.roundedMantissa = r at hrounded
  -- Only if all bits were set does rounding up make the mantissa a bit longer.
  by_cases hcarry : r = 2 ^ 53
  · subst hcarry
    rcases shiftToTargetExponent_carry he with ⟨hshort, hnext⟩
    simp only [hshort, hnext]
    refine ⟨2 ^ 52, e + (m.log2 - 52 : Nat) + 1, by decide, by simp, by decide, by decide,
      by omega, 2 ^ 53, hrounded, ?_⟩
    rw [show (2 : Nat) ^ 53 = 2 ^ 52 * 2 ^ 1 by norm_num, scaled_shift]
    simp
  · rcases shiftToTargetExponent_self (show 2 ^ 52 ≤ r by omega) (by omega) he with ⟨hself, hsame⟩
    have hne : r ≠ 0 := by omega
    simp only [hself, hsame, hne, dite_false]
    exact ⟨r, _, by omega, rfl, by omega, by omega, he, r, hrounded, rfl⟩

/-- A positive number with 53 bits that differs from a value by one unit at most. -/
def Rounds (x : UnpackedFloat) (v : ℚ) : Prop :=
  ∃ m e hm, x = .finite .positive m e hm ∧ 2 ^ 52 ≤ m ∧ m < 2 ^ 53 ∧ -1074 ≤ e ∧
    |scaled m e - v| ≤ v / 2 ^ 52

theorem le_of_le_scaled {m n : Nat} {k e : Int} (h : 2 ^ k ≤ scaled m e) (hm : m ≤ 2 ^ n) :
    k ≤ n + e := by
  have hle : (2 : ℚ) ^ k ≤ 2 ^ (n + e) := by
    refine h.trans ((scaled_le hm e).trans_eq ?_)
    rw [scaled, zpow_add₀ (by norm_num), zpow_natCast]
    push_cast
    rfl
  exact (zpow_le_zpow_iff_right₀ (by norm_num)).mp hle

theorem rounds_roundWithAccuracy {m : Nat} {e : Int} {v : ℚ} (accuracy : Accuracy)
    (hm : 2 ^ 52 ≤ m) (hlow : scaled m e ≤ v) (hhigh : v ≤ scaled (m + 1) e)
    (hv : 2 ^ (-1000 : Int) ≤ v) :
    Rounds (roundWithAccuracy Format.binary64 .positive m e accuracy) v := by
  have hlog : 52 ≤ m.log2 := (Nat.le_log2 (by omega)).mpr hm
  have he : -1000 ≤ ((m.log2 + 1 : Nat) : Int) + e :=
    le_of_le_scaled (hv.trans hhigh) Nat.lt_log2_self
  have hexponent : -1074 ≤ e + (m.log2 - 52 : Nat) := by omega
  rcases roundWithAccuracy_eq accuracy hm hexponent with
    ⟨m', e', hm', hround, hmin, hmax, he', r, hr, hvalue⟩
  refine ⟨m', e', hm', hround, hmin, hmax, he', ?_⟩
  set s := m.log2 - 52
  set q := m / 2 ^ s
  have hq := (div_log2_bounds hm).1
  -- The value lies between the mantissa that is left and the next one.
  have hbelow : scaled q (e + s) ≤ v := by
    rw [← scaled_shift]
    exact (scaled_le (Nat.div_mul_le_self m _) e).trans hlow
  have habove : v ≤ scaled (q + 1) (e + s) := by
    rw [← scaled_shift]
    exact hhigh.trans (scaled_le (Nat.lt_mul_of_div_lt (Nat.lt_succ_self q)
      (Nat.two_pow_pos s)) e)
  have hunit : scaled (q + 1) (e + s) = scaled q (e + s) + 2 ^ (e + (s : Int)) := by
    unfold scaled
    push_cast
    ring
  have hsmall : (2 : ℚ) ^ (e + (s : Int)) ≤ v / 2 ^ 52 := by
    rw [le_div_iff₀ (by positivity), mul_comm]
    refine le_trans ?_ hbelow
    unfold scaled
    gcongr
    exact_mod_cast hq
  rw [hvalue, abs_le]
  rcases hr with rfl | rfl <;> constructor <;> linarith

theorem rounds_mul {m n : Nat} {e k : Int} (hm : 2 ^ 52 ≤ m) (hn : 0 < n)
    (hv : 2 ^ (-1000 : Int) ≤ scaled m e * scaled n k) :
    Rounds (mul Format.binary64 (.finite .positive m e (by omega)) (.finite .positive n k hn))
      (scaled m e * scaled n k) := by
  have hvalue : scaled m e * scaled n k = scaled (m * n) (e + k) := by
    unfold scaled
    rw [zpow_add₀ (by norm_num)]
    push_cast
    ring
  rw [hvalue] at hv ⊢
  exact rounds_roundWithAccuracy .exact (hm.trans (Nat.le_mul_of_pos_right m hn)) le_rfl
    (scaled_le (Nat.le_succ _) _) hv

theorem rounds_div {m n : Nat} {e k : Int} (hm : 2 ^ 52 ≤ m) (hm' : m < 2 ^ 53)
    (hn : 2 ^ 52 ≤ n) (hn' : n < 2 ^ 53) (hv : 2 ^ (-1000 : Int) ≤ scaled m e / scaled n k) :
    Rounds (div Format.binary64 (.finite .positive m e (by omega))
      (.finite .positive n k (by omega))) (scaled m e / scaled n k) := by
  have hpos : (0 : ℚ) < n := by exact_mod_cast (by omega : 0 < n)
  have hvalue : scaled m e / scaled n k = (m * 2 ^ 53 : Nat) / n * 2 ^ (e - k - 53) := by
    unfold scaled
    rw [zpow_sub₀ (by norm_num), zpow_sub₀ (by norm_num)]
    push_cast
    field_simp
  have hlogm : m.log2 = 52 := (Nat.log2_eq_iff (by omega)).mpr ⟨hm, hm'⟩
  have hlogn : n.log2 = 52 := (Nat.log2_eq_iff (by omega)).mpr ⟨hn, hn'⟩
  -- The quotient of two mantissas with as many bits is less than two.
  have hexponent : -1000 ≤ (1 : Nat) + (e - k) := by
    have hdouble : scaled 2 (e - k) * scaled n k = scaled (2 * n) e := by
      unfold scaled
      rw [zpow_sub₀ (by norm_num)]
      push_cast
      field_simp
    refine le_of_le_scaled (hv.trans ?_) (show 2 ≤ 2 ^ 1 by decide)
    rw [div_le_iff₀ (scaled_pos (by omega) k), hdouble]
    exact scaled_le (by omega) e
  have hcore : divCore Format.binary64 m e n k = (m * 2 ^ 53 / n, e - k - 53,
      accuracyOfFraction (m * 2 ^ 53 % n) n) := by
    have htarget : min (e - k) (Format.binary64.targetExponent
        (totalExponent m e - totalExponent n k)) = e - k - 53 := by
      rw [targetExponent_eq, totalExponent, totalExponent, hlogm, hlogn]
      omega
    have hshift : (e - k - (e - k - 53)).toNat = 53 := by omega
    simp only [divCore, htarget, hshift, Nat.shiftLeft_eq]
  simp only [UnpackedFloat.div, hcore]
  rw [hvalue] at hv ⊢
  refine rounds_roundWithAccuracy _ ?_ ?_ ?_ hv
  · rw [Nat.le_div_iff_mul_le (by omega)]
    omega
  · unfold scaled
    gcongr
    exact Nat.cast_div_le
  · unfold scaled
    gcongr
    rw [div_le_iff₀ hpos]
    exact_mod_cast (Nat.lt_mul_of_div_lt (Nat.lt_succ_self _) (by omega)).le

theorem rounds_round {m : Nat} {e : Int} (hm : 0 < m) (hv : 2 ^ (-1000 : Int) ≤ scaled m e) :
    Rounds (round Format.binary64 .positive m e) (scaled m e) := by
  have hlow : -1000 ≤ ((m.log2 + 1 : Nat) : Int) + e :=
    le_of_le_scaled hv Nat.lt_log2_self.le
  have htarget : Format.binary64.targetExponent (totalExponent m e) = m.log2 - 52 + e := by
    rw [targetExponent_eq, totalExponent]
    omega
  have hshift : (e - (m.log2 - 52 + e : Int)).toNat = 52 - m.log2 := by omega
  simp only [UnpackedFloat.round, decreaseExponent, htarget, hshift, Nat.shiftLeft_eq]
  -- A short mantissa is made longer first, which does not change the value.
  have hvalue : scaled (m * 2 ^ (52 - m.log2)) (e - (52 - m.log2 : Nat)) = scaled m e := by
    rw [scaled_shift]
    congr 1
    omega
  have hlong : 2 ^ 52 ≤ m * 2 ^ (52 - m.log2) := by
    have hself : 2 ^ m.log2 ≤ m := Nat.log2_self_le (by omega)
    calc 2 ^ 52 ≤ 2 ^ (m.log2 + (52 - m.log2)) := Nat.pow_le_pow_right (by decide) (by omega)
      _ = 2 ^ m.log2 * 2 ^ (52 - m.log2) := Nat.pow_add ..
      _ ≤ m * 2 ^ (52 - m.log2) := Nat.mul_le_mul_right _ hself
  exact rounds_roundWithAccuracy .exact hlong hvalue.le
    (hvalue.symm.le.trans (scaled_le (Nat.le_succ _) _)) hv

theorem rounds_normalize {m : Nat} {e : Int} (zeroSign : Sign) (hm : 0 < m)
    (hv : 2 ^ (-1000 : Int) ≤ scaled m e) :
    Rounds (UnpackedFloat.normalize Format.binary64 m e zeroSign) (scaled m e) := by
  simp only [UnpackedFloat.normalize, Int.compare_eq_gt.mpr (Int.natCast_pos.mpr hm),
    Int.toNat_natCast]
  exact rounds_round hm hv

theorem rounds_ofNat {n : Nat} (hn : 0 < n) : Rounds (UnpackedFloat.ofNat Format.binary64 n) n := by
  have hvalue : scaled n 0 = n := by rw [scaled, zpow_zero, mul_one]
  have hone : (1 : ℚ) ≤ n := by exact_mod_cast hn
  rw [← hvalue] at hone ⊢
  exact rounds_normalize .positive hn
    ((zpow_le_one_of_nonpos₀ (by norm_num) (by norm_num)).trans hone)

theorem rounds_add {m n : Nat} {e k : Int} (hm : 0 < m) (hn : 0 < n)
    (hv : 2 ^ (-1000 : Int) ≤ scaled m e + scaled n k) :
    Rounds (UnpackedFloat.add Format.binary64 (.finite .positive m e hm)
      (.finite .positive n k hn)) (scaled m e + scaled n k) := by
  let c := min e k
  let i := (e - c).toNat
  let j := (k - c).toNat
  have hsum : scaled (m * 2 ^ i + n * 2 ^ j) c = scaled m e + scaled n k := by
    have hadd : ∀ a b : Nat, scaled (a + b) c = scaled a c + scaled b c := fun a b => by
      unfold scaled
      push_cast
      ring
    rw [hadd, scaled_shift, scaled_shift, show c + (i : Int) = e by omega,
      show c + (j : Int) = k by omega]
  have hpos : 0 < m * 2 ^ i + n * 2 ^ j := Nat.add_pos_left (by positivity) _
  change Rounds (UnpackedFloat.normalize _ ((m <<< i : Nat) + (n <<< j : Nat) : Int) c _) _
  rw [← hsum] at hv ⊢
  rw [Nat.shiftLeft_eq, Nat.shiftLeft_eq, ← Int.natCast_add]
  exact rounds_normalize .positive hpos hv

end Nearness

end ChainSync
