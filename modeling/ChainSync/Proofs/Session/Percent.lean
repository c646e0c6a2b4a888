import ChainSync.Session.Progress
import Mathlib

/-!
# Percentages

A percentage that is shown before a sync is over is 99 at most, whatever the
arithmetic that led to it.

The value is kept between two bounds and then cut off after the point. Both
steps are operations on binary64 values, and what is needed of them is that
they fit together: a value that does not compare above 99 is cut off to a
whole number of 99 at most. Values are compared by exponent first and mantissa
second, so a value with a smaller exponent than that of 99 may well have the
greater mantissa. That it is smaller all the same rests on the width of
mantissas (`mantissa_lt`).

No number is neither above nor below 99, and its whole part counts as zero.

## Theorems

* `mantissa_lt`: A mantissa has 53 bits.
* `lt_iff_compare`: Values are compared by their parts.
* `toUInt8_le_of_not_lt`: Cutting off keeps a value from passing 99.
* `Session.percent_le`: A percentage is 99 at most.
-/

namespace ChainSync

open Float.Model Float.Model.UnpackedFloat

theorem mantissa_shiftRight (m : ExtendedMantissa) (n : Nat) :
    (m >>> n).mantissa = m.mantissa / 2 ^ n := by
  change (Nat.repeat ExtendedMantissa.shiftRightOne n m).mantissa = _
  induction n with
  | zero => simp only [Nat.repeat, Nat.pow_zero, Nat.div_one]
  | succ n ih =>
      simp only [Nat.repeat, ExtendedMantissa.shiftRightOne]
      rw [ih, Nat.div_div_eq_div_mul, ← Nat.pow_succ]

/-- The whole part of a positive value. -/
theorem roundToInt_positive (m : Nat) (e : Int) :
    roundToInt .positive m e = ((m <<< e.toNat) / 2 ^ (-e).toNat : Nat) := by
  have hshift : (0 - (e - e.toNat)).toNat = (-e).toNat := by omega
  simp only [roundToInt, decreaseExponent, shiftToExponent, Int.sub_zero, hshift,
    mantissa_shiftRight, ExtendedMantissa.ofMantissaAndAccuracy, Sign.apply]

theorem mantissa_lt {x : Float.Model} {sign : Sign} {m : Nat} {e : Int} {hm : 0 < m}
    (h : x.unpack = .finite sign m e hm) : m < 2 ^ 53 := by
  unfold Float.Model.unpack UnpackedFloat.unpack at h
  simp only at h
  -- Infinities, no number and zero are not finite in this sense; what is left
  -- are the values with and without a leading bit.
  split at h
  · split at h <;> exact absurd h (by simp only [reduceCtorEq, not_false_eq_true])
  · split at h
    · split at h
      · exact absurd h (by simp only [reduceCtorEq, not_false_eq_true])
      · rcases UnpackedFloat.finite.inj h with ⟨_, rfl, _⟩
        exact Nat.lt_trans (BitVec.isLt _) (by decide)
    · rcases UnpackedFloat.finite.inj h with ⟨_, rfl, _⟩
      exact BitVec.isLt _

theorem lt_iff_compare (x y : Float) :
    x < y ↔ x.toModel.unpack.compare y.toModel.unpack = some .lt := by
  change decide (UnpackedFloat.lt _ _ = true) = true ↔ _
  rw [decide_eq_true_iff, UnpackedFloat.lt, beq_iff_eq]

theorem unpack_ninetyNine :
    (99.0 : Float).toModel.unpack = .finite .positive (99 * 2 ^ 46) (-46) (by decide) := rfl

theorem whole_le {m : Nat} {e : Int} (hm : m < 2 ^ 53)
    (h : e < -46 ∨ e = -46 ∧ m ≤ 99 * 2 ^ 46) : (m <<< e.toNat) / 2 ^ (-e).toNat ≤ 99 := by
  have hnone : e.toNat = 0 := by omega
  rw [hnone, Nat.shiftLeft_zero]
  rcases h with h | ⟨rfl, h⟩
  · -- Below the exponent of 99 no mantissa is wide enough to reach 64.
    have hpow : 2 ^ 47 ≤ 2 ^ (-e).toNat := Nat.pow_le_pow_right (by decide) (by omega)
    refine Nat.le_of_lt_succ (Nat.div_lt_of_lt_mul ?_)
    omega
  · exact Nat.div_le_of_le_mul (by rwa [Nat.mul_comm])

theorem ofNatClamp_le {n : Nat} {b : UInt8} (h : n ≤ b.toNat) : UInt8.ofNatClamp n ≤ b := by
  unfold UInt8.ofNatClamp
  rw [dif_pos (Nat.lt_of_le_of_lt h b.toNat_lt)]
  exact UInt8.le_iff_toNat_le.mpr h

theorem toUInt8_le_of_not_lt {x : Float} (h : ¬ 99.0 < x) : x.toUInt8 ≤ 99 := by
  rw [lt_iff_compare, unpack_ninetyNine] at h
  change UInt8.ofNatClamp (x.toModel.unpack.toInt 0 255).toNat ≤ 99
  refine ofNatClamp_le ?_
  cases hx : x.toModel.unpack with
  | notANumber => exact Nat.zero_le _
  | zero sign => exact Nat.zero_le _
  | infinity sign =>
      rw [hx] at h
      cases sign with
      | positive => exact absurd rfl h
      | negative => exact Nat.zero_le _
  | finite sign m e hm =>
      have hlt := mantissa_lt hx
      rw [hx] at h
      cases sign with
      | negative =>
          dsimp only [toInt, roundToInt, Sign.apply]
          omega
      | positive =>
          dsimp only [toInt]
          rw [roundToInt_positive, Int.toNat_natCast]
          -- What does not exceed 99 has no greater exponent, or the same and no greater mantissa.
          refine whole_le hlt ?_
          dsimp only [UnpackedFloat.compare] at h
          simp only [Option.some.injEq, Ordering.then_eq_lt, Int.compare_eq_lt, Int.compare_eq_eq,
            Nat.compare_eq_lt] at h
          omega

theorem Session.percent_le (x : Float) : Session.percent x ≤ 99 := by
  unfold Session.percent Session.clampFloat
  by_cases hlow : x < 0.0
  · rw [if_pos hlow]
    decide
  · rw [if_neg hlow]
    by_cases hhigh : 99.0 < x
    · rw [if_pos hhigh]
      decide
    · rw [if_neg hhigh]
      exact toUInt8_le_of_not_lt hhigh

end ChainSync
