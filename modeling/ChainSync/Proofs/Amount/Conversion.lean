import ChainSync.Amount
import ChainSync.Proofs.Decimal.Whole

/-!
# Converted Amounts

Which amounts survive a conversion to coins and back, and which amounts in coins have
atoms at all.

Dividing by the number of atoms in a coin and multiplying by it again rounds twice, and
each time the result is off by the `2 ^ 53`-th part of it. The second rounding needs no
bound of its own: the number of atoms is a value itself, and the product cannot be
rounded to a value that is farther away than that one. So what comes back is off by
twice the first error, which for less than `2 ^ 51` atoms is less than a half, and the
nearest whole number is the one that went in.

In the other direction the product is rounded to a whole number before it is compared
with what 64 bits can hold. The greatest number of 64 bits is no value, but the upper
end is tested against the next one, `2 ^ 63`, and excluded. So no amount that passes is
cut off when it is taken over.

## Main definitions

* `Amount.nearestWhole`: The nearest whole number, a half going away from zero.

## Theorems

* `Amount.nearestWhole_number`: It is what the product is rounded to.
* `Amount.atoms_of_scale_finite`, `Amount.atoms_of_scale_infinite`: The atoms of an amount.
* `Amount.atoms_eq_ok_iff`, `Amount.atoms_eq_error_iff`: Which amounts have how many.
* `Amount.coins_near`: The error of an amount in coins.
* `Amount.atoms_coins`: Atoms are kept.
* `Amount.conversion_keeps_amounts`: What both conversions do.
-/

namespace ChainSync

namespace Amount

open Binary64 (Nearest Rounded finite infinite leadingBit maxExponent minExponent number
  number_of_scaled roundHalfUp signed)
open Nearness (scaled)

/-- The whole number nearest to `x`, a half going away from zero. -/
def nearestWhole (x : ℚ) : Int :=
  if x < 0 then -round (-x) else round x

variable {negative : Bool} {m p : Nat} {e k : Int}

theorem nearestWhole_number (negative : Bool) (m : Nat) (e : Int) :
    nearestWhole (number negative m e) = signed negative (roundHalfUp m e) := by
  have hnonneg : 0 ≤ scaled m e := by
    unfold scaled
    positivity
  have hround : round (scaled m e) = roundHalfUp m e := by
    rw [round_eq, Binary64.roundHalfUp_eq, Int.natCast_floor_eq_floor (by linarith)]
  unfold nearestWhole number signed
  rw [← hround]
  cases negative with
  | false => simp [hnonneg]
  | true =>
      simp only [if_true, neg_neg, neg_lt_zero]
      rcases hnonneg.eq_or_lt with hzero | hpos
      · rw [← hzero, if_neg (lt_irrefl 0), neg_zero, round_zero, neg_zero]
      · rw [if_pos hpos]

/-! ## Coins to atoms -/

theorem number_ofInt_minValue : ∃ n j, Binary64.ofInt Int64.minValue.toInt = finite true n j ∧
    number true n j = ((-2 ^ 63 : Int) : ℚ) := by
  refine ⟨leadingBit, 11, by decide +kernel, ?_⟩
  norm_num [number, scaled, Nat.shiftLeft_eq, leadingBit]

/-- The greatest number of 64 bits is rounded to the next one. -/
theorem number_ofInt_maxValue : ∃ n j, Binary64.ofInt Int64.maxValue.toInt = finite false n j ∧
    number false n j = ((2 ^ 63 : Int) : ℚ) := by
  refine ⟨leadingBit, 11, by decide +kernel, ?_⟩
  norm_num [number, scaled, Nat.shiftLeft_eq, leadingBit]

/-- An amount whose product is too great has no atoms. -/
theorem atoms_of_scale_infinite {side : Bool}
    (h : (finite negative m e).scale atomsPerCoin = infinite side) :
    atoms (finite negative m e) = .error (.outOfRange (finite negative m e)) := by
  rcases number_ofInt_minValue with ⟨_, _, hmin, _⟩
  rcases number_ofInt_maxValue with ⟨_, _, hmax, _⟩
  unfold atoms
  rw [h, hmin, hmax]
  simp only [Binary64.isFinite, Binary64.round, Binary64.infinite_lt, Binary64.infinite_ge,
    Bool.or_not_self, Bool.not_true, Bool.false_eq_true, if_true, if_false]

/-- Otherwise the whole number nearest to the product decides. -/
theorem atoms_of_scale_finite
    (h : (finite negative m e).scale atomsPerCoin = finite negative p k)
    (hp : p < 2 ^ 53) (hk : k ≤ maxExponent) :
    let whole := signed negative (roundHalfUp p k)
    (-2 ^ 63 ≤ whole ∧ whole < 2 ^ 63 ∧
      ∃ n, atoms (finite negative m e) = .ok n ∧ n.toInt = whole) ∨
    (¬(-2 ^ 63 ≤ whole ∧ whole < 2 ^ 63) ∧
      atoms (finite negative m e) = .error (.outOfRange (finite negative m e))) := by
  intro whole
  rcases Binary64.round_whole negative hp hk with ⟨n, j, hround, hvalue⟩
  rcases number_ofInt_minValue with ⟨_, _, hmin, hminValue⟩
  rcases number_ofInt_maxValue with ⟨_, _, hmax, hmaxValue⟩
  have hatoms : atoms (finite negative m e) =
      if (finite negative n j).lt (.ofInt Int64.minValue.toInt) ||
          (finite negative n j).ge (.ofInt Int64.maxValue.toInt) then
        .error (.outOfRange (finite negative m e))
      else .ok (finite negative n j).toInt64 := by
    unfold atoms
    rw [h, ← hround]
    simp only [Binary64.isFinite, Bool.not_true, Bool.false_eq_true, if_false]
  have hlow : (finite negative n j).lt (.ofInt Int64.minValue.toInt) = true ↔
      whole < -2 ^ 63 := by
    rw [hmin, Binary64.lt_iff, hminValue, number_of_scaled hvalue, Int.cast_lt]
  have hhigh : (finite negative n j).ge (.ofInt Int64.maxValue.toInt) = true ↔
      2 ^ 63 ≤ whole := by
    rw [hmax, Binary64.ge_iff, hmaxValue, number_of_scaled hvalue, Int.cast_le]
  rw [hatoms]
  by_cases hfits : -2 ^ 63 ≤ whole ∧ whole < 2 ^ 63
  · left
    refine ⟨hfits.1, hfits.2, _, if_neg ?_, Binary64.toInt64_whole hvalue hfits.1 hfits.2⟩
    rw [Bool.or_eq_true, hlow, hhigh]
    omega
  · right
    refine ⟨hfits, if_pos ?_⟩
    rw [Bool.or_eq_true, hlow, hhigh]
    omega

/-- A finite amount has atoms, or its product is too great or rounded to too many. -/
theorem atoms_cases (negative : Bool) (m : Nat) (e : Int) :
    (∃ p k n, (finite negative m e).scale atomsPerCoin = finite negative p k ∧
      atoms (finite negative m e) = .ok n ∧ n.toInt = nearestWhole (number negative p k)) ∨
    (atoms (finite negative m e) = .error (.outOfRange (finite negative m e)) ∧
      ∀ p k, (finite negative m e).scale atomsPerCoin = finite negative p k →
        ¬(-2 ^ 63 ≤ nearestWhole (number negative p k) ∧
          nearestWhole (number negative p k) < 2 ^ 63)) := by
  have hround := Binary64.rounded_scale negative m e atomsPerCoin
  generalize hproduct : (finite negative m e).scale atomsPerCoin = product at hround
  cases hround with
  | @finite p k h hk =>
      rcases atoms_of_scale_finite hproduct h.bits hk with ⟨_, _, n, hok, hn⟩ | ⟨hout, herror⟩
      · exact .inl ⟨p, k, n, rfl, hok, by rw [hn, nearestWhole_number]⟩
      · refine .inr ⟨herror, fun p' k' heq => ?_⟩
        cases heq
        rwa [nearestWhole_number]
  | infinite _ _ =>
      exact .inr ⟨atoms_of_scale_infinite hproduct, fun _ _ heq => nomatch heq⟩

theorem atoms_eq_ok_iff (negative : Bool) (m : Nat) (e : Int) (n : Int64) :
    atoms (finite negative m e) = .ok n ↔
      ∃ p k, (finite negative m e).scale atomsPerCoin = finite negative p k ∧
        n.toInt = nearestWhole (number negative p k) := by
  rcases atoms_cases negative m e with ⟨p, k, n', hproduct, hok, hn⟩ | ⟨herror, hout⟩
  · rw [hok, hproduct]
    constructor
    · rintro ⟨⟩
      exact ⟨p, k, rfl, hn⟩
    · rintro ⟨_, _, heq, hn'⟩
      cases heq
      rw [Int64.toInt_inj.mp (hn.trans hn'.symm)]
  · rw [herror]
    refine iff_of_false (by simp) ?_
    rintro ⟨p, k, hproduct, hn⟩
    -- Every result is a number of 64 bits.
    exact hout p k hproduct (hn ▸ ⟨n.le_toInt, n.toInt_lt⟩)

theorem atoms_eq_error_iff (negative : Bool) (m : Nat) (e : Int) (why : Error) :
    atoms (finite negative m e) = .error why ↔ why = .outOfRange (finite negative m e) ∧
      ∀ p k, (finite negative m e).scale atomsPerCoin = finite negative p k →
        ¬(-2 ^ 63 ≤ nearestWhole (number negative p k) ∧
          nearestWhole (number negative p k) < 2 ^ 63) := by
  rcases atoms_cases negative m e with ⟨p, k, n, hproduct, hok, hn⟩ | ⟨herror, hout⟩
  · rw [hok]
    refine iff_of_false (by simp) ?_
    rintro ⟨_, hout⟩
    exact hout p k hproduct (hn ▸ ⟨n.le_toInt, n.toInt_lt⟩)
  · rw [herror]
    constructor
    · rintro ⟨⟩
      exact ⟨rfl, hout⟩
    · rintro ⟨rfl, _⟩
      rfl

/-! ## Atoms to coins and back -/

/-- An amount in coins is that number of atoms divided, off by its `2 ^ 53`-th part at most. -/
theorem coins_near {a : Int64} (ha : a.toInt.natAbs < 2 ^ 53) :
    ∃ m e, coins a = finite (a.toInt < 0) m e ∧
      Rounded (a.toInt < 0) (a.toInt.natAbs / atomsPerCoin) (coins a) ∧
      |scaled m e - a.toInt.natAbs / atomsPerCoin| ≤
        a.toInt.natAbs / atomsPerCoin / 2 ^ 53 := by
  -- The number of atoms is a value itself, so only the division rounds.
  rcases Binary64.ofInt_whole ha with ⟨n, j, hvalue, hn⟩
  generalize a.toInt.natAbs = size at ha hn
  have hcoins : coins a = (finite (a.toInt < 0) n j).shrink atomsPerCoin := by
    unfold coins
    rw [hvalue]
  have hround := Binary64.rounded_shrink (a.toInt < 0) n j (n := atomsPerCoin) (by decide)
  rw [← hcoins, hn] at hround
  have hsmall : (size : ℚ) / atomsPerCoin < 2 ^ (53 : Int) :=
    calc (size : ℚ) / atomsPerCoin ≤ size :=
          div_le_self (by positivity) (by norm_num [atomsPerCoin])
      _ < 2 ^ (53 : Int) := by exact_mod_cast ha
  rcases hround.exists_finite (by positivity) hsmall with ⟨m, e, hfinite, hnearest, _⟩
  refine ⟨m, e, hfinite, hround, ?_⟩
  rcases Nat.eq_zero_or_pos size with rfl | hpos
  · have hzero : scaled 0 minExponent = ((0 : Nat) : ℚ) / atomsPerCoin := by simp [scaled]
    rw [hnearest.eq_of_scaled (by decide) le_rfl hzero, sub_self, abs_zero]
    positivity
  · have hone : (1 : ℚ) ≤ size := by exact_mod_cast hpos
    have hlarge : (2 : ℚ) ^ (-1022 : Int) ≤ scaled n j / atomsPerCoin := by
      calc (2 : ℚ) ^ (-1022 : Int) ≤ 2 ^ (-27 : Int) := zpow_le_zpow_right₀ (by norm_num) (by decide)
        _ ≤ 1 / atomsPerCoin := by norm_num [atomsPerCoin]
        _ ≤ scaled n j / atomsPerCoin := by
          rw [hn]
          gcongr
    rw [hcoins] at hfinite
    have hnear := Binary64.shrink_near (by decide) hlarge hfinite
    rwa [hn] at hnear

/-- Atoms come back from coins. -/
theorem atoms_coins {a : Int64} (ha : a.toInt.natAbs < 2 ^ 51) : atoms (coins a) = .ok a := by
  rcases coins_near (ha.trans (by decide)) with ⟨m, e, hcoins, _, hnear⟩
  have hself : signed (decide (a.toInt < 0)) a.toInt.natAbs = a.toInt := by
    unfold signed
    by_cases hneg : a.toInt < 0
    · simp only [hneg, decide_true, if_true]
      omega
    · simp only [hneg, decide_false, Bool.false_eq_true, if_false]
      omega
  have hrange : -2 ^ 63 ≤ a.toInt ∧ a.toInt < 2 ^ 63 := by omega
  generalize a.toInt.natAbs = size at ha hnear hself
  have hsize : (size : ℚ) < 2 ^ 51 := by exact_mod_cast ha
  have hunit : (atomsPerCoin : ℚ) = 10 ^ 8 := by norm_num [atomsPerCoin]
  -- Multiplied exactly, this is how far the amount is off.
  have hback : |scaled m e * atomsPerCoin - size| ≤ size / 2 ^ 53 := by
    rw [hunit, abs_le] at hnear
    rw [hunit, abs_le]
    constructor <;> linarith
  have hround := Binary64.rounded_scale (a.toInt < 0) m e atomsPerCoin
  have hsmall : scaled m e * atomsPerCoin < 2 ^ (53 : Int) := by
    norm_num
    linarith [(abs_le.mp hback).2]
  have hnonneg : 0 ≤ scaled m e * atomsPerCoin := by
    unfold scaled
    positivity
  rcases hround.exists_finite hnonneg hsmall with ⟨p, k, hproduct, hnearest, hk⟩
  -- The number of atoms is a value, so the product is rounded to none that is farther away.
  have hwhole : roundHalfUp p k = size := by
    have hleast := hnearest.least size 0 (ha.trans (by decide)) (by decide)
    rw [show scaled size 0 = size by simp [scaled], abs_sub_comm (size : ℚ)] at hleast
    have hsum := abs_add_le (scaled p k - scaled m e * atomsPerCoin)
      (scaled m e * atomsPerCoin - size)
    rw [sub_add_sub_cancel] at hsum
    have herror := abs_le.mp (hsum.trans (add_le_add (hleast.trans hback) hback))
    rw [Binary64.roundHalfUp_eq, Nat.floor_eq_iff (by linarith [herror.1, hsize])]
    constructor <;> linarith
  have hatoms := atoms_of_scale_finite hproduct hnearest.bits hk
  rw [hwhole, hself, ← hcoins] at hatoms
  rcases hatoms with ⟨_, _, n, hok, hn⟩ | ⟨hout, _⟩
  · rw [hok, Int64.toInt_inj.mp hn]
  · exact absurd hrange hout

/-! ## Both conversions -/

/-- Atoms survive the conversion to coins, rounded once, and back. An amount in coins has
    atoms exactly if it is finite and the whole number nearest to its rounded product fits
    into 64 bits, and then it has that many. -/
theorem conversion_keeps_amounts :
    (∀ a : Int64, a.toInt.natAbs < 2 ^ 51 →
      Rounded (a.toInt < 0) (a.toInt.natAbs / 10 ^ 8) (coins a) ∧ atoms (coins a) = .ok a) ∧
    (∀ x, x.isFinite = false → atoms x = .error (.notFinite x)) ∧
    (∀ negative m e,
      let x := finite negative m e
      let product := x.scale atomsPerCoin
      Rounded negative (scaled m e * 10 ^ 8) product ∧
      (∀ n, atoms x = .ok n ↔ ∃ p k, product = finite negative p k ∧
        n.toInt = nearestWhole (number negative p k)) ∧
      (∀ why, atoms x = .error why ↔ why = .outOfRange x ∧
        ∀ p k, product = finite negative p k →
          ¬(-2 ^ 63 ≤ nearestWhole (number negative p k) ∧
            nearestWhole (number negative p k) < 2 ^ 63))) := by
  have hunit : (atomsPerCoin : ℚ) = 10 ^ 8 := by norm_num [atomsPerCoin]
  refine ⟨fun a ha => ⟨?_, atoms_coins ha⟩, fun x hx => ?_, fun negative m e => ⟨?_, ?_, ?_⟩⟩
  · rcases coins_near (ha.trans (by decide)) with ⟨_, _, _, hround, _⟩
    rwa [hunit] at hround
  · unfold atoms
    rw [hx]
    rfl
  · rw [← hunit]
    exact Binary64.rounded_scale negative m e atomsPerCoin
  · exact atoms_eq_ok_iff negative m e
  · exact atoms_eq_error_iff negative m e

/-- The greatest amount that is known to come back, one that is owed, and no amount. -/
theorem greatest_amount_kept :
    atoms (coins 2251799813685247) = .ok 2251799813685247 ∧
    atoms (coins (-2100000000000001)) = .ok (-2100000000000001) ∧
    atoms (infinite true) = .error (.notFinite (infinite true)) := by
  rcases conversion_keeps_amounts with ⟨hkept, hnone, _⟩
  exact ⟨(hkept _ (by decide)).2, (hkept _ (by decide)).2, hnone _ rfl⟩

end Amount

end ChainSync
