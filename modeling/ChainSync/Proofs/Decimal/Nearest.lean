import ChainSync.Decimal.Binary64
import ChainSync.Proofs.Float.Rounding

/-!
# Nearest Values

Which binary64 value a fraction is rounded to.

Rounding finds the place of the last bit from the lengths of numerator and denominator,
divides there and looks at the remainder. The rule it has to follow says nothing of
that: among all values of 53 bits the result is nearest to the fraction, of two that are
equally near it is the one with the even mantissa, and a result that needs a greater
exponent than there is becomes an infinity. `rounded_ofRatio` says that it is followed.

The values do not lie on one grid, since they lie closer together below a power of two
than above it. But everything on a finer grid is below the fraction, and the power of
two between the grids is on both of them. So nothing on a finer grid is nearer than that
power of two, which the nearest point of the coarse grid has to beat anyway.

Only magnitudes are compared. Every operation keeps the sign, that of zero included.

## Main definitions

* `Binary64.Nearest`, `Binary64.Rounded`: The rule.
* `Binary64.IsPlace`: The place of the last bit.

## Theorems

* `Binary64.roundHalfEven_near`: Rounding to a whole number.
* `Binary64.isPlace_placeExponent`: The place is found.
* `Binary64.IsPlace.nearest`: What is nearest on the grid of that place is nearest.
* `Binary64.rounded_ofRatio`: Fractions are rounded to the nearest value.
* `Binary64.ofRatio_near`, `Binary64.shrink_near`: So they are changed by the `2 ^ 53`-th
  part at most.
* `Binary64.rounded_scale`, `Binary64.rounded_shrink`: So are products and quotients.
-/

namespace ChainSync

namespace Binary64

open Nearness (scaled scaled_pos scaled_shift)

/-! ## The rule -/

/-- A value of 53 bits that is nearest to `q`, with an even mantissa if another one is as
    near. Its exponent may be greater than those of finite values. -/
structure Nearest (q : ℚ) (m : Nat) (e : Int) : Prop where
  bits : m < 2 ^ 53
  lowest : minExponent ≤ e
  full : 2 ^ 52 ≤ m ∨ e = minExponent
  least : ∀ n k, n < 2 ^ 53 → minExponent ≤ k → |scaled m e - q| ≤ |scaled n k - q|
  even : ∀ n k, n < 2 ^ 53 → minExponent ≤ k → |scaled n k - q| = |scaled m e - q| →
    scaled n k ≠ scaled m e → Even m

/-- What comes of rounding a number of that sign and magnitude. -/
inductive Rounded (negative : Bool) (q : ℚ) : Binary64 → Prop
  /-- There is a nearest value. -/
  | finite {m e} (h : Nearest q m e) (he : e ≤ maxExponent) :
    Rounded negative q (.finite negative m e)
  /-- The exponent is too great. -/
  | infinite {m e} (h : Nearest q m e) (he : maxExponent < e) :
    Rounded negative q (.infinite negative)

/-- A number that is a value itself is kept. -/
theorem Nearest.eq_of_scaled {q : ℚ} {m n : Nat} {e k : Int} (h : Nearest q m e)
    (hn : n < 2 ^ 53) (hk : minExponent ≤ k) (hq : scaled n k = q) : scaled m e = q := by
  have hleast := h.least n k hn hk
  rw [hq, sub_self, abs_zero] at hleast
  exact sub_eq_zero.mp (abs_nonpos_iff.mp hleast)

/-- Zero is a value, so nothing is rounded to more than its double. -/
theorem Nearest.le_two_mul {q : ℚ} {m : Nat} {e : Int} (h : Nearest q m e) (hq : 0 ≤ q) :
    scaled m e ≤ 2 * q := by
  have hleast := h.least 0 minExponent (by decide) le_rfl
  rw [show scaled 0 minExponent = 0 by simp [scaled], zero_sub, abs_neg, abs_of_nonneg hq] at hleast
  linarith [(abs_le.mp hleast).2]

/-- The least of the numbers that are too great. -/
theorem Nearest.le_of_infinite {q : ℚ} {m : Nat} {e : Int} (h : Nearest q m e)
    (he : maxExponent < e) : 2 ^ (1024 : Int) ≤ scaled m e := by
  have hmin : minExponent < maxExponent := by decide
  have hm : (2 : ℚ) ^ (52 : Int) ≤ m := by exact_mod_cast h.full.resolve_right (by omega)
  have hexponent : 972 ≤ e := he
  calc (2 : ℚ) ^ (1024 : Int) = 2 ^ (52 : Int) * 2 ^ (972 : Int) := by
        rw [← zpow_add₀ two_ne_zero]
        rfl
    _ ≤ 2 ^ (52 : Int) * 2 ^ e := by
        gcongr
        norm_num
    _ ≤ scaled m e := mul_le_mul_of_nonneg_right hm (by positivity)

/-- What has a whole part of 53 bits is rounded to a finite value. -/
theorem Rounded.exists_finite {negative : Bool} {q : ℚ} {x : Binary64} (h : Rounded negative q x)
    (hq : 0 ≤ q) (hsmall : q < 2 ^ (53 : Int)) :
    ∃ m e, x = .finite negative m e ∧ Nearest q m e ∧ e ≤ maxExponent := by
  cases h with
  | finite h he => exact ⟨_, _, rfl, h, he⟩
  | infinite h he =>
      exfalso
      have hdouble : (2 : ℚ) * q < 2 ^ (54 : Int) := by
        norm_num at hsmall ⊢
        linarith
      have hlarge : (2 : ℚ) ^ (54 : Int) ≤ 2 ^ (1024 : Int) :=
        zpow_le_zpow_right₀ (by norm_num) (by decide)
      have hle := (h.le_of_infinite he).trans (h.le_two_mul hq)
      exact absurd (hle.trans_lt hdouble) hlarge.not_gt

/-! ## Whole numbers -/

/-- A ratio is rounded by a half at most, and to an even number if it is a half. -/
theorem roundHalfEven_near (num : Nat) {den : Nat} (hden : 0 < den) :
    |(roundHalfEven num den : ℚ) - num / den| ≤ 1 / 2 ∧
      (|(roundHalfEven num den : ℚ) - num / den| = 1 / 2 → Even (roundHalfEven num den)) := by
  have hpos : (0 : ℚ) < den := by exact_mod_cast hden
  obtain ⟨f, hf⟩ : ∃ f : ℚ, f = (num % den : Nat) / den := ⟨_, rfl⟩
  have hratio : (num : ℚ) / den = (num / den : Nat) + f := by
    rw [hf, div_eq_iff hpos.ne', add_mul, div_mul_cancel₀ _ hpos.ne']
    exact_mod_cast (Nat.div_add_mod' num den).symm
  have hf0 : 0 ≤ f := by
    rw [hf]
    positivity
  have hdouble : 2 * f * den = (2 * (num % den) : Nat) := by
    rw [hf]
    push_cast
    field_simp
  have hlt : ∀ {a b : ℚ}, a * den < b * den → a < b := fun h => lt_of_mul_lt_mul_right h hpos.le
  unfold roundHalfEven
  rw [hratio]
  by_cases hbelow : 2 * (num % den) < den
  · have hhalf : 2 * f < 1 := hlt (by rw [hdouble, one_mul]; exact_mod_cast hbelow)
    simp only [if_pos hbelow, sub_add_cancel_left, abs_neg, abs_of_nonneg hf0]
    exact ⟨by linarith, fun h => absurd h (by linarith)⟩
  · have hnext : ((num / den + 1 : Nat) : ℚ) - ((num / den : Nat) + f) = 1 - f := by
      push_cast
      ring
    by_cases habove : den < 2 * (num % den)
    · have hhalf : 1 < 2 * f := hlt (by rw [hdouble, one_mul]; exact_mod_cast habove)
      have hf1 : f < 1 := by
        rw [hf, div_lt_one hpos]
        exact_mod_cast Nat.mod_lt num hden
      simp only [if_neg hbelow, if_pos habove, hnext, abs_of_pos (sub_pos.mpr hf1)]
      exact ⟨by linarith, fun h => absurd h (by linarith)⟩
    · -- Exactly between two whole numbers the even one is taken.
      have hhalf : 2 * f = 1 := by
        refine mul_right_cancel₀ hpos.ne' ?_
        rw [hdouble, one_mul]
        exact_mod_cast (by omega : 2 * (num % den) = den)
      simp only [if_neg hbelow, if_neg habove]
      by_cases heven : num / den % 2 = 0
      · simp only [if_pos heven, sub_add_cancel_left, abs_neg, abs_of_nonneg hf0]
        exact ⟨by linarith, fun _ => Nat.even_iff.mpr heven⟩
      · simp only [if_neg heven, hnext, abs_of_nonneg (show 0 ≤ 1 - f by linarith)]
        exact ⟨by linarith, fun _ => Nat.even_iff.mpr (by omega)⟩

/-- Of whole numbers only the two next to a number are within a half of it. -/
theorem abs_sub_le_of_ne {m k : Nat} {t : ℚ} (h : |(m : ℚ) - t| ≤ 1 / 2) (hk : k ≠ m) :
    1 / 2 ≤ |(k : ℚ) - t| := by
  have hone : (1 : ℚ) ≤ |(k : ℚ) - m| := by
    have hne : (k : Int) - m ≠ 0 := by omega
    exact_mod_cast Int.one_le_abs hne
  have hsum := abs_add_le ((k : ℚ) - t) (t - m)
  rw [sub_add_sub_cancel, abs_sub_comm t] at hsum
  linarith

/-! ## The place of the last bit -/

/-- The exponent of the last of 53 bits, or the smallest one if there are fewer. -/
structure IsPlace (q : ℚ) (e : Int) : Prop where
  lowest : minExponent ≤ e
  below : q < 2 ^ (e + 53)
  above : minExponent < e → 2 ^ (e + 52) ≤ q

theorem shiftLeft_pos {n : Nat} (hn : 0 < n) (k : Nat) : 0 < n <<< k := by
  rw [Nat.shiftLeft_eq]
  positivity

theorem shifted_ratio (num den : Nat) (e : Int) :
    ((num <<< (-e).toNat : Nat) : ℚ) / (den <<< e.toNat : Nat) = num / den / 2 ^ e := by
  rw [Nat.shiftLeft_eq, Nat.shiftLeft_eq]
  push_cast
  rcases Int.le_total 0 e with he | he
  · obtain ⟨n, rfl⟩ := Int.eq_ofNat_of_zero_le he
    rw [show (-(n : Int)).toNat = 0 by omega, Int.toNat_natCast, pow_zero, mul_one, zpow_natCast,
      div_div]
  · obtain ⟨n, hn⟩ := Int.eq_ofNat_of_zero_le (Int.neg_nonneg_of_nonpos he)
    obtain rfl : e = -n := by omega
    rw [neg_neg, Int.toNat_natCast, show (-(n : Int)).toNat = 0 by omega, pow_zero, mul_one,
      zpow_neg, zpow_natCast, div_inv_eq_mul, mul_div_right_comm]

theorem shrunk_ratio (m n : Nat) (e : Int) :
    ((m <<< e.toNat : Nat) : ℚ) / (n <<< (-e).toNat : Nat) = scaled m e / n := by
  have hratio := shifted_ratio m n (-e)
  rwa [neg_neg, zpow_neg, div_inv_eq_mul, div_mul_eq_mul_div] at hratio

theorem shifted_lt_iff (num : Nat) {den : Nat} (hden : 0 < den) (e : Int) :
    num <<< (-e).toNat < den <<< e.toNat ↔ (num : ℚ) / den < 2 ^ e := by
  have hcast : (0 : ℚ) < (den <<< e.toNat : Nat) := by exact_mod_cast shiftLeft_pos hden _
  have hratio := shifted_ratio num den e
  rw [← div_lt_one (show (0 : ℚ) < 2 ^ e by positivity), ← hratio, div_lt_one hcast, Nat.cast_lt]

/-- The lengths of two numbers give the length of their ratio up to one bit. -/
theorem ratio_bounds {num den : Nat} (hnum : 0 < num) (hden : 0 < den) :
    (2 : ℚ) ^ ((num.log2 : Int) - den.log2 - 1) ≤ num / den ∧
      (num : ℚ) / den < 2 ^ ((num.log2 : Int) - den.log2 + 1) := by
  have hpos : (0 : ℚ) < den := by exact_mod_cast hden
  have hself : ∀ {n : Nat}, 0 < n → (2 : ℚ) ^ (n.log2 : Int) ≤ n := by
    intro n hn
    rw [zpow_natCast]
    exact_mod_cast Nat.log2_self_le (by omega)
  have hnext : ∀ {n : Nat}, (n : ℚ) < 2 ^ ((n.log2 : Int) + 1) := by
    intro n
    rw [← Nat.cast_add_one, zpow_natCast]
    exact_mod_cast Nat.lt_log2_self
  rw [le_div_iff₀ hpos, div_lt_iff₀ hpos]
  constructor
  · calc (2 : ℚ) ^ ((num.log2 : Int) - den.log2 - 1) * den
        ≤ 2 ^ ((num.log2 : Int) - den.log2 - 1) * 2 ^ ((den.log2 : Int) + 1) := by
          gcongr
          exact hnext.le
      _ = 2 ^ (num.log2 : Int) := by
          rw [← zpow_add₀ two_ne_zero]
          congr 1
          ring
      _ ≤ num := hself hnum
  · calc (num : ℚ) < 2 ^ ((num.log2 : Int) + 1) := hnext
      _ = 2 ^ ((num.log2 : Int) - den.log2 + 1) * 2 ^ (den.log2 : Int) := by
          rw [← zpow_add₀ two_ne_zero]
          congr 1
          ring
      _ ≤ 2 ^ ((num.log2 : Int) - den.log2 + 1) * den := by
          gcongr
          exact hself hden

theorem isPlace_placeExponent {num den : Nat} (hnum : 0 < num) (hden : 0 < den) :
    IsPlace (num / den) (placeExponent num den) := by
  rcases ratio_bounds hnum hden with ⟨hlow, hhigh⟩
  -- One comparison decides between the two lengths that are left.
  obtain ⟨leading, hplace, hlow, hhigh⟩ : ∃ leading : Int,
      placeExponent num den = max (leading - 52) minExponent ∧
        (2 : ℚ) ^ leading ≤ num / den ∧ (num : ℚ) / den < 2 ^ (leading + 1) := by
    unfold placeExponent
    by_cases hlt : num <<< (-((num.log2 : Int) - den.log2)).toNat <
        den <<< ((num.log2 : Int) - den.log2).toNat
    · refine ⟨(num.log2 : Int) - den.log2 - 1, by simp only [if_pos hlt], hlow, ?_⟩
      rw [sub_add_cancel]
      exact (shifted_lt_iff num hden _).mp hlt
    · refine ⟨(num.log2 : Int) - den.log2, by simp only [if_neg hlt], ?_, hhigh⟩
      exact not_lt.mp fun h => hlt ((shifted_lt_iff num hden _).mpr h)
  rw [hplace]
  refine ⟨le_max_right _ _, hhigh.trans_le ?_, fun hlong => ?_⟩
  · exact zpow_le_zpow_right₀ (by norm_num) (by omega)
  · rwa [show max (leading - 52) minExponent + 52 = leading by omega]

/-! ## Rounding -/

variable {q : ℚ} {m : Nat} {e : Int}

theorem scaled_sub (n : Nat) (e : Int) (q : ℚ) :
    |scaled n e - q| = |(n : ℚ) - q / 2 ^ e| * 2 ^ e := by
  have hpos : (0 : ℚ) < 2 ^ e := by positivity
  rw [← abs_of_pos hpos, ← abs_mul, sub_mul, abs_of_pos hpos, div_mul_cancel₀ _ hpos.ne']
  rfl

/-- What is nearest on the grid of the last place is nearest among all values. -/
theorem IsPlace.nearest (hplace : IsPlace q e) (hnear : |(m : ℚ) - q / 2 ^ e| ≤ 1 / 2)
    (htie : |(m : ℚ) - q / 2 ^ e| = 1 / 2 → Even m) {n : Nat} {k : Int} (hn : n < 2 ^ 53)
    (hk : minExponent ≤ k) : |scaled m e - q| ≤ |scaled n k - q| ∧
      (|scaled n k - q| = |scaled m e - q| → scaled n k ≠ scaled m e → Even m) := by
  have hpos : (0 : ℚ) < 2 ^ e := by positivity
  have hgrid : ∀ j : Nat, j ≠ m → |scaled m e - q| ≤ |scaled j e - q| := by
    intro j hj
    rw [scaled_sub, scaled_sub]
    exact mul_le_mul_of_nonneg_right (hnear.trans (abs_sub_le_of_ne hnear hj)) hpos.le
  by_cases hcoarse : e ≤ k
  · -- The other value lies on the same grid.
    have hsame : scaled n k = scaled (n * 2 ^ (k - e).toNat) e := by
      rw [scaled_shift]
      congr 1
      omega
    rw [hsame]
    generalize n * 2 ^ (k - e).toNat = j
    by_cases hj : j = m
    · rw [hj]
      exact ⟨le_rfl, fun _ hne => absurd rfl hne⟩
    · refine ⟨hgrid j hj, fun heq _ => htie (le_antisymm hnear ?_)⟩
      rw [scaled_sub, scaled_sub] at heq
      rw [← mul_right_cancel₀ hpos.ne' heq]
      exact abs_sub_le_of_ne hnear hj
  · -- The other value is below the power of two where the grid begins.
    have hpower : scaled (2 ^ 52) e = 2 ^ (e + 52) := by
      unfold scaled
      rw [zpow_add₀ two_ne_zero]
      push_cast
      ring
    have hfraction : scaled (2 ^ 52) e ≤ q := hpower ▸ hplace.above (by omega)
    have hbelow : scaled n k < scaled (2 ^ 52) e := by
      have hn' : (n : ℚ) < 2 ^ 53 := by exact_mod_cast hn
      calc scaled n k < 2 ^ 53 * 2 ^ k := mul_lt_mul_of_pos_right hn' (by positivity)
        _ = 2 ^ (k + 53) := by
          rw [zpow_add₀ two_ne_zero]
          push_cast
          ring
        _ ≤ 2 ^ (e + 52) := zpow_le_zpow_right₀ (by norm_num) (by omega)
        _ = scaled (2 ^ 52) e := hpower.symm
    have hstrict : |scaled m e - q| < |scaled n k - q| := by
      refine lt_of_le_of_lt (b := |scaled (2 ^ 52) e - q|) ?_ ?_
      · by_cases hm : 2 ^ 52 = m
        · rw [hm]
        · exact hgrid _ hm
      · rw [abs_of_nonpos (by linarith), abs_of_neg (by linarith)]
        linarith
    exact ⟨hstrict.le, fun heq _ => absurd heq hstrict.ne'⟩

/-- A mantissa rounded at the last place has 53 bits, or all of them were set and it was
    rounded up. -/
theorem IsPlace.bits (hplace : IsPlace q e) (hnear : |(m : ℚ) - q / 2 ^ e| ≤ 1 / 2) :
    m ≤ 2 ^ 53 ∧ (2 ^ 52 ≤ m ∨ e = minExponent) := by
  have hpos : (0 : ℚ) < 2 ^ e := by positivity
  rcases abs_le.mp hnear with ⟨hlow, hhigh⟩
  constructor
  · have hbelow := hplace.below
    rw [zpow_add₀ two_ne_zero, mul_comm, ← div_lt_iff₀ hpos] at hbelow
    have hq : q / 2 ^ e < 2 ^ 53 := by exact_mod_cast hbelow
    have hm : (m : ℚ) < 2 ^ 53 + 1 := by linarith
    exact Nat.lt_succ_iff.mp (by exact_mod_cast hm)
  · refine or_iff_not_imp_right.mpr fun hne => ?_
    have habove := hplace.above (lt_of_le_of_ne hplace.lowest (Ne.symm hne))
    rw [zpow_add₀ two_ne_zero, mul_comm, ← le_div_iff₀ hpos] at habove
    have hq : 2 ^ 52 ≤ q / 2 ^ e := by exact_mod_cast habove
    have hm : (2 ^ 52 : ℚ) < m + 1 := by linarith
    exact Nat.lt_succ_iff.mp (by exact_mod_cast hm)

theorem IsPlace.nearest_of_lt (hplace : IsPlace q e) (hnear : |(m : ℚ) - q / 2 ^ e| ≤ 1 / 2)
    (htie : |(m : ℚ) - q / 2 ^ e| = 1 / 2 → Even m) (hm : m < 2 ^ 53) : Nearest q m e where
  bits := hm
  lowest := hplace.lowest
  full := (hplace.bits hnear).2
  least _ _ hn hk := (hplace.nearest hnear htie hn hk).1
  even _ _ hn hk := (hplace.nearest hnear htie hn hk).2

/-- A mantissa of 54 bits that comes of rounding is a power of two, which needs one bit only. -/
theorem scaled_carry (e : Int) : scaled leadingBit (e + 1) = scaled (2 * leadingBit) e := by
  rw [Nat.mul_comm, ← pow_one 2, scaled_shift]
  rfl

theorem IsPlace.nearest_of_carry (hplace : IsPlace q e)
    (hnear : |((2 * leadingBit : Nat) : ℚ) - q / 2 ^ e| ≤ 1 / 2) :
    Nearest q leadingBit (e + 1) where
  bits := by decide
  lowest := hplace.lowest.trans (by omega)
  full := .inl (by decide)
  least _ _ hn hk := by
    rw [scaled_carry]
    exact (hplace.nearest hnear (fun _ => by decide) hn hk).1
  even _ _ _ _ _ _ := by decide

/-- Rounding at the last place gives the nearest value, within half a unit. -/
theorem ofRatio_eq (negative : Bool) {num den : Nat} (hnum : 0 < num) (hden : 0 < den) :
    ∃ m e, Nearest (num / den) m e ∧
      |scaled m e - num / den| ≤ 2 ^ placeExponent num den / 2 ∧
      ofRatio negative num den =
        if maxExponent < e then .infinite negative else .finite negative m e := by
  have hplace := isPlace_placeExponent hnum hden
  have hround := roundHalfEven_near (num <<< (-placeExponent num den).toNat)
    (shiftLeft_pos hden (placeExponent num den).toNat)
  rw [shifted_ratio] at hround
  unfold ofRatio
  rw [if_neg (by omega)]
  simp only
  generalize roundHalfEven (num <<< (-placeExponent num den).toNat)
    (den <<< (placeExponent num den).toNat) = r at hround
  generalize placeExponent num den = e at hround hplace
  generalize (num : ℚ) / den = q at hround hplace
  rcases hround with ⟨hnear, htie⟩
  have herror : |scaled r e - q| ≤ 2 ^ e / 2 := by
    rw [scaled_sub]
    linarith [mul_le_mul_of_nonneg_right hnear (show (0 : ℚ) ≤ 2 ^ e by positivity)]
  by_cases hcarry : r = 2 * leadingBit
  · rw [if_pos hcarry]
    refine ⟨leadingBit, e + 1, hplace.nearest_of_carry (hcarry ▸ hnear), ?_, rfl⟩
    rwa [scaled_carry, ← hcarry]
  · rw [if_neg hcarry]
    have hlt : r < 2 ^ 53 := lt_of_le_of_ne (hplace.bits hnear).1 hcarry
    exact ⟨r, e, hplace.nearest_of_lt hnear htie hlt, herror, rfl⟩

/-- Fractions are rounded to the nearest value. -/
theorem rounded_ofRatio (negative : Bool) (num : Nat) {den : Nat} (hden : 0 < den) :
    Rounded negative (num / den) (ofRatio negative num den) := by
  rcases Nat.eq_zero_or_pos num with rfl | hnum
  · have hzero : scaled 0 minExponent = 0 := by
      unfold scaled
      rw [Nat.cast_zero, zero_mul]
    have hnearest : Nearest ((0 : Nat) / den : ℚ) 0 minExponent := by
      rw [Nat.cast_zero, zero_div]
      refine ⟨by decide, le_rfl, .inr rfl, ?_, fun _ _ _ _ _ _ => Even.zero⟩
      intro n k _ _
      rw [hzero, sub_self, abs_zero]
      exact abs_nonneg _
    exact .finite hnearest (by decide)
  · rcases ofRatio_eq negative hnum hden with ⟨m, e, hnearest, _, heq⟩
    rw [heq]
    by_cases htop : maxExponent < e
    · rw [if_pos htop]
      exact .infinite hnearest htop
    · rw [if_neg htop]
      exact .finite hnearest (not_lt.mp htop)

/-- A fraction with 53 bits is changed by its `2 ^ 53`-th part at most. -/
theorem ofRatio_near {negative : Bool} {num den : Nat} (hden : 0 < den)
    (hlarge : (2 : ℚ) ^ (-1022 : Int) ≤ num / den)
    (h : ofRatio negative num den = .finite negative m e) :
    |scaled m e - num / den| ≤ num / den / 2 ^ 53 := by
  have hpos : (0 : ℚ) < num / den := lt_of_lt_of_le (by positivity) hlarge
  have hnum : 0 < num := Nat.pos_of_ne_zero fun hzero => by
    rw [hzero, Nat.cast_zero, zero_div] at hpos
    exact hpos.false
  have hplace := isPlace_placeExponent hnum hden
  rcases ofRatio_eq negative hnum hden with ⟨m', e', _, herror, heq⟩
  rw [heq] at h
  by_cases htop : maxExponent < e'
  · rw [if_pos htop] at h
    exact absurd h (by simp)
  · rw [if_neg htop] at h
    injection h with _ hm he
    subst hm he
    refine herror.trans ?_
    have hunit : (2 : ℚ) ^ (placeExponent num den + 52) ≤ num / den := by
      rcases lt_or_eq_of_le hplace.lowest with hlong | hshort
      · exact hplace.above hlong
      · rw [← hshort]
        exact hlarge
    rw [zpow_add₀ two_ne_zero] at hunit
    rw [le_div_iff₀ (by positivity)]
    calc (2 : ℚ) ^ placeExponent num den / 2 * 2 ^ 53
        = 2 ^ placeExponent num den * 2 ^ (52 : Int) := by
          push_cast
          ring
      _ ≤ num / den := hunit

/-! ## Operations -/

theorem rounded_scale (negative : Bool) (m : Nat) (e : Int) (n : Nat) :
    Rounded negative (scaled m e * n) ((finite negative m e).scale n) := by
  have hratio := shifted_ratio (m * n) 1 (-e)
  rw [neg_neg, Nat.cast_one, div_one, zpow_neg, div_inv_eq_mul, Nat.cast_mul,
    mul_right_comm] at hratio
  have hround := rounded_ofRatio negative ((m * n) <<< e.toNat)
    (shiftLeft_pos Nat.one_pos (-e).toNat)
  rw [hratio] at hround
  exact hround

theorem rounded_shrink (negative : Bool) (m : Nat) (e : Int) {n : Nat} (hn : 0 < n) :
    Rounded negative (scaled m e / n) ((finite negative m e).shrink n) := by
  have hround := rounded_ofRatio negative (m <<< e.toNat) (shiftLeft_pos hn (-e).toNat)
  rw [shrunk_ratio] at hround
  exact hround

/-- A quotient that is not too small is off by its `2 ^ 53`-th part at most. -/
theorem shrink_near {negative : Bool} {m p : Nat} {e k : Int} {n : Nat} (hn : 0 < n)
    (hlarge : (2 : ℚ) ^ (-1022 : Int) ≤ scaled m e / n)
    (h : (finite negative m e).shrink n = finite negative p k) :
    |scaled p k - scaled m e / n| ≤ scaled m e / n / 2 ^ 53 := by
  rw [← shrunk_ratio] at hlarge ⊢
  exact ofRatio_near (shiftLeft_pos hn _) hlarge h

end Binary64

end ChainSync
