import ChainSync.Proofs.Float.Rounding

/-!
# Nearness

What a chain of floating point operations comes to.

An exact result of an operation is rounded (`ChainSync.Proofs.Float.Rounding`) and
packed into 64 bits. Packing keeps every value whose exponent fits and turns all
greater ones into infinity, so an operation either ends close to the exact result
or its exact result was far too great (`Gives`).

Two ways of speaking about results are built on that. `Near k x q` says that the
value of `x` differs from `q` by the `2 ^ k`-th part at most. An operation on two
such values costs three bits of `k`, which is more than it really does, but there
are bits to spare: ten operations in a row are never needed here. `AtLeast k x`
is only a lower bound. It holds of infinity too, so it needs no bound from above,
and it is what shows that something is not zero.

## Main definitions

* `Holds`: The value of a float.
* `Gives`: What comes of an operation whose exact result is known.
* `Near`: A float whose value is close to a number.
* `AtLeast`: A float that is infinite or has a value not below a number.

## Theorems

* `unpack_pack_of_le`, `unpack_pack_of_lt`: What packing keeps.
* `holds_lt_iff`: Floats are compared by their values.
* `Near.add`, `Near.mul`, `Near.div`: Operations on floats close to numbers.
* `near_ofNat`: Whole numbers.
* `AtLeast.add`, `AtLeast.mul`, `AtLeast.div`: Operations on lower bounds.
-/

namespace ChainSync

namespace Nearness

open Float.Model Float.Model.UnpackedFloat

/-! ## What packing keeps -/

theorem toNat_append_one {n : Nat} (m : BitVec n) : (1#1 ++ m).toNat = 2 ^ n + m.toNat := by
  rw [BitVec.toNat_append, ← Nat.shiftLeft_add_eq_or_of_lt m.isLt, Nat.shiftLeft_eq]
  simp

theorem unpackSign_packComponents {spec : Format} {sign exponent mantissa} :
    unpackSign (packComponents spec sign exponent mantissa) = sign.toBitVec := by
  ext i hi
  obtain rfl : i = 0 := by omega
  simp [unpackSign, packComponents, BitVec.getLsbD_append, BitVec.getElem_append]

theorem unpack_infinity : (Float.Model.pack (.infinity .positive)).unpack = .infinity .positive :=
  rfl

theorem unpack_pack_of_le {m : Nat} {e : Int} (hm : 2 ^ 52 ≤ m) (hm' : m < 2 ^ 53)
    (he : -1074 ≤ e) (he' : e ≤ 971) :
    (Float.Model.pack (.finite .positive m e (by omega))).unpack =
      .finite .positive m e (by omega) := by
  have hlog : m.log2 + 1 = 53 := by
    rw [(Nat.log2_eq_iff (by omega)).mpr ⟨hm, hm'⟩]
  set b := (e + 1023 + 52).toNat with hb
  have hpack : UnpackedFloat.pack Format.binary64 (.finite .positive m e (by omega)) =
      packComponents Format.binary64 .positive (BitVec.ofNat 11 b) (BitVec.ofNat 52 m) := by
    change (if 2 ^ 11 ≤ b + 1 then _ else if m.log2 + 1 = 53 then _ else _) = _
    rw [if_neg (by omega), if_pos hlog]
    rfl
  -- Both ends of the range of exponents stand for something else.
  have hexponent : (BitVec.ofNat 11 b).toNat = b := Nat.mod_eq_of_lt (by omega)
  have hne : ∀ n < 2 ^ 11, b ≠ n → BitVec.ofNat 11 b ≠ BitVec.ofNat 11 n := by
    intro n hn hbn h
    have htoNat := congrArg BitVec.toNat h
    rw [hexponent, BitVec.toNat_ofNat, Nat.mod_eq_of_lt hn] at htoNat
    exact hbn htoNat
  have hmantissa : (1#1 ++ BitVec.ofNat 52 m).toNat = m := by
    rw [toNat_append_one, BitVec.toNat_ofNat]
    omega
  unfold Float.Model.pack Float.Model.unpack UnpackedFloat.unpack
  simp only [hpack, unpackExponent_packComponents, unpackMantissa_packComponents,
    unpackSign_packComponents]
  rw [show (-1#11) = BitVec.ofNat 11 2047 by decide,
    if_neg (hne 2047 (by decide) (by omega)), if_neg (hne 0 (by decide) (by omega))]
  simp only [hmantissa, hexponent]
  congr 1
  change (b : Int) - (1023 + 52) = e
  omega

theorem unpack_pack_of_lt {m : Nat} {e : Int} {hm : 0 < m} (he : 971 < e) :
    (Float.Model.pack (.finite .positive m e hm)).unpack = .infinity .positive := by
  have hbig : 2 ^ 11 ≤ (e + 1023 + 52).toNat + 1 := by omega
  have hpack : UnpackedFloat.pack Format.binary64 (.finite .positive m e hm) =
      packedInfinity Format.binary64 .positive := if_pos hbig
  unfold Float.Model.pack Float.Model.unpack
  simp only [hpack]
  rfl

/-! ## Values -/

/-- A positive number with 53 bits has a value. -/
def Holds (x : Float) (v : ℚ) : Prop :=
  ∃ m e hm, x.toModel.unpack = .finite .positive m e hm ∧ 2 ^ 52 ≤ m ∧ -1074 ≤ e ∧ e ≤ 971 ∧
    scaled m e = v

/-- Positive infinity. -/
def IsTop (x : Float) : Prop := x.toModel.unpack = .infinity .positive

/-- What comes of an operation whose exact result is known. -/
inductive Gives (x : Float) (v : ℚ) : Prop
  /-- The result is too great. -/
  | top (h : IsTop x) (hv : 2 ^ (1000 : Int) < v)
  /-- The result is rounded by one unit at most. -/
  | near (w : ℚ) (h : Holds x w) (hw : |w - v| ≤ v / 2 ^ 52)

theorem Holds.pos {x : Float} {v : ℚ} (h : Holds x v) : 0 < v := by
  rcases h with ⟨m, e, hm, _, _, _, _, rfl⟩
  exact scaled_pos hm e

theorem le_two_mul {v w : ℚ} (h : |w - v| ≤ v / 2 ^ 52) : w ≤ 2 * v := by
  have hv := (abs_nonneg _).trans h
  have hw := (abs_le.mp h).2
  linarith

theorem Rounds.gives {u : UnpackedFloat} {v : ℚ} (h : Rounds u v) :
    Gives ⟨Float.Model.pack u⟩ v := by
  rcases h with ⟨m, e, hm, rfl, hmin, hmax, he, hv⟩
  by_cases hfits : e ≤ 971
  · exact .near _ ⟨m, e, hm, unpack_pack_of_le hmin hmax he hfits, hmin, he, hfits, rfl⟩ hv
  · refine .top (unpack_pack_of_lt (by omega)) (lt_of_not_ge fun hle => ?_)
    -- A mantissa of 53 bits with so great an exponent is far beyond.
    have hhigh : scaled m e ≤ 2 ^ (1 + 1000 : Int) := by
      rw [zpow_one_add₀ two_ne_zero]
      exact (le_two_mul hv).trans (mul_le_mul_of_nonneg_left hle (by norm_num))
    have hlow : (2 : ℚ) ^ (52 + e) ≤ scaled m e := by
      have hm' : (2 : ℚ) ^ (52 : Int) ≤ m := by exact_mod_cast hmin
      rw [zpow_add₀ two_ne_zero]
      exact mul_le_mul_of_nonneg_right hm' (by positivity)
    have hexponent := (zpow_le_zpow_iff_right₀ (by norm_num)).mp (hlow.trans hhigh)
    omega

variable {x y : Float} {p q v w : ℚ}

theorem gives_mul (hx : Holds x p) (hy : Holds y q) (h : 2 ^ (-1000 : Int) ≤ p * q) :
    Gives (x * y) (p * q) := by
  rcases hx with ⟨m, e, hm, hx, hmin, _, _, rfl⟩
  rcases hy with ⟨n, k, hn, hy, _, _, _, rfl⟩
  have hrounds := rounds_mul hmin hn h
  rw [← hx, ← hy] at hrounds
  exact hrounds.gives

theorem gives_div (hx : Holds x p) (hy : Holds y q) (h : 2 ^ (-1000 : Int) ≤ p / q) :
    Gives (x / y) (p / q) := by
  rcases hx with ⟨m, e, hm, hx, hmin, _, _, rfl⟩
  rcases hy with ⟨n, k, hn, hy, hmin', _, _, rfl⟩
  have hrounds := rounds_div hmin (mantissa_lt hx) hmin' (mantissa_lt hy) h
  rw [← hx, ← hy] at hrounds
  exact hrounds.gives

theorem gives_add (hx : Holds x p) (hy : Holds y q) (h : 2 ^ (-1000 : Int) ≤ p + q) :
    Gives (x + y) (p + q) := by
  rcases hx with ⟨m, e, hm, hx, _, _, _, rfl⟩
  rcases hy with ⟨n, k, hn, hy, _, _, _, rfl⟩
  have hrounds := rounds_add hm hn h
  rw [← hx, ← hy] at hrounds
  exact hrounds.gives

theorem holds_lt_iff (hx : Holds x p) (hy : Holds y q) : x < y ↔ p < q := by
  rcases hx with ⟨m, e, hm, hx, hmin, _, _, rfl⟩
  rcases hy with ⟨n, k, hn, hy, hmin', _, _, rfl⟩
  have hmax := mantissa_lt hx
  have hmax' := mantissa_lt hy
  rw [lt_iff_compare, hx, hy]
  -- A smaller exponent makes up for any mantissa, since both have 53 bits.
  have hexponent : ∀ {m n : Nat} {e k : Int}, m < 2 ^ 53 → 2 ^ 52 ≤ n → e < k →
      scaled m e < scaled n k := by
    intro m n e k hm hn hek
    have hm' : (m : ℚ) < 2 ^ 53 := by exact_mod_cast hm
    have hn' : (2 : ℚ) ^ 52 ≤ n := by exact_mod_cast hn
    calc (m : ℚ) * 2 ^ e < 2 ^ 53 * 2 ^ e := by gcongr
      _ = 2 ^ 52 * 2 ^ (e + 1) := by rw [zpow_add₀ (by norm_num)]; ring
      _ ≤ n * 2 ^ k := by
        gcongr
        · norm_num
        · omega
  simp only [UnpackedFloat.compare, Option.some.injEq, Ordering.then_eq_lt, Int.compare_eq_lt,
    Int.compare_eq_eq, Nat.compare_eq_lt]
  rcases lt_trichotomy e k with hek | rfl | hek
  · exact iff_of_true (.inl hek) (hexponent hmax hmin' hek)
  · unfold scaled
    rw [mul_lt_mul_iff_left₀ (by positivity), Nat.cast_lt]
    omega
  · exact iff_of_false (by omega) (hexponent hmax' hmin hek).not_gt

/-! ## Nearness -/

/-- A float whose value differs from `q` by the `2 ^ k`-th part of it at most. -/
def Near (k : Nat) (x : Float) (q : ℚ) : Prop := ∃ v, Holds x v ∧ |v - q| ≤ q / 2 ^ k

/-- Neither very small nor very great. -/
def Moderate (q : ℚ) : Prop := 1 / 2 ^ 200 ≤ q ∧ q ≤ 2 ^ 200

theorem Moderate.pos (h : Moderate q) : 0 < q := lt_of_lt_of_le (by positivity) h.1

theorem Near.mono {k l : Nat} (h : Near l x q) (hkl : k ≤ l) : Near k x q := by
  rcases h with ⟨v, hx, hv⟩
  refine ⟨v, hx, hv.trans ?_⟩
  have hq : 0 ≤ q / 2 ^ l := (abs_nonneg _).trans hv
  have hq' : 0 ≤ q := by
    have := mul_nonneg hq (show (0 : ℚ) ≤ 2 ^ l by positivity)
    rwa [div_mul_cancel₀ _ (by positivity)] at this
  gcongr
  norm_num

/-- An exact result that is itself only near may be rounded, at the cost of three bits. -/
theorem near_of_gives {k : Nat} (hk : k ≤ 49) (hq : Moderate q)
    (hv : |v - q| ≤ 3 * (q / 2 ^ (k + 3))) (h : 2 ^ (-1000 : Int) ≤ v → Gives x v) :
    Near k x q := by
  have hpos := hq.pos
  obtain ⟨d, hd⟩ : ∃ d : ℚ, d = q / 2 ^ (k + 3) := ⟨_, rfl⟩
  have hunit : q / 2 ^ k = 8 * d := by
    rw [hd, pow_add]
    field_simp
    norm_num
  have hd' : 8 * d ≤ q := hunit ▸ div_le_self hpos.le (one_le_pow₀ (by norm_num))
  have hulp : q / 2 ^ 52 ≤ d := by
    rw [hd]
    gcongr
    · norm_num
    · omega
  rw [← hd, abs_le] at hv
  have hdouble : v ≤ 2 * q := by linarith
  have hlow : (2 : ℚ) ^ (-1000 : Int) ≤ v :=
    calc (2 : ℚ) ^ (-1000 : Int) ≤ 2 ^ (-201 : Int) := zpow_le_zpow_right₀ (by norm_num) (by decide)
      _ = 1 / 2 ^ 200 / 2 := by norm_num
      _ ≤ v := by linarith [hq.1]
  rcases h hlow with ⟨_, htop⟩ | ⟨w, hw, hround⟩
  · refine absurd htop (not_lt.mpr ?_)
    calc v ≤ 2 * 2 ^ 200 := hdouble.trans (mul_le_mul_of_nonneg_left hq.2 (by norm_num))
      _ = 2 ^ (201 : Int) := by norm_num
      _ ≤ 2 ^ (1000 : Int) := zpow_le_zpow_right₀ (by norm_num) (by decide)
  · refine ⟨w, hw, ?_⟩
    rw [hunit]
    rw [abs_le] at hround ⊢
    constructor <;> linarith

theorem Near.pos {k : Nat} (h : Near k x q) : 0 < q := by
  rcases h with ⟨v, hx, hv⟩
  have hv' := (abs_le.mp hv).2
  have hone : (0 : ℚ) < 1 + 1 / 2 ^ k := by positivity
  have hle : v ≤ q * (1 + 1 / 2 ^ k) := by
    rw [mul_add, mul_one_div]
    linarith
  exact pos_of_mul_pos_left (hx.pos.trans_le hle) hone.le

/-- What differs from a value by a part of it is the value with a factor close to one. -/
theorem exists_factor {a d : ℚ} (hp : 0 < p) (h : |a - p| ≤ p * d) :
    ∃ r, |r| ≤ d ∧ a = p * (1 + r) := by
  refine ⟨(a - p) / p, ?_, by field_simp; ring⟩
  rw [abs_div, abs_of_pos hp, div_le_iff₀ hp, mul_comm]
  exact h

section

variable {k : Nat}

theorem Near.add (hk : k ≤ 49) (hx : Near (k + 3) x p) (hy : Near (k + 3) y q)
    (h : Moderate (p + q)) : Near k (x + y) (p + q) := by
  rcases hx with ⟨a, hx, ha⟩
  rcases hy with ⟨b, hy, hb⟩
  refine near_of_gives hk h ?_ (gives_add hx hy)
  rw [add_div]
  have hsum := abs_add_le (a - p) (b - q)
  rw [show a - p + (b - q) = a + b - (p + q) by ring] at hsum
  have ha' := (abs_nonneg _).trans ha
  have hb' := (abs_nonneg _).trans hb
  linarith

theorem Near.mul (hk : k ≤ 49) (hx : Near (k + 3) x p) (hy : Near (k + 3) y q)
    (h : Moderate (p * q)) : Near k (x * y) (p * q) := by
  have hp := hx.pos
  have hq := hy.pos
  rcases hx with ⟨a, hx, ha⟩
  rcases hy with ⟨b, hy, hb⟩
  refine near_of_gives hk h ?_ (gives_mul hx hy)
  rw [div_eq_mul_inv] at ha hb ⊢
  have hd : ((2 : ℚ) ^ (k + 3))⁻¹ ≤ 1 / 8 := by
    rw [one_div]
    gcongr
    rw [pow_add]
    linarith [one_le_pow₀ (show (1 : ℚ) ≤ 2 by norm_num) (n := k)]
  generalize ((2 : ℚ) ^ (k + 3))⁻¹ = d at ha hb hd ⊢
  rcases exists_factor hp ha with ⟨r, hr, rfl⟩
  rcases exists_factor hq hb with ⟨s, hs, rfl⟩
  have hrs : |r * s| ≤ d / 8 := by
    rw [abs_mul]
    nlinarith [abs_nonneg r, abs_nonneg s]
  have hfactor : |r + s + r * s| ≤ 3 * d := by
    linarith [abs_add_le (r + s) (r * s), abs_add_le r s, abs_nonneg r]
  rw [show p * (1 + r) * (q * (1 + s)) - p * q = p * q * (r + s + r * s) by ring, abs_mul,
    abs_of_pos (mul_pos hp hq)]
  linarith [mul_le_mul_of_nonneg_left hfactor (mul_pos hp hq).le]

theorem Near.div (hk : k ≤ 49) (hx : Near (k + 3) x p) (hy : Near (k + 3) y q)
    (h : Moderate (p / q)) : Near k (x / y) (p / q) := by
  have hp := hx.pos
  have hq := hy.pos
  rcases hx with ⟨a, hx, ha⟩
  rcases hy with ⟨b, hy, hb⟩
  refine near_of_gives hk h ?_ (gives_div hx hy)
  rw [div_eq_mul_inv _ (2 ^ (k + 3))] at ha hb ⊢
  have hd : ((2 : ℚ) ^ (k + 3))⁻¹ ≤ 1 / 8 := by
    rw [one_div]
    gcongr
    rw [pow_add]
    linarith [one_le_pow₀ (show (1 : ℚ) ≤ 2 by norm_num) (n := k)]
  generalize ((2 : ℚ) ^ (k + 3))⁻¹ = d at ha hb hd ⊢
  rcases exists_factor hp ha with ⟨r, hr, rfl⟩
  rcases exists_factor hq hb with ⟨s, hs, rfl⟩
  have hone : 7 / 8 ≤ 1 + s := by linarith [neg_le_of_abs_le hs]
  have hfactor : |(r - s) / (1 + s)| ≤ 3 * d := by
    rw [abs_div, abs_of_pos (by linarith : 0 < 1 + s), div_le_iff₀ (by linarith)]
    have hd0 := (abs_nonneg r).trans hr
    nlinarith [abs_sub r s]
  have hratio : p * (1 + r) / (q * (1 + s)) - p / q = p / q * ((r - s) / (1 + s)) := by
    have : 1 + s ≠ 0 := by linarith
    field_simp
    ring
  rw [hratio, abs_mul, abs_of_pos (div_pos hp hq)]
  linarith [mul_le_mul_of_nonneg_left hfactor (div_pos hp hq).le]

end

theorem Holds.near {k : Nat} (h : Holds x v) : Near k x v := by
  refine ⟨v, h, ?_⟩
  have hv := h.pos
  rw [sub_self, abs_zero]
  positivity

/-! ## Whole numbers -/

theorem holds_one : Holds 1.0 1 :=
  ⟨2 ^ 52, -52, by decide, rfl, by decide, by decide, by decide, by norm_num [scaled]⟩

theorem Moderate.ofNat {n : Nat} (hn : 0 < n) (hmax : n ≤ 2 ^ 200) : Moderate (n : ℚ) := by
  refine ⟨?_, by exact_mod_cast hmax⟩
  have hone : (1 : ℚ) ≤ n := by exact_mod_cast hn
  refine le_trans ?_ hone
  norm_num

/-- Short numbers are looked up, all others are multiplied out. -/
theorem ofNat_of_lt {n : Nat} (h : n < 2 ^ 53) : Float.ofNat n = n.toUInt64.toFloat * 1.0 := by
  change Float.ofScientific n false 0 = _
  unfold Float.ofScientific
  rw [dif_pos ⟨h, by decide⟩]
  rfl

theorem ofNat_of_not_lt {n : Nat} (h : ¬n < 2 ^ 53) :
    Float.ofNat n = ⟨Float.Model.ofScientific n 0⟩ := by
  change Float.ofScientific n false 0 = _
  unfold Float.ofScientific
  rw [dif_neg fun hshort => h hshort.1]
  rfl

theorem near_toFloat {n : Nat} (hn : 0 < n) (h : n < 2 ^ 53) : Near 49 n.toUInt64.toFloat n := by
  have hcast : n.toUInt64.toNat = n := UInt64.toNat_ofNat_of_lt' (h.trans (by decide))
  have hrounds := rounds_ofNat hn
  have hunpack : UnpackedFloat.ofNat Format.binary64 n =
      UnpackedFloat.ofUInt64 Format.binary64 n.toUInt64 := by
    rw [UnpackedFloat.ofUInt64, hcast]
  rw [hunpack] at hrounds
  refine near_of_gives le_rfl (.ofNat hn (h.le.trans (by decide))) ?_ fun _ => hrounds.gives
  rw [sub_self, abs_zero]
  positivity

theorem gives_ofScientific {n : Nat} (hn : 0 < n) : Gives ⟨Float.Model.ofScientific n 0⟩ n := by
  have hshift : 2 ^ 52 ≤ n <<< 53 := by
    rw [Nat.shiftLeft_eq]
    omega
  have hvalue : scaled (n <<< 53) (-53) * scaled 1 0 = n := by
    rw [Nat.shiftLeft_eq, scaled_shift]
    simp [scaled]
  have hone : (1 : ℚ) ≤ n := by exact_mod_cast hn
  have hrounds := rounds_mul (e := -53) (k := 0) hshift one_pos (by
    rw [hvalue]
    exact (zpow_le_one_of_nonpos₀ (by norm_num) (by norm_num)).trans hone)
  rw [hvalue] at hrounds
  have heq : UnpackedFloat.ofScientific Format.binary64 n 0 =
      UnpackedFloat.mul Format.binary64 (.finite .positive (n <<< 53) (-53) (by omega))
        (.finite .positive 1 0 one_pos) := by
    have hrange : (0 : Int) ≤ 2 ^ Format.binary64.exponentBits := by decide
    unfold UnpackedFloat.ofScientific
    rw [dif_neg hn.ne', if_neg (by decide), if_neg (by omega), if_pos le_rfl]
    rfl
  rw [← heq] at hrounds
  exact hrounds.gives

theorem near_ofNat {n : Nat} (hn : 0 < n) (hmax : n ≤ 2 ^ 200) : Near 46 (Float.ofNat n) n := by
  have hmoderate := Moderate.ofNat hn hmax
  by_cases h : n < 2 ^ 53
  · rw [ofNat_of_lt h, ← mul_one (n : ℚ)]
    exact (near_toFloat hn h).mul (by decide) holds_one.near (by rwa [mul_one])
  · rw [ofNat_of_not_lt h]
    refine (near_of_gives (k := 49) le_rfl hmoderate ?_ fun _ => gives_ofScientific hn).mono
      (by decide)
    rw [sub_self, abs_zero]
    positivity

/-! ## Lower bounds -/

/-- A float that is infinite, or whose value is not below the `2 ^ k`-th part of one. -/
inductive AtLeast (k : Nat) (x : Float) : Prop
  | top (h : IsTop x)
  | value (v : ℚ) (h : Holds x v) (hv : 1 / 2 ^ k ≤ v)

/-- A float that is zero or positive. -/
inductive NonNeg (x : Float) : Prop
  | zero (h : x.toModel.unpack = .zero .positive)
  | top (h : IsTop x)
  | value (v : ℚ) (h : Holds x v)

theorem AtLeast.nonNeg {k : Nat} (h : AtLeast k x) : NonNeg x := by
  cases h with
  | top h => exact .top h
  | value v h _ => exact .value v h

theorem AtLeast.ne_zero {k : Nat} (h : AtLeast k x) : (x == 0.0) = false := by
  change (x.toModel.unpack.compare (.zero .positive) == some .eq) = false
  cases h with
  | top h =>
      rw [h]
      rfl
  | value v h _ =>
      rcases h with ⟨m, e, hm, h, _⟩
      rw [h]
      rfl

theorem AtLeast.not_le_zero {k : Nat} (h : AtLeast k x) : ¬x ≤ 0.0 := by
  change ¬decide (UnpackedFloat.le x.toModel.unpack (.zero .positive) = true) = true
  cases h with
  | top h =>
      rw [h]
      exact Bool.false_ne_true
  | value v h _ =>
      rcases h with ⟨m, e, hm, h, _⟩
      rw [h]
      exact Bool.false_ne_true

theorem Near.nonNeg {k : Nat} (h : Near k x q) : NonNeg x :=
  let ⟨v, h, _⟩ := h
  .value v h

theorem AtLeast.mono {k l : Nat} (h : AtLeast k x) (hkl : k ≤ l) : AtLeast l x := by
  cases h with
  | top h => exact .top h
  | value v h hv =>
      refine .value v h (le_trans ?_ hv)
      gcongr
      norm_num

theorem Near.atLeast {k l : Nat} (h : Near (l + 1) x q) (hq : 1 / 2 ^ k ≤ q) :
    AtLeast (k + 1) x := by
  have hpos := h.pos
  rcases h with ⟨v, h, hv⟩
  refine .value v h ?_
  have hhalf : q / 2 ^ (l + 1) ≤ q / 2 := by
    gcongr
    exact le_self_pow₀ (by norm_num) (by omega)
  rw [pow_succ, ← div_div]
  linarith [(abs_le.mp hv).1]

theorem Gives.atLeast {k : Nat} (h : Gives x v) (hv : 1 / 2 ^ k ≤ v) : AtLeast (k + 1) x := by
  cases h with
  | top h _ => exact .top h
  | near w h hw => exact Near.atLeast (l := 51) ⟨w, h, hw⟩ hv

/-- Adding zero changes nothing. -/
theorem holds_add_zero (hx : Holds x v) (hy : y.toModel.unpack = .zero .positive) :
    Holds (x + y) v := by
  rcases hx with ⟨m, e, hm, hx, hmin, he, he', hv⟩
  refine ⟨m, e, hm, ?_, hmin, he, he', hv⟩
  change (Float.Model.pack (UnpackedFloat.add _ x.toModel.unpack y.toModel.unpack)).unpack = _
  rw [hy, hx]
  exact unpack_pack_of_le hmin (mantissa_lt hx) he he'

theorem holds_zero_add (hx : x.toModel.unpack = .zero .positive) (hy : Holds y v) :
    Holds (x + y) v := by
  rcases hy with ⟨m, e, hm, hy, hmin, he, he', hv⟩
  refine ⟨m, e, hm, ?_, hmin, he, he', hv⟩
  change (Float.Model.pack (UnpackedFloat.add _ x.toModel.unpack y.toModel.unpack)).unpack = _
  rw [hx, hy]
  exact unpack_pack_of_le hmin (mantissa_lt hy) he he'

theorem Near.add_zero {k : Nat} (hx : Near k x q) (hy : y.toModel.unpack = .zero .positive) :
    Near k (x + y) q :=
  let ⟨v, hx, hv⟩ := hx
  ⟨v, holds_add_zero hx hy, hv⟩

theorem Near.zero_add {k : Nat} (hx : x.toModel.unpack = .zero .positive) (hy : Near k y q) :
    Near k (x + y) q :=
  let ⟨v, hy, hv⟩ := hy
  ⟨v, holds_zero_add hx hy, hv⟩

/-- What is not below a part of one is far above the least positive value. -/
theorem tiny_le {k : Nat} (hk : k ≤ 1000) (hv : 1 / 2 ^ k ≤ v) : 2 ^ (-1000 : Int) ≤ v := by
  refine le_trans ?_ hv
  rw [one_div, ← zpow_natCast, ← zpow_neg]
  exact zpow_le_zpow_right₀ (by norm_num) (by omega)

section

variable {k : Nat}

theorem AtLeast.div (hk : k ≤ 1000) (hx : AtLeast k x) (hy : Holds y q) (hq : q ≤ 1) :
    AtLeast (k + 1) (x / y) := by
  cases hx with
  | top hx =>
      rcases hy with ⟨n, j, hn, hy, _⟩
      refine .top ?_
      change (Float.Model.pack (UnpackedFloat.div _ x.toModel.unpack y.toModel.unpack)).unpack = _
      rw [hx, hy]
      exact unpack_infinity
  | value v hx hv =>
      have hle : 1 / 2 ^ k ≤ v / q := hv.trans ((le_div_iff₀ hy.pos).mpr
        (mul_le_of_le_one_right hx.pos.le hq))
      exact (gives_div hx hy (tiny_le hk hle)).atLeast hle

/-- A factor that is not below a sixteenth costs four bits, and rounding one more. -/
theorem AtLeast.mul (hk : k ≤ 900) (hx : AtLeast k x) (hy : Holds y q) (hq : 1 / 2 ^ 4 ≤ q) :
    AtLeast (k + 5) (x * y) := by
  cases hx with
  | top hx =>
      rcases hy with ⟨n, j, hn, hy, _⟩
      refine .top ?_
      change (Float.Model.pack (UnpackedFloat.mul _ x.toModel.unpack y.toModel.unpack)).unpack = _
      rw [hx, hy]
      exact unpack_infinity
  | value v hx hv =>
      have hle : 1 / 2 ^ (k + 4) ≤ v * q := by
        rw [pow_add, ← one_div_mul_one_div]
        exact mul_le_mul hv hq (by positivity) hx.pos.le
      exact (gives_mul hx hy (tiny_le (by omega) hle)).atLeast hle

theorem AtLeast.add (hk : k ≤ 1000) (hx : AtLeast k x) (hy : NonNeg y) :
    AtLeast (k + 1) (x + y) := by
  cases hx with
  | top hx =>
      refine .top ?_
      change (Float.Model.pack (UnpackedFloat.add _ x.toModel.unpack y.toModel.unpack)).unpack = _
      rw [hx]
      cases hy with
      | zero hy =>
          rw [hy]
          exact unpack_infinity
      | top hy =>
          rw [hy]
          exact unpack_infinity
      | value q hy =>
          rcases hy with ⟨n, j, hn, hy, _⟩
          rw [hy]
          exact unpack_infinity
  | value v hx hv =>
      cases hy with
      | zero hy =>
          exact (AtLeast.value v (holds_add_zero hx hy) hv).mono (Nat.le_succ k)
      | top hy =>
          rcases hx with ⟨m, e, hm, hx, _⟩
          refine .top ?_
          change (Float.Model.pack (UnpackedFloat.add _ x.toModel.unpack _)).unpack = _
          rw [hx, hy]
          exact unpack_infinity
      | value q hy =>
          have hle : 1 / 2 ^ k ≤ v + q := hv.trans (le_add_of_nonneg_right hy.pos.le)
          exact (gives_add hx hy (tiny_le hk hle)).atLeast hle

end

theorem atLeast_ofNat {n : Nat} (hn : 0 < n) : AtLeast 1 (Float.ofNat n) := by
  have hone : 1 / 2 ^ 0 ≤ (n : ℚ) := by
    rw [pow_zero, div_one]
    exact_mod_cast hn
  by_cases h : n < 2 ^ 53
  · exact (near_ofNat hn (by omega)).atLeast hone
  · rw [ofNat_of_not_lt h]
    exact (gives_ofScientific hn).atLeast hone

end Nearness

end ChainSync
