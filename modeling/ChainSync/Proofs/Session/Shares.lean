import ChainSync.Proofs.Float.Nearness
import ChainSync.Proofs.Session.Snapshot

/-!
# Shares of the Time

What a session's estimate comes to in numbers.

The time that headers have taken, divided by the fraction of them that has been
fetched, is the time for all of them; eight tenths of it are granted to discovery
and one tenth to the rescan. All of this is done in floating point. Two things are
needed of it. The total is never zero, whatever the clocks say, so that the ratio
to it is sound. And as long as nothing but headers has taken time, the percentage
is the fraction divided by 1.9: the time itself cancels out, except for errors of
rounding that are too small to matter between 52 and 53.

The times enter as whole seconds and nanoseconds. They are measured well as long as
they are of any size that a clock can show; longer ones are infinite at worst.

## Theorems

* `Session.percent_eq`: A percentage is the whole part of the value.
* `Session.near_secondsBetween`, `Session.atLeast_secondsBetween`: Times.
* `Session.holds_fraction`: The fraction of headers.
* `Session.atLeast_total`: The total is positive.
* `Session.percent_headers`: The percentage while headers are fetched.
-/

namespace ChainSync

open Nearness Float.Model Float.Model.UnpackedFloat

/-! ## Constants -/

theorem holds_billion : Holds 1000000000.0 (10 ^ 9) :=
  ⟨10 ^ 9 * 2 ^ 23, -23, by decide, rfl, by decide, by decide, by decide, by norm_num [scaled]⟩

theorem holds_hundred : Holds 100.0 100 :=
  ⟨100 * 2 ^ 46, -46, by decide, rfl, by decide, by decide, by decide, by norm_num [scaled]⟩

theorem holds_ninetyNine : Holds 99.0 99 :=
  ⟨99 * 2 ^ 46, -46, by decide, rfl, by decide, by decide, by decide, by norm_num [scaled]⟩

theorem holds_discoveryShare : Holds Estimate.discoveryShare (7205759403792794 / 2 ^ 53) :=
  ⟨7205759403792794, -53, by decide, rfl, by decide, by decide, by decide, by norm_num [scaled]⟩

theorem holds_rescanShare : Holds Estimate.rescanShare (7205759403792794 / 2 ^ 56) :=
  ⟨7205759403792794, -56, by decide, rfl, by decide, by decide, by decide, by norm_num [scaled]⟩

theorem near_discoveryShare : Near 50 Estimate.discoveryShare (4 / 5) :=
  ⟨_, holds_discoveryShare, by norm_num [abs_le]⟩

theorem near_rescanShare : Near 50 Estimate.rescanShare (1 / 10) :=
  ⟨_, holds_rescanShare, by norm_num [abs_le]⟩

theorem unpack_ofNat_zero : (Float.ofNat 0).toModel.unpack = .zero .positive := rfl

variable {x : Float} {v : ℚ}

theorem not_lt_zero (h : Holds x v) : ¬x < 0.0 := by
  rcases h with ⟨m, e, hm, h, _⟩
  rw [lt_iff_compare, h]
  exact fun hlt => absurd (Option.some.inj hlt) (by decide)

/-- Cutting off after the point leaves the whole part. -/
theorem toUInt8_eq (h : Holds x v) : x.toUInt8 = UInt8.ofNatClamp ⌊v⌋₊ := by
  rcases h with ⟨m, e, hm, h, _, _, _, rfl⟩
  change UInt8.ofNatClamp (x.toModel.unpack.toInt 0 255).toNat = _
  have hfloor : scaled m e = (m <<< e.toNat : Nat) / (2 ^ (-e).toNat : Nat) := by
    have he : e = e.toNat - (-e).toNat := by omega
    rw [scaled, Nat.shiftLeft_eq]
    nth_rewrite 1 [he]
    rw [zpow_sub₀ two_ne_zero, zpow_natCast, zpow_natCast]
    push_cast
    ring
  rw [h, hfloor, Nat.floor_div_eq_div]
  dsimp only [toInt]
  rw [roundToInt_positive, Int.toNat_natCast]

namespace Session

theorem percent_eq (h : Holds x v) (hv : v ≤ 99) : percent x = UInt8.ofNatClamp ⌊v⌋₊ := by
  unfold percent clampFloat
  rw [if_neg (not_lt_zero h), if_neg ((holds_lt_iff holds_ninetyNine h).not.mpr (not_lt.mpr hv)),
    toUInt8_eq h]

/-! ## The time that is measured -/

theorem near_ratio {n d : Nat} (hn : 0 < n) (hn' : n ≤ 2 ^ 100) (hd : 0 < d) (hd' : d ≤ 2 ^ 100) :
    Near 43 (Float.ofNat n / Float.ofNat d) (n / d) := by
  have hn₁ : (1 : ℚ) ≤ n := by exact_mod_cast hn
  have hd₁ : (1 : ℚ) ≤ d := by exact_mod_cast hd
  have hn₂ : (n : ℚ) ≤ 2 ^ 100 := by exact_mod_cast hn'
  have hd₂ : (d : ℚ) ≤ 2 ^ 100 := by exact_mod_cast hd'
  refine (near_ofNat hn (by omega)).div (by decide) (near_ofNat hd (by omega)) ⟨?_, ?_⟩
  · rw [le_div_iff₀ (by linarith)]
    linarith
  · rw [div_le_iff₀ (by linarith)]
    linarith

theorem near_nanoseconds {n : Nat} (hn : 0 < n) (hmax : n ≤ 10 ^ 9) :
    Near 43 (Float.ofNat n / 1000000000.0) (n / 10 ^ 9) := by
  have hn₁ : (1 : ℚ) ≤ n := by exact_mod_cast hn
  have hn₂ : (n : ℚ) ≤ 10 ^ 9 := by exact_mod_cast hmax
  refine (near_ofNat hn (by omega)).div (by decide) holds_billion.near ⟨?_, ?_⟩
  · rw [le_div_iff₀ (by norm_num)]
    linarith
  · rw [div_le_iff₀ (by norm_num)]
    linarith

/-- Seconds between two points in time are measured well, unless they lie ages apart. -/
theorem near_secondsBetween {first last : Nat} (hspan : first < last)
    (hmax : last - first ≤ 2 ^ 100) :
    Near 40 (secondsBetween first last) ((last - first : Nat) / 10 ^ 9) := by
  unfold secondsBetween
  obtain ⟨span, hspan'⟩ : ∃ span, span = last - first := ⟨_, rfl⟩
  rw [← hspan'] at hmax ⊢
  obtain ⟨whole, hwhole⟩ : ∃ whole, whole = span / 1000000000 := ⟨_, rfl⟩
  obtain ⟨rest, hrest⟩ : ∃ rest, rest = span % 1000000000 := ⟨_, rfl⟩
  have hsum : (span / 10 ^ 9 : ℚ) = whole + rest / 10 ^ 9 := by
    have hparts : span = whole * 10 ^ 9 + rest := by omega
    rw [hparts]
    push_cast
    ring
  simp only [← hwhole, ← hrest, hsum]
  have hfraction : 0 < rest → Near 43 (Float.ofNat rest / 1000000000.0) (rest / 10 ^ 9) :=
    fun hpos => near_nanoseconds hpos (by omega)
  -- One of the two parts may be nothing, but not both.
  rcases Nat.eq_zero_or_pos whole with hw | hw
  · rw [hw, Nat.cast_zero, zero_add]
    exact (Near.zero_add unpack_ofNat_zero (hfraction (by omega))).mono (by decide)
  · have hnear : Near 46 (Float.ofNat whole) whole := near_ofNat hw (by omega)
    rcases Nat.eq_zero_or_pos rest with hr | hr
    · rw [hr, Nat.cast_zero, zero_div, add_zero]
      exact (hnear.add_zero rfl).mono (by decide)
    · have hwhole₁ : (1 : ℚ) ≤ whole := by exact_mod_cast hw
      have hwhole₂ : (whole : ℚ) ≤ 2 ^ 100 := by exact_mod_cast (by omega : whole ≤ 2 ^ 100)
      have hrest₂ : (rest : ℚ) ≤ 10 ^ 9 := by exact_mod_cast (by omega : rest ≤ 10 ^ 9)
      have hrest₁ : (0 : ℚ) ≤ rest := Nat.cast_nonneg _
      refine (hnear.mono (by decide)).add (by decide) (hfraction hr) ⟨?_, ?_⟩
      · have : (0 : ℚ) ≤ rest / 10 ^ 9 := by positivity
        linarith
      · have : (rest : ℚ) / 10 ^ 9 ≤ 1 := by
          rw [div_le_one (by norm_num)]
          exact hrest₂
        linarith

theorem secondsBetween_of_le {first last : Nat} (h : last ≤ first) :
    secondsBetween first last ≤ 0.0 := by
  unfold secondsBetween
  rw [Nat.sub_eq_zero_of_le h]
  decide +kernel

/-- Some time has passed, and be it ages. -/
theorem atLeast_secondsBetween {first last : Nat} (h : first < last) :
    AtLeast 40 (secondsBetween first last) := by
  by_cases hmax : last - first ≤ 2 ^ 100
  · refine ((near_secondsBetween h hmax).atLeast (k := 30) ?_).mono (by decide)
    have hpos : (1 : ℚ) ≤ (last - first : Nat) := by exact_mod_cast (by omega : 1 ≤ last - first)
    rw [le_div_iff₀ (by norm_num)]
    linarith
  · unfold secondsBetween
    have hwhole : 0 < (last - first) / 1000000000 := by omega
    refine ((atLeast_ofNat hwhole).add (by decide) ?_).mono (by decide)
    rcases Nat.eq_zero_or_pos ((last - first) % 1000000000) with hrest | hrest
    · rw [hrest]
      exact .zero rfl
    · exact (near_nanoseconds hrest (by omega)).nonNeg

/-- The time that all of a sync takes is positive. -/
theorem atLeast_total {h f : Float} (hh : AtLeast 40 h) (hf : Holds f v) (hv : v ≤ 1) :
    AtLeast 43 (h / f + h / f * Estimate.discoveryShare + h / f * Estimate.rescanShare) := by
  have htime : AtLeast 41 (h / f) := hh.div (by decide) hf hv
  have hdiscovery : AtLeast 46 (h / f * Estimate.discoveryShare) :=
    htime.mul (by decide) holds_discoveryShare (by norm_num)
  have hrescan : AtLeast 46 (h / f * Estimate.rescanShare) :=
    htime.mul (by decide) holds_rescanShare (by norm_num)
  exact (htime.add (by decide) hdiscovery.nonNeg).add (by decide) hrescan.nonNeg

/-- The percentage of the time that is spent when only headers have been fetched yet: it is in
    proportion to the fraction, and with all headers it is 52. -/
theorem percent_headers {h f : Float} {t : ℚ} (hh : Near 40 h t) (ht : 1 / 2 ^ 40 ≤ t)
    (ht' : t ≤ 2 ^ 80) (hf : Holds f v) (hv : 1 / 2 ^ 40 ≤ v) (hv' : v ≤ 1) :
    let total := h / f + h / f * Estimate.discoveryShare + h / f * Estimate.rescanShare
    let shown := percent ((h + 0.0 + 0.0) / total * 100.0)
    shown ≤ 52 ∧ (v = 1 → shown = 52) := by
  intro total shown
  have hvpos := hf.pos
  have hhigh : t / v ≤ 2 ^ 120 := by
    rw [div_le_iff₀ hvpos]
    calc t ≤ 2 ^ 120 * (1 / 2 ^ 40) := by linarith
      _ ≤ 2 ^ 120 * v := by gcongr
  have hlow : 1 / 2 ^ 40 ≤ t / v := ht.trans ((le_div_iff₀ hvpos).mpr
    (mul_le_of_le_one_right (by linarith) hv'))
  have htime : Near 37 (h / f) (t / v) :=
    hh.div (by decide) hf.near ⟨by linarith, by linarith⟩
  have hdiscovery : Near 34 (h / f * Estimate.discoveryShare) (t / v * (4 / 5)) :=
    htime.mul (by decide) (near_discoveryShare.mono (by decide)) ⟨by linarith, by linarith⟩
  have hrescan : Near 34 (h / f * Estimate.rescanShare) (t / v * (1 / 10)) :=
    htime.mul (by decide) (near_rescanShare.mono (by decide)) ⟨by linarith, by linarith⟩
  have hsum : Near 31 (h / f + h / f * Estimate.discoveryShare) (t / v + t / v * (4 / 5)) :=
    (htime.mono (by decide)).add (by decide) hdiscovery ⟨by linarith, by linarith⟩
  have htotal : Near 28 total (t / v + t / v * (4 / 5) + t / v * (1 / 10)) :=
    hsum.add (by decide) (hrescan.mono (by decide)) ⟨by linarith, by linarith⟩
  -- The time itself cancels out.
  have hshare : t / (t / v + t / v * (4 / 5) + t / v * (1 / 10)) = v * (10 / 19) := by
    have htpos : t ≠ 0 := by linarith
    field_simp
    norm_num
  have hspent : Near 25 ((h + 0.0 + 0.0) / total) (v * (10 / 19)) := by
    rw [← hshare]
    refine (((hh.add_zero rfl).add_zero rfl).mono (by decide)).div (by decide) htotal ?_
    rw [hshare]
    exact ⟨by linarith, by linarith⟩
  have hpercent : Near 22 ((h + 0.0 + 0.0) / total * 100.0) (v * (10 / 19) * 100) :=
    hspent.mul (by decide) holds_hundred.near ⟨by linarith, by linarith⟩
  rcases hpercent with ⟨w, hw, hnear⟩
  rw [abs_le] at hnear
  have hw' : w < 53 := by linarith
  have hfloor : ⌊w⌋₊ ≤ 52 := Nat.le_of_lt_succ ((Nat.floor_lt hw.pos.le).mpr hw')
  have hshown : shown = UInt8.ofNatClamp ⌊w⌋₊ := percent_eq hw (by linarith)
  rw [hshown]
  constructor
  · exact ofNatClamp_le hfloor
  · rintro rfl
    have hfloor' : 52 ≤ ⌊w⌋₊ := Nat.le_floor (by norm_num; linarith)
    rw [le_antisymm hfloor hfloor']
    rfl

theorem clampFloat_zero (h : x.toModel.unpack = .zero .positive) :
    clampFloat 0.0 1.0 x ≤ 0.0 := by
  have hlow : ¬x < 0.0 := by
    rw [lt_iff_compare, h]
    decide
  have hhigh : ¬1.0 < x := by
    rw [lt_iff_compare, h]
    decide
  unfold clampFloat
  rw [if_neg hlow, if_neg hhigh]
  change decide (UnpackedFloat.le x.toModel.unpack _ = true) = true
  rw [h]
  rfl

/-- A fraction that is above zero is at most one, and not very small. -/
theorem holds_fraction {s : Session} {projected : Int32} (hheaders : 0 ≤ s.headers)
    (h : ¬s.fraction projected ≤ 0.0) :
    ∃ v, Holds (s.fraction projected) v ∧ 1 / 2 ^ 40 ≤ v ∧ v ≤ 1 := by
  have hone : ∃ v, Holds 1.0 v ∧ 1 / 2 ^ 40 ≤ v ∧ v ≤ 1 := ⟨1, holds_one, by norm_num, le_rfl⟩
  unfold fraction at h ⊢
  by_cases hpast : Phase.fetchingHeaders.rank < s.phase.rank
  · rwa [if_pos hpast]
  · rw [if_neg hpast] at h ⊢
    by_cases hmissing : projected.toInt - s.headersStart.toInt ≤ 0
    · simp only [if_pos hmissing]
      exact hone
    · simp only [if_neg hmissing] at h ⊢
      obtain ⟨n, hn⟩ : ∃ n : Nat, s.headers.toInt = n :=
        Int.eq_ofNat_of_zero_le (Int32.le_iff_toInt_le.mp hheaders)
      obtain ⟨d, hd⟩ : ∃ d : Nat, projected.toInt - s.headersStart.toInt = d :=
        Int.eq_ofNat_of_zero_le (by omega)
      have hnmax := s.headers.toInt_lt
      have hdmax := projected.toInt_lt
      have hdmin := s.headersStart.le_toInt
      rw [hn, hd] at h ⊢
      change ¬clampFloat 0.0 1.0 (Float.ofNat n / Float.ofNat d) ≤ 0.0 at h
      change ∃ v, Holds (clampFloat 0.0 1.0 (Float.ofNat n / Float.ofNat d)) v ∧ _
      rcases Nat.eq_zero_or_pos n with rfl | hpos
      · refine absurd (clampFloat_zero ?_) h
        rcases near_ofNat (by omega : 0 < d) (by omega) with ⟨_, ⟨m, e, hm, hunpack, _⟩, _⟩
        change (Float.Model.pack (UnpackedFloat.div _ _ (Float.ofNat d).toModel.unpack)).unpack = _
        rw [hunpack]
        exact unpack_ofNat_zero
      · have hratio := near_ratio hpos (by omega) (by omega : 0 < d) (by omega)
        rcases hratio with ⟨v, hx, hv⟩
        unfold clampFloat
        rw [if_neg (not_lt_zero hx)]
        by_cases hgreat : 1.0 < Float.ofNat n / Float.ofNat d
        · rwa [if_pos hgreat]
        · rw [if_neg hgreat]
          refine ⟨v, hx, ?_, not_lt.mp ((holds_lt_iff holds_one hx).not.mp hgreat)⟩
          have hn₁ : (1 : ℚ) ≤ n := by exact_mod_cast hpos
          have hd₁ : (1 : ℚ) ≤ d := by exact_mod_cast (by omega : 1 ≤ d)
          have hd₂ : (d : ℚ) ≤ 2 ^ 33 := by exact_mod_cast (by omega : d ≤ 2 ^ 33)
          have hlow : 1 / 2 ^ 33 ≤ (n : ℚ) / d := by
            rw [div_le_div_iff₀ (by norm_num) (by linarith)]
            linarith
          linarith [(abs_le.mp hv).1]

end Session

end ChainSync
