import ChainSync.Proofs.Session.Consistent

/-!
# Projected Heights

How the projected tip of the chain moves with the clock and with the best known block.

A projection is made in three steps that each lose something. The time since the best
block is cut off at the ends of 64 bits, what is left of it after the last whole
interval is dropped, and the height is cut off at the ends of 32 bits. All of them keep
the order of what they are given, which is why the projection as a whole does.

None of them makes a difference greater either. That bounds what less than one interval
can do, whatever is cut off. For a whole number of intervals to count as that number of
blocks nothing may be cut off, and the clock may not stand before the best block: what
is dropped is dropped toward zero, so the intervals on both sides of that block are one.

## Main definitions

* `Estimate.clamp`: A whole number cut off at the ends of a word.
* `Estimate.IsUncut`: A projection that nothing is cut off from.

## Theorems

* `Estimate.clamp_mono`, `Estimate.clamp_le_add`: What cutting off does to differences.
* `Estimate.tdiv_add_self_le`: One interval is one block at most.
* `Estimate.toInt_projectedHeight`: The three steps.
* `Estimate.projection_follows_clock`: What the projection is and how it moves.
-/

namespace ChainSync

namespace Estimate

/-! ## Cutting off -/

/-- A whole number cut off at the ends of a signed word of that many bits. -/
def clamp (bits : Nat) (n : Int) : Int :=
  max (-2 ^ (bits - 1)) (min n (2 ^ (bits - 1) - 1))

theorem clamp_mono (bits : Nat) {m n : Int} (h : m ≤ n) : clamp bits m ≤ clamp bits n := by
  unfold clamp
  omega

/-- Numbers do not move apart when they are cut off. -/
theorem clamp_le_add (bits : Nat) {m n d : Int} (hd : 0 ≤ d) (h : n ≤ m + d) :
    clamp bits n ≤ clamp bits m + d := by
  unfold clamp
  omega

theorem toInt_elapsed (now timestamp : Int64) :
    (elapsed now timestamp).toInt = clamp 64 (now.toInt - timestamp.toInt) := by
  have hmin : Int64.minValue.toInt = -2 ^ 63 := by decide
  have hmax : Int64.maxValue.toInt = 2 ^ 63 - 1 := by decide
  unfold elapsed Int64.ofIntClamp clamp
  by_cases hlow : Int64.minValue.toInt ≤ now.toInt - timestamp.toInt
  · by_cases hhigh : now.toInt - timestamp.toInt ≤ Int64.maxValue.toInt
    · rw [dif_pos hlow, dif_pos hhigh, Int64.toInt_ofIntLE]
      omega
    · rw [dif_pos hlow, dif_neg hhigh]
      omega
  · rw [dif_neg hlow]
    omega

/-! ## Whole intervals -/

theorem blockInterval_eq (label : String) :
    blockInterval label = if label = "mainnet" then 300 else 120 := rfl

theorem blockInterval_pos (label : String) : 0 < blockInterval label := by
  rw [blockInterval_eq]
  split <;> decide

/-- One interval more is one block more at most. It is none where the clock passes the
    best block, since both intervals next to it count as no block. -/
theorem tdiv_add_self_le {d : Int} (hd : 0 < d) (x : Int) : (x + d).tdiv d ≤ x.tdiv d + 1 := by
  have hnext : ∀ y, (y + d) / d = y / d + 1 := by
    intro y
    have h := Int.add_mul_ediv_right y 1 (Int.ne_of_gt hd)
    rwa [Int.one_mul] at h
  by_cases hx : 0 ≤ x
  · rw [Int.tdiv_eq_ediv_of_nonneg (by omega), Int.tdiv_eq_ediv_of_nonneg hx, hnext]
  -- Before the best block both quotients are those of what is left until it, negated.
  obtain ⟨y, hy⟩ : ∃ y, x = -y := ⟨-x, by omega⟩
  have hneg : x.tdiv d = -(y / d) := by
    rw [hy, Int.neg_tdiv, Int.tdiv_eq_ediv_of_nonneg (by omega)]
  by_cases hfar : d ≤ y
  · have hcloser : (x + d).tdiv d = -((y - d) / d) := by
      rw [show x + d = -(y - d) by omega, Int.neg_tdiv, Int.tdiv_eq_ediv_of_nonneg (by omega)]
    have hstep := hnext (y - d)
    rw [Int.sub_add_cancel] at hstep
    omega
  · have hzero : y / d = 0 := Int.ediv_eq_zero_of_lt (by omega) (by omega)
    have hbelow : (x + d).tdiv d = 0 := Int.tdiv_eq_zero_of_lt (by omega) (by omega)
    omega

/-- Less than an interval is one block at most, whatever is cut off. -/
theorem tdiv_clamp_le {d m n : Int} (hd : 0 < d) (h : n < m + d) :
    (clamp 64 n).tdiv d ≤ (clamp 64 m).tdiv d + 1 :=
  calc (clamp 64 n).tdiv d ≤ (clamp 64 m + d).tdiv d :=
        Int.tdiv_le_tdiv hd (clamp_le_add 64 (by omega) (by omega))
    _ ≤ (clamp 64 m).tdiv d + 1 := tdiv_add_self_le hd _

/-! ## The projection -/

/-- The time since the best block, in whole intervals and cut off at both ends. -/
theorem toInt_projectedHeight (now : Int64) (label : String) (timestamp : Int64)
    (height : Int32) : (projectedHeight now label timestamp height).toInt =
      clamp 32 (height.toInt +
        (clamp 64 (now.toInt - timestamp.toInt)).tdiv (blockInterval label)) := by
  rw [← toInt_elapsed]
  exact Session.toInt_ofIntClamp _

/-- Neither the time since the best block nor the height is cut off. -/
def IsUncut (now : Int64) (label : String) (timestamp : Int64) (height : Int32) : Prop :=
  let since := now.toInt - timestamp.toInt
  let tip := height.toInt + since.tdiv (blockInterval label)
  clamp 64 since = since ∧ clamp 32 tip = tip

instance (now : Int64) (label : String) (timestamp : Int64) (height : Int32) :
    Decidable (IsUncut now label timestamp height) :=
  inferInstanceAs (Decidable (_ ∧ _))

variable {now later timestamp : Int64} {label : String} {height : Int32}

theorem IsUncut.toInt_projectedHeight (h : IsUncut now label timestamp height) :
    (projectedHeight now label timestamp height).toInt =
      height.toInt + (now.toInt - timestamp.toInt).tdiv (blockInterval label) := by
  rw [Estimate.toInt_projectedHeight, h.1]
  exact h.2

/-- Whole intervals are whole blocks from the best block on. -/
theorem IsUncut.advance (h : IsUncut now label timestamp height)
    (hlater : IsUncut later label timestamp height) (hpast : timestamp ≤ now) {k : Nat}
    (hk : later.toInt = now.toInt + k * blockInterval label) :
    (projectedHeight later label timestamp height).toInt =
      (projectedHeight now label timestamp height).toInt + k := by
  have hd := blockInterval_pos label
  have hsince := Int64.le_iff_toInt_le.mp hpast
  have hmore : 0 ≤ (k : Int) * blockInterval label := Int.mul_nonneg (by omega) (by omega)
  have hsplit : later.toInt - timestamp.toInt =
      now.toInt - timestamp.toInt + k * blockInterval label := by omega
  rw [h.toInt_projectedHeight, hlater.toInt_projectedHeight, hsplit,
    Int.tdiv_eq_ediv_of_nonneg (by omega), Int.tdiv_eq_ediv_of_nonneg (by omega),
    Int.add_mul_ediv_right _ _ (Int.ne_of_gt hd)]
  omega

/-- The projection is computed without overflow, it follows the clock and the best height
    and runs against the timestamp, and an interval is worth a block. -/
theorem projection_follows_clock (label : String) :
    let interval : Int := if label = "mainnet" then 300 else 120
    (∀ now timestamp height,
      projectedHeight? now label timestamp height =
        some (projectedHeight now label timestamp height) ∧
      (projectedHeight now label timestamp height).toInt =
        clamp 32 (height.toInt + (clamp 64 (now.toInt - timestamp.toInt)).tdiv interval)) ∧
    (∀ now later timestamp height, now ≤ later →
      projectedHeight now label timestamp height ≤
        projectedHeight later label timestamp height) ∧
    (∀ now timestamp height higher, height ≤ higher →
      projectedHeight now label timestamp height ≤
        projectedHeight now label timestamp higher) ∧
    (∀ now timestamp newer height, timestamp ≤ newer →
      projectedHeight now label newer height ≤
        projectedHeight now label timestamp height) ∧
    (∀ now later timestamp height (k : Nat), timestamp ≤ now →
      later.toInt = now.toInt + k * interval →
      IsUncut now label timestamp height → IsUncut later label timestamp height →
      (projectedHeight later label timestamp height).toInt =
        (projectedHeight now label timestamp height).toInt + k) ∧
    (∀ now later timestamp height, now ≤ later → later.toInt < now.toInt + interval →
      (projectedHeight later label timestamp height).toInt ≤
        (projectedHeight now label timestamp height).toInt + 1) := by
  intro interval
  have hd := blockInterval_pos label
  -- Each of the three arguments moves one summand of what is cut off last.
  have hmono : ∀ {now now' timestamp timestamp' : Int64} {height height' : Int32},
      now.toInt - timestamp.toInt ≤ now'.toInt - timestamp'.toInt →
      height.toInt ≤ height'.toInt →
      projectedHeight now label timestamp height ≤
        projectedHeight now' label timestamp' height' := by
    intro now now' timestamp timestamp' height height' hsince hheight
    rw [Int32.le_iff_toInt_le, toInt_projectedHeight, toInt_projectedHeight]
    have hblocks := Int.tdiv_le_tdiv hd (clamp_mono 64 hsince)
    exact clamp_mono 32 (by omega)
  refine ⟨?_, ?_, ?_, ?_, ?_, ?_⟩
  · intro now timestamp height
    exact ⟨projectedHeight?_eq now label timestamp height,
      toInt_projectedHeight now label timestamp height⟩
  · intro now later timestamp height h
    have h := Int64.le_iff_toInt_le.mp h
    exact hmono (by omega) (Int.le_refl _)
  · intro now timestamp height higher h
    exact hmono (Int.le_refl _) (Int32.le_iff_toInt_le.mp h)
  · intro now timestamp newer height h
    have h := Int64.le_iff_toInt_le.mp h
    exact hmono (by omega) (Int.le_refl _)
  · intro now later timestamp height k hpast hk h hlater
    exact h.advance hlater hpast hk
  · intro now later timestamp height _ hsoon
    rw [toInt_projectedHeight, toInt_projectedHeight]
    have hsoon : later.toInt - timestamp.toInt <
        now.toInt - timestamp.toInt + blockInterval label := by
      change later.toInt < now.toInt + blockInterval label at hsoon
      omega
    have hblocks := tdiv_clamp_le hd hsoon
    exact clamp_le_add 32 (by decide) (by omega)

/-- The clock of a test network moves by three intervals and by two minutes less a second,
    starting a day after the best block, and is then turned back as far as it goes. -/
theorem three_intervals_on :
    (projectedHeight 1700086760 "testnet" 1700000000 500).toInt =
      (projectedHeight 1700086400 "testnet" 1700000000 500).toInt + 3 ∧
    (projectedHeight 1700086519 "testnet" 1700000000 500).toInt ≤
      (projectedHeight 1700086400 "testnet" 1700000000 500).toInt + 1 ∧
    projectedHeight (-9223372036854775808) "testnet" 1700000000 500 ≤
      projectedHeight 1700086400 "testnet" 1700000000 500 ∧
    projectedHeight 1700086400 "testnet" 9223372036854775807 500 ≤
      projectedHeight 1700086400 "testnet" 1700000000 500 := by
  rcases projection_follows_clock "testnet" with ⟨_, hclock, _, htimestamp, hwhole, hless⟩
  refine ⟨hwhole _ _ _ _ 3 (by decide) (by decide) (by decide) (by decide), ?_, ?_, ?_⟩
  · exact hless _ _ _ _ (by decide) (by decide)
  · exact hclock _ _ _ _ (by decide)
  · exact htimestamp _ _ _ _ (by decide)

end Estimate

end ChainSync
