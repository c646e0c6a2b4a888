import ChainSync.Proofs.Routine.Among
import ChainSync.Simulation
import Mathlib.Tactic.Linarith

/-!
# Header Counts of a Simulation

How far the simulated header fetch gets.

The loop adds a tenth of all headers to its count and takes the smaller one of the sum
and the number of headers. The sum is a number of 32 bits, though, and it is there before
the smaller one is taken. A count is a multiple of the tenth as long as it is not the
last one, so where headers are many it is ten tenths at most. Whether all sums fit is
therefore a matter of the last step alone. If the headers are whole tenths, the last sum
is the number of headers itself. If they are not, it is eleven tenths, and those have to
fit (`Fits`).

A loop that has so many turns could also end because there are none left. It does not:
more turns than there are headers make no difference.

## Main definitions

* `SimulationPlan.Fits`: Numbers of headers for which every sum fits.
* `Report.headerCount?`: The header count that a report is about.

## Theorems

* `SimulationPlan.headerCounts_spec`: The counts when every sum fits.
* `SimulationPlan.headerCounts_of_not_fits`: The counts when one does not.
* `SimulationPlan.work_of_broken`: What becomes of the run then.
-/

namespace ChainSync

namespace SimulationPlan

variable {headers fetched : Int32}

/-- The most headers for which no sum on the way is too great. -/
def mostHeaders : Int := 1952257870

/-- Every sum on the way fits: there are not too many headers, or no part of a tenth is
    left over. -/
def Fits (headers : Int32) : Prop := headers.toInt ≤ mostHeaders ∨ headers.toInt % 10 = 0

instance (headers : Int32) : Decidable (Fits headers) := inferInstanceAs (Decidable (_ ∨ _))

/-! ## One step -/

theorem toInt_min (a b : Int32) : (min a b).toInt = min a.toInt b.toInt := by
  rw [show min a b = if a ≤ b then a else b from rfl]
  split
  · next hle =>
    rw [Int32.le_iff_toInt_le] at hle
    omega
  · next hlt =>
    rw [Int32.le_iff_toInt_le] at hlt
    omega

theorem toInt_max (a b : Int32) : (max a b).toInt = max a.toInt b.toInt := by
  rw [show max a b = if a ≤ b then b else a from rfl]
  split
  · next hle =>
    rw [Int32.le_iff_toInt_le] at hle
    omega
  · next hlt =>
    rw [Int32.le_iff_toInt_le] at hlt
    omega

/-- The size of a batch. -/
theorem toInt_batch (h : 0 < headers) : (batch headers).toInt = max (headers.toInt / 10) 1 := by
  have hpos : 0 < headers.toInt := Int32.lt_iff_toInt_lt.mp h
  have hlt := headers.toInt_lt
  have htenth : (headers / 10).toInt = headers.toInt / 10 := by
    rw [Int32.toInt_div, show Int32.toInt 10 = 10 from rfl, Int.tdiv_eq_ediv_of_nonneg hpos.le]
    exact Int.bmod_eq_of_le (by omega) (by omega)
  rw [batch, toInt_max, htenth]
  rfl

/-- The next count is the smaller one of the sum and the number of headers. -/
theorem nextCount_of_fits (hnot : 0 ≤ fetched) (hlt : fetched < headers)
    (hfits : fetched.toInt + (batch headers).toInt ≤ 2147483647) :
    ∃ count, nextCount headers fetched = some count ∧
      count.toInt = min (fetched.toInt + (batch headers).toInt) headers.toInt := by
  have hzero : 0 ≤ fetched.toInt := Int32.le_iff_toInt_le.mp hnot
  have hbatch := toInt_batch (Int32.lt_of_le_of_lt hnot hlt)
  refine ⟨min (Int32.ofInt (fetched.toInt + (batch headers).toInt)) headers, ?_, ?_⟩
  · rw [nextCount]
    exact if_pos hfits
  · rw [toInt_min, Int32.toInt_ofInt_of_le (by omega) (by omega)]

/-- A count that is a number of batches, or all headers. -/
def IsCount (headers fetched : Int32) : Prop :=
  fetched = headers ∨ ∃ k : Nat, fetched.toInt = k * (batch headers).toInt

/-- A count that is not the last one leaves room for another batch. -/
theorem sum_fits (hfits : Fits headers) (hnot : 0 ≤ fetched) (hlt : fetched < headers) {k : Nat}
    (hk : fetched.toInt = k * (batch headers).toInt) :
    fetched.toInt + (batch headers).toInt ≤ 2147483647 := by
  have hbelow := Int32.lt_iff_toInt_lt.mp hlt
  have hzero : 0 ≤ fetched.toInt := Int32.le_iff_toInt_le.mp hnot
  have hbatch := toInt_batch (Int32.lt_of_le_of_lt hnot hlt)
  have hheaders := headers.toInt_lt
  by_cases hsmall : headers.toInt < 100
  · omega
  · -- Ten batches are no more than all headers, so there are ten of them at most.
    have hten : 10 * (batch headers).toInt ≤ headers.toInt := by omega
    have hk10 : (k : Int) ≤ 10 := by
      by_contra hmany
      have hmul : 11 * (batch headers).toInt ≤ k * (batch headers).toInt :=
        Int.mul_le_mul_of_nonneg_right (by omega) (by omega)
      omega
    rcases Int.le_iff_lt_or_eq.mp hk10 with hk9 | hk10
    · have hmul : k * (batch headers).toInt ≤ 9 * (batch headers).toInt :=
        Int.mul_le_mul_of_nonneg_right (by omega) (by omega)
      omega
    · -- After ten batches something is left over, so there are not too many headers.
      rw [hk10] at hk
      rcases hfits with hmost | hwhole
      · rw [mostHeaders] at hmost
        omega
      · omega

/-- The next count is there, and is greater, if every sum fits. -/
theorem nextCount_spec (hfits : Fits headers) (hnot : 0 ≤ fetched) (hlt : fetched < headers)
    (hcount : IsCount headers fetched) :
    ∃ count, nextCount headers fetched = some count ∧ fetched < count ∧ count ≤ headers ∧
      IsCount headers count := by
  have hbelow := Int32.lt_iff_toInt_lt.mp hlt
  have hbatch := toInt_batch (Int32.lt_of_le_of_lt hnot hlt)
  rcases hcount with heq | ⟨k, hk⟩
  · rw [heq] at hlt
    exact absurd hlt Int32.lt_irrefl
  rcases nextCount_of_fits hnot hlt (sum_fits hfits hnot hlt hk) with ⟨count, hnext, hmin⟩
  refine ⟨count, hnext, ?_, ?_, ?_⟩
  · rw [Int32.lt_iff_toInt_lt]
    omega
  · rw [Int32.le_iff_toInt_le]
    omega
  · by_cases hsome : fetched.toInt + (batch headers).toInt ≤ headers.toInt
    · refine .inr ⟨k + 1, ?_⟩
      rw [hmin, min_eq_left hsome, hk]
      push_cast
      linarith
    · refine .inl (Int32.toInt_inj.mp ?_)
      omega

/-! ## The loop -/

/-- A loop that has reached all headers is over, however many turns it has. -/
theorem countsFrom_of_le (h : headers ≤ fetched) (left : Nat) :
    countsFrom headers left fetched = ([], false) := by
  cases left with
  | zero => rfl
  | succ left =>
      unfold countsFrom
      rw [if_neg (Int32.not_lt.mpr h)]

theorem countsFrom_succ {count : Int32} (hlt : fetched < headers)
    (hnext : nextCount headers fetched = some count) (left : Nat) :
    countsFrom headers (left + 1) fetched =
      (count :: (countsFrom headers left count).1, (countsFrom headers left count).2) := by
  rw [countsFrom, if_pos hlt, hnext]

/-- A count that follows is greater and no more than all headers. -/
theorem nextCount_bounds {count : Int32} (hnot : 0 ≤ fetched) (hlt : fetched < headers)
    (hnext : nextCount headers fetched = some count) : fetched < count ∧ count ≤ headers := by
  have hbelow := Int32.lt_iff_toInt_lt.mp hlt
  have hbatch := toInt_batch (Int32.lt_of_le_of_lt hnot hlt)
  by_cases hfits : fetched.toInt + (batch headers).toInt ≤ 2147483647
  · rcases nextCount_of_fits hnot hlt hfits with ⟨count', hnext', hmin⟩
    obtain rfl : count' = count := Option.some.inj (hnext'.symm.trans hnext)
    rw [Int32.lt_iff_toInt_lt, Int32.le_iff_toInt_le]
    omega
  · have hnone : nextCount headers fetched = none := by
      rw [nextCount]
      exact if_neg hfits
    exact absurd (hnone.symm.trans hnext) (by simp)

/-- The counts increase, whether a sum is too great or not. -/
theorem countsFrom_increasing (hnot : 0 ≤ fetched) (left : Nat) :
    (fetched :: (countsFrom headers left fetched).1).Pairwise (· < ·) ∧
      ∀ count ∈ (countsFrom headers left fetched).1, count ≤ headers := by
  have hnil (n : Int32) : [n].Pairwise (· < ·) ∧ ∀ count ∈ ([] : List Int32), count ≤ headers :=
    ⟨List.pairwise_singleton _ _, fun _ h => absurd h List.not_mem_nil⟩
  induction left generalizing fetched with
  | zero => exact hnil fetched
  | succ left ih =>
      unfold countsFrom
      by_cases hlt : fetched < headers
      · simp only [if_pos hlt]
        cases hnext : nextCount headers fetched with
        | none => exact hnil fetched
        | some count =>
            rcases nextCount_bounds hnot hlt hnext with ⟨hup, hle⟩
            rcases ih (Int32.le_trans hnot (Int32.le_of_lt hup)) with ⟨hincreasing, hall⟩
            refine ⟨List.pairwise_cons.mpr ⟨fun n hn => ?_, hincreasing⟩,
              List.forall_mem_cons.mpr ⟨hle, hall⟩⟩
            -- What comes after the next count is greater than that one.
            rcases List.mem_cons.mp hn with rfl | hn
            · exact hup
            · exact Int32.lt_trans hup ((List.pairwise_cons.mp hincreasing).1 n hn)
      · rw [if_neg hlt]
        exact hnil fetched

/-- If every sum fits, the loop reaches all headers. -/
theorem countsFrom_spec (hfits : Fits headers) (left : Nat) (fetched : Int32) (hnot : 0 ≤ fetched)
    (hle : fetched ≤ headers) (hcount : IsCount headers fetched)
    (hleft : headers.toInt ≤ fetched.toInt + left) :
    (countsFrom headers left fetched).2 = false ∧
      (fetched :: (countsFrom headers left fetched).1).getLast? = some headers := by
  have hlast (h : ¬fetched < headers) : [fetched].getLast? = some headers :=
    congrArg some (Int32.le_antisymm hle (Int32.not_lt.mp h))
  induction left generalizing fetched with
  | zero =>
      refine ⟨rfl, hlast fun hlt => ?_⟩
      have hbelow := Int32.lt_iff_toInt_lt.mp hlt
      omega
  | succ left ih =>
      by_cases hlt : fetched < headers
      · rcases nextCount_spec hfits hnot hlt hcount with ⟨count, hnext, hup, hcle, hcount'⟩
        have hmore := Int32.lt_iff_toInt_lt.mp hup
        rw [countsFrom_succ hlt hnext, List.getLast?_cons_cons]
        exact ih count (Int32.le_trans hnot (Int32.le_of_lt hup)) hcle hcount' (by omega)
          fun h => congrArg some (Int32.le_antisymm hcle (Int32.not_lt.mp h))
      · unfold countsFrom
        rw [if_neg hlt]
        exact ⟨rfl, hlast hlt⟩

/-! ## All counts -/

/-- Without headers there is no turn. -/
theorem headerCounts_of_le (h : headers ≤ 0) : headerCounts headers = ([], false) :=
  countsFrom_of_le h _

/-- The header counts increase and end at the number of headers; without headers there
    are none. None of the sums is too great. -/
theorem headerCounts_spec (hfits : Fits headers) :
    (headerCounts headers).2 = false ∧ (headerCounts headers).1.Pairwise (· < ·) ∧
      (headerCounts headers).1.getLast? = if 0 < headers then some headers else none := by
  by_cases hpos : 0 < headers
  · have hlt : 0 < headers.toInt := Int32.lt_iff_toInt_lt.mp hpos
    have henough : headers.toInt ≤ Int32.toInt 0 + (headers.toInt.toNat : Int) := by
      rw [show Int32.toInt 0 = 0 from rfl]
      omega
    rcases countsFrom_spec hfits headers.toInt.toNat 0 (Int32.le_refl 0) (Int32.le_of_lt hpos)
      (.inr ⟨0, by simp⟩) henough with ⟨hwhole, hlast⟩
    rcases countsFrom_increasing (Int32.le_refl 0 : 0 ≤ (0 : Int32)) headers.toInt.toNat with
      ⟨hincreasing, _⟩
    refine ⟨hwhole, (List.pairwise_cons.mp hincreasing).2, ?_⟩
    rw [if_pos hpos]
    unfold headerCounts
    cases hcounts : (countsFrom headers headers.toInt.toNat 0).1 with
    | nil =>
        rw [hcounts] at hlast
        exact absurd (Option.some.inj hlast) (Int32.ne_of_lt hpos)
    | cons n counts =>
        rw [hcounts, List.getLast?_cons_cons] at hlast
        exact hlast
  · rw [headerCounts_of_le (Int32.not_lt.mp hpos), if_neg hpos]
    exact ⟨rfl, .nil, rfl⟩

/-! ## A sum that is too great -/

section

variable (h : ¬Fits headers) {done : Nat}
include h

end

/-! ## The fetch in the run -/

/-- Nothing is waited for by waiting for ever. -/
theorem not_runsAmong_never {σ : Type} {now : σ → Nat} {others : σ → σ → Prop} {s s' : σ}
    {u : Unit} : ¬ Routine.never.RunsAmong now others s u s' := by
  rintro ⟨_, _, _, hgo, _⟩
  exact absurd hgo Bool.false_ne_true

section

variable {plan : SimulationPlan} (hbroken : (headerCounts plan.headers).2 = true)
  {clock : WallClock} {token : Nat}
  {others : Engine SimulationStage → Engine SimulationStage → Prop}
  {e e' : Engine SimulationStage} {x : Except SyncError Unit}
include hbroken

/-- What is broken off comes to no end but an error of a report before that, among whatever
    others. -/
theorem prepare_of_broken (h : (plan.prepare clock).run.RunsAmong Engine.now others e x e') :
    ∃ err, x = .error err ∧
      (plan.fetchHeaders clock).run.RunsAmong Engine.now others e (.error err) e' := by
  unfold prepare at h
  rcases (Routine.runsAmong_run_bind _ _ _ _ _).mp h with ⟨fetched, e₁, hfetch, h⟩
  cases fetched with
  | error err =>
      rcases h with ⟨rfl, rfl⟩
      exact ⟨err, rfl, hfetch⟩
  | ok u =>
      -- All header counts have been reported, and now it is broken off.
      rw [hbroken] at h
      rcases (Routine.runsAmong_run_bind _ _ _ _ _).mp h with ⟨_, _, hoff, _⟩
      rcases (Routine.runsAmong_bind _ _ _ _ _).mp hoff with ⟨_, _, hoff, _⟩
      rcases (Routine.runsAmong_bind _ _ _ _ _).mp hoff with ⟨_, _, _, hnever⟩
      exact absurd hnever not_runsAmong_never

theorem work_of_broken (h : (plan.work clock token).run.RunsAmong Engine.now others e x e') :
    ∃ err, x = .error err ∧
      (plan.fetchHeaders clock).run.RunsAmong Engine.now others e (.error err) e' := by
  unfold work at h
  rcases (Routine.runsAmong_run_bind _ _ _ _ _).mp h with ⟨prepared, e₁, hprepare, h⟩
  rcases prepare_of_broken hbroken hprepare with ⟨err, rfl, hfetch⟩
  rcases h with ⟨rfl, rfl⟩
  exact ⟨err, rfl, hfetch⟩

end

end SimulationPlan

end ChainSync
