import ChainSync.Proofs.Session.Shares

/-!
# Checked Arithmetic

Snapshots computed with arithmetic that gives up.

The definitions of estimates and snapshots add and divide whole numbers of any size
and floats of any value, so they cannot say that nothing goes wrong on the way. Here
they are computed once more, step by step, with operations on 64 bits that have no
result if it does not fit or if there is nothing to divide by. That both agree says
that every step has a result, and that no step was cut off silently.

Whole numbers are safe for any input: what is cut off at the ends of 64 bits is
divided by at least sixty before anything is added to it, and heights have half as
many bits as their differences may take. Ratios are safe because of what is asked
before: the fraction and the time are above zero when they are divided by, and the
total is then, too (`atLeast_total`). That uses that no negative number of headers
is kept.

## Main definitions

* `Checked.sum`, `Checked.difference`, `Checked.quotient`, `Checked.ratio`: The
  operations.
* `Session.progress?`: The snapshot, computed with them.

## Theorems

* `Estimate.projectedHeight?_eq`, `Estimate.timeRemainingText?_eq`,
  `Estimate.daysBehindText?_eq`: What estimates are made of.
* `Session.estimate?_eq`, `Session.progress?_eq`: Nothing goes wrong.
-/

namespace ChainSync

open Nearness

namespace Checked

/-- A whole number in 64 bits, if it is in their range. -/
def fit (n : Int) : Option Int64 :=
  if Int64.minValue.toInt ≤ n ∧ n ≤ Int64.maxValue.toInt then some (Int64.ofInt n) else none

/-- A sum in 64 bits, unless it overflows. -/
def sum (a b : Int64) : Option Int64 := fit (a.toInt + b.toInt)

/-- A difference in 64 bits, unless it overflows. -/
def difference (a b : Int64) : Option Int64 := fit (a.toInt - b.toInt)

/-- A quotient in 64 bits, unless it overflows or there is nothing to divide by. -/
def quotient (a b : Int64) : Option Int64 :=
  if b = 0 then none else fit (a.toInt.tdiv b.toInt)

/-- The ratio of two floats, unless there is nothing to divide by. -/
def ratio (x y : Float) : Option Float := if y == 0.0 then none else some (x / y)

theorem fit_eq {n : Int} (h : -2 ^ 63 ≤ n) (h' : n < 2 ^ 63) :
    ∃ a, fit n = some a ∧ a.toInt = n := by
  refine ⟨Int64.ofInt n, if_pos ⟨h, ?_⟩, Int64.toInt_ofInt_of_le h h'⟩
  exact Int.le_of_lt_add_one h'

/-- A quotient by more than one is at most half of what is divided. -/
theorem quotient_eq (a : Int64) {b : Int64} (hb : 1 < b.toInt) :
    ∃ q, quotient a b = some q ∧ q.toInt = a.toInt.tdiv b.toInt ∧ q.toInt.natAbs ≤ 2 ^ 62 := by
  have hne : b ≠ 0 := by
    rintro rfl
    exact absurd hb (by decide)
  have hhalf : (a.toInt.tdiv b.toInt).natAbs ≤ a.toInt.natAbs / 2 := by
    rw [Int.natAbs_tdiv]
    exact Nat.div_le_div_left (by omega) (by decide)
  have hlow := a.le_toInt
  have hhigh := a.toInt_lt
  rcases fit_eq (n := a.toInt.tdiv b.toInt) (by omega) (by omega) with ⟨q, hq, hvalue⟩
  exact ⟨q, (if_neg hne).trans hq, hvalue, by omega⟩

theorem ratio_eq (x : Float) {y : Float} {k : Nat} (hy : AtLeast k y) :
    ratio x y = some (x / y) := by
  unfold ratio
  rw [hy.ne_zero]
  rfl

end Checked

open Checked

namespace Estimate

/-- The height the chain must have reached, if the arithmetic holds. -/
def projectedHeight? (now : Int64) (label : String) (timestamp : Int64) (height : Int32) :
    Option Int32 := do
  let blocks ← quotient (elapsed now timestamp) (Int64.ofInt (blockInterval label))
  let projected ← sum height.toInt64 blocks
  return Int32.ofIntClamp projected.toInt

/-- Seconds left in words, if the arithmetic holds. -/
def timeRemainingText? (seconds : Int64) : Option String := do
  let minutes ← quotient seconds 60
  return if 0 < minutes.toInt then toString minutes.toInt ++ " min"
    else toString seconds.toInt ++ " sec"

/-- The lag behind the present in words, if the arithmetic holds. -/
def daysBehindText? (now timestamp : Int64) : Option String := do
  let minutes ← ratio (Float.ofInt (elapsed now timestamp).toInt) 60.0
  let days := daysBehind.roundHalfAway (← ratio minutes 24.0)
  return if days < 1 then "<1 day" else if days = 1 then "1 day" else toString days ++ " days"

theorem projectedHeight?_eq (now : Int64) (label : String) (timestamp : Int64) (height : Int32) :
    projectedHeight? now label timestamp height =
      some (projectedHeight now label timestamp height) := by
  have hinterval : 1 < (Int64.ofInt (blockInterval label)).toInt ∧
      (Int64.ofInt (blockInterval label)).toInt = blockInterval label := by
    unfold blockInterval
    split <;> decide
  rcases quotient_eq (elapsed now timestamp) hinterval.1 with ⟨blocks, hblocks, hvalue, hmax⟩
  have hlow := height.le_toInt
  have hhigh := height.toInt_lt
  rcases fit_eq (n := height.toInt64.toInt + blocks.toInt) (by rw [Int32.toInt_toInt64]; omega)
    (by rw [Int32.toInt_toInt64]; omega) with ⟨projected, hprojected, hsum⟩
  rw [Int32.toInt_toInt64, hvalue, hinterval.2] at hsum
  unfold projectedHeight?
  rw [hblocks, Option.bind_eq_bind, Option.bind_some, sum, hprojected]
  simp only [Option.bind_some, hsum]
  rfl

theorem timeRemainingText?_eq (seconds : Int64) :
    timeRemainingText? seconds = some (timeRemainingText seconds) := by
  rcases quotient_eq seconds (show 1 < (60 : Int64).toInt by decide) with ⟨minutes, h, hvalue, _⟩
  unfold timeRemainingText?
  rw [h, Option.bind_eq_bind, Option.bind_some, hvalue]
  rfl

theorem daysBehindText?_eq (now timestamp : Int64) :
    daysBehindText? now timestamp = some (daysBehindText now timestamp) := rfl

end Estimate

namespace Session

/-- The fraction of headers fetched, if the arithmetic holds. -/
def fraction? (s : Session) (projected : Int32) : Option Float :=
  if Phase.fetchingHeaders.rank < s.phase.rank then some 1.0
  else do
    let missing ← difference projected.toInt64 s.headersStart.toInt64
    if missing.toInt ≤ 0 then return 1.0
    return clampFloat 0.0 1.0 (← ratio (Float.ofInt s.headers.toInt) (Float.ofInt missing.toInt))

/-- The estimate at a point in time, if the arithmetic holds. -/
def estimate? (s : Session) (label : String) (now : Nat) (nowUnix : Int64) :
    Option (Option TimeEstimate) :=
  match s.headersStartedAt with
  | none => some none
  | some started => do
    let stop := s.finishedAt.getD now
    let headersSpent := s.headersSpent started stop
    let height ← Estimate.projectedHeight? nowUnix label s.lastHeaderTime s.headerHeight
    let projected := max height s.peerHeight
    let fraction ← s.fraction? projected
    if fraction ≤ 0.0 || headersSpent ≤ 0.0 then return none
    let headersTime ← ratio headersSpent fraction
    let total := headersTime + headersTime * Estimate.discoveryShare
      + headersTime * Estimate.rescanShare
    let (discoverySpent, rescanSpent) := s.laterSpent stop
    let spent := headersSpent + discoverySpent + rescanSpent
    let left := total - spent
    let remaining := wholeSeconds (if 0.0 < left then left else 0.0)
    let share ← ratio spent total
    return some
      { secondsRemaining := remaining
        timeRemaining := ← Estimate.timeRemainingText? remaining
        daysBehind := ← Estimate.daysBehindText? nowUnix s.lastHeaderTime
        projectedHeight := projected
        totalProgress := percent (share * 100.0) }

/-- What the session shows of an estimate, if the arithmetic holds. -/
def publish? (s : Session) (total : UInt8) (e : TimeEstimate) : Option TimeEstimate :=
  if s.phase = .synced then do
    return { e with
      totalProgress := total
      secondsRemaining := 0
      timeRemaining := ← Estimate.timeRemainingText? 0 }
  else some { e with totalProgress := total }

/-- The snapshot at a point in time, if the arithmetic holds. -/
def progress? (s : Session) (label : String) (now : Nat) (nowUnix : Int64) :
    Option (Progress × Session) := do
  let estimate ← s.estimate? label now nowUnix
  let raw := if s.phase = .synced then 100 else (estimate.map (·.totalProgress)).getD 0
  let total := max raw s.bestProgress
  let published ← estimate.mapM (s.publish? total)
  return ({ s.shown total none with estimate := published }, s.withBest total)

variable {s : Session}

theorem fraction?_eq (s : Session) (projected : Int32) :
    s.fraction? projected = some (s.fraction projected) := by
  unfold fraction? fraction
  by_cases hpast : Phase.fetchingHeaders.rank < s.phase.rank
  · rw [if_pos hpast, if_pos hpast]
  · rw [if_neg hpast, if_neg hpast]
    have h₁ := projected.le_toInt
    have h₂ := projected.toInt_lt
    have h₃ := s.headersStart.le_toInt
    have h₄ := s.headersStart.toInt_lt
    rcases fit_eq (n := projected.toInt64.toInt - s.headersStart.toInt64.toInt)
      (by simp only [Int32.toInt_toInt64]; omega) (by simp only [Int32.toInt_toInt64]; omega) with
      ⟨missing, hmissing, hvalue⟩
    rw [Int32.toInt_toInt64, Int32.toInt_toInt64] at hvalue
    rw [difference, hmissing, Option.bind_eq_bind, Option.bind_some, hvalue]
    by_cases hnone : projected.toInt - s.headersStart.toInt ≤ 0
    · simp only [if_pos hnone]
      rfl
    · simp only [if_neg hnone]
      obtain ⟨d, hd⟩ : ∃ d : Nat, projected.toInt - s.headersStart.toInt = d :=
        Int.eq_ofNat_of_zero_le (by omega)
      have hpos : AtLeast 1 (Float.ofInt (projected.toInt - s.headersStart.toInt)) := by
        rw [hd]
        exact atLeast_ofNat (by omega)
      rw [ratio_eq _ hpos]
      rfl

theorem publish?_eq (s : Session) (total : UInt8) (e : TimeEstimate) :
    s.publish? total e = some (s.publish total e) := by
  unfold publish? publish
  rw [Estimate.timeRemainingText?_eq]
  split <;> rfl

theorem estimate?_eq (hs : 0 ≤ s.headers) (label : String) (now : Nat) (nowUnix : Int64) :
    s.estimate? label now nowUnix = some (s.estimate label now nowUnix) := by
  unfold estimate? estimate
  cases s.headersStartedAt with
  | none => rfl
  | some started =>
      simp only [Option.bind_eq_bind, Option.bind_some, Estimate.projectedHeight?_eq,
        fraction?_eq, Estimate.timeRemainingText?_eq, Estimate.daysBehindText?_eq]
      change (if s.fraction (s.projectedHeight label nowUnix) ≤ 0.0 ||
          s.headersSpent started (s.finishedAt.getD now) ≤ 0.0 then _ else _) =
        some (if s.fraction (s.projectedHeight label nowUnix) ≤ 0.0 ||
          s.headersSpent started (s.finishedAt.getD now) ≤ 0.0 then _ else _)
      by_cases hskip : (s.fraction (s.projectedHeight label nowUnix) ≤ 0.0 ||
          s.headersSpent started (s.finishedAt.getD now) ≤ 0.0 : Bool) = true
      · rw [if_pos hskip, if_pos hskip]
        rfl
      · rw [if_neg hskip, if_neg hskip]
        simp only [Bool.or_eq_true, decide_eq_true_eq, not_or] at hskip
        rcases holds_fraction hs hskip.1 with ⟨v, hv, hmin, hmax⟩
        have hspent : AtLeast 40 (s.headersSpent started (s.finishedAt.getD now)) := by
          refine atLeast_secondsBetween (not_le.mp fun hle => hskip.2 ?_)
          exact secondsBetween_of_le hle
        have hfraction := ratio_eq (s.headersSpent started (s.finishedAt.getD now))
          (AtLeast.value v hv hmin)
        change (ratio _ (s.fraction (s.projectedHeight label nowUnix))).bind _ = _
        rw [hfraction, Option.bind_some]
        simp only [ratio_eq _ (atLeast_total hspent hv hmax), Option.bind_some]
        rfl

theorem progress?_eq (hs : 0 ≤ s.headers) (label : String) (now : Nat) (nowUnix : Int64) :
    s.progress? label now nowUnix = some (s.progress label now nowUnix) := by
  have hpublish : ∀ (total : UInt8) (estimate : Option TimeEstimate),
      estimate.mapM (s.publish? total) = some (estimate.map (s.publish total)) := by
    intro total estimate
    cases estimate with
    | none => rfl
    | some e => simp [publish?_eq]
  unfold progress?
  simp only [estimate?_eq hs, hpublish, Option.bind_eq_bind, Option.bind_some]
  rfl

end Session

end ChainSync
