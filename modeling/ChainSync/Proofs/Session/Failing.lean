import ChainSync.Proofs.Session.Shares

/-!
# Failing while Headers are Fetched

A failure during the header fetch raises the percentage that is shown.

The estimate asks whether the session has come past the header fetch, and takes all
headers for fetched if so. The question is put to the order of phases, in which the
failed session comes last. So the fraction that had been fetched is replaced by one
as soon as the session fails, and the percentage becomes what it is when headers
have just been completed, which is 52 (`percent_headers`). With a smaller fraction
it had been less.

The percentage that is shown does not fall, so it is 52 or what had been shown
before, whichever is greater. Nothing changes if no time has passed since the fetch
began, because there is no estimate then, before the failure or after.

## Main definitions

* `Session.OnlyHeaders`: A session in which nothing but headers has taken time.

## Theorems

* `Session.Coherent.isSome_of_phase`, `Session.Coherent.eq_none_of_ahead`: Which
  phases have been entered.
* `Session.OnlyHeaders.raw_le`: The percentage of such a session.
* `Session.failing_is_progress`: What is shown before and after a failure.
-/

namespace ChainSync

open Nearness

namespace Session

variable {s failed : Session} {started now : Nat} {label : String} {nowUnix : Int64}

/-- The phase a session is in has been entered, unless it has not been begun. -/
theorem Coherent.isSome_of_phase (hs : s.Coherent) {time : Option Nat}
    (hnoted : Noted s.history s.phase time) (hphase : s.phase ≠ .idle) : time.isSome = true := by
  have hmem : s.phase ∈ Phase.idle :: s.history.map (·.target) := by
    rw [← hs.chain]
    exact List.mem_append_right _ (List.mem_singleton.mpr rfl)
  rcases List.mem_map.mp ((List.mem_cons.mp hmem).resolve_left hphase) with ⟨m, hm, htarget⟩
  rw [(hnoted m.time).mpr ⟨m, hm, htarget, rfl⟩]
  rfl

/-- No phase that lies ahead has been entered. -/
theorem Coherent.eq_none_of_ahead (hs : s.Coherent) {p : Phase} {time : Option Nat}
    (hnoted : Noted s.history p time) (hahead : s.phase.rank < p.rank) : time = none := by
  cases time with
  | none => rfl
  | some t =>
      rcases (hnoted t).mp rfl with ⟨m, hm, rfl, _⟩
      have hle := hs.rank_le (List.mem_cons_of_mem _ (List.mem_map_of_mem hm))
      exact absurd hahead (Nat.not_lt.mpr hle)

theorem Reachable.headers_nonneg (hs : s.Reachable) : 0 ≤ s.headers := by
  rcases hs.tells with ⟨trace, htells⟩
  exact htells.counts.headers.2 (Set.mem_insert 0 _)

/-- A session that has only fetched headers so far. -/
structure OnlyHeaders (s : Session) (started : Nat) : Prop where
  started : s.headersStartedAt = some started
  discovery : s.discoveryStartedAt = none
  rescan : s.rescanStartedAt = none
  headers : 0 ≤ s.headers
  phase : s.phase ≠ .synced

theorem OnlyHeaders.raw_eq (hs : s.OnlyHeaders started) (label : String) (now : Nat)
    (nowUnix : Int64) :
    let h := secondsBetween started (s.finishedAt.getD now)
    let f := s.fraction (s.projectedHeight label nowUnix)
    s.raw label now nowUnix = if f ≤ 0.0 || h ≤ 0.0 then 0 else
      percent ((h + 0.0 + 0.0) / (h / f + h / f * Estimate.discoveryShare
        + h / f * Estimate.rescanShare) * 100.0) := by
  intro h f
  unfold raw estimate headersSpent laterSpent
  rw [if_neg hs.phase, hs.started, hs.discovery, hs.rescan]
  simp only [Option.bind_eq_bind, Option.bind_some, Option.or_none, Option.getD_none]
  change ((if f ≤ 0.0 || h ≤ 0.0 then none else some _ : Option TimeEstimate).map _).getD 0 = _
  split <;> rfl

/-- Nothing is shown before any time has passed. -/
theorem OnlyHeaders.raw_eq_zero (hs : s.OnlyHeaders started)
    (hstop : s.finishedAt.getD now ≤ started) : s.raw label now nowUnix = 0 := by
  rw [hs.raw_eq, if_pos]
  simp only [decide_eq_true (secondsBetween_of_le hstop), Bool.or_true]

/-- Once time has passed 52 percent are shown at most, and exactly in a phase that counts all
    headers as fetched. -/
theorem OnlyHeaders.raw_le (hs : s.OnlyHeaders started) (label : String) (nowUnix : Int64)
    (hstop : started < s.finishedAt.getD now)
    (hmax : s.finishedAt.getD now - started < 2 ^ 64 * 10 ^ 9) :
    s.raw label now nowUnix ≤ 52 ∧
      (Phase.fetchingHeaders.rank < s.phase.rank → s.raw label now nowUnix = 52) := by
  rw [hs.raw_eq]
  generalize s.finishedAt.getD now = stop at hstop hmax
  have hspent : ¬secondsBetween started stop ≤ 0.0 := (atLeast_secondsBetween hstop).not_le_zero
  have hnear := near_secondsBetween hstop (by omega)
  have hlow : 1 / 2 ^ 40 ≤ ((stop - started : Nat) : ℚ) / 10 ^ 9 := by
    have : (1 : ℚ) ≤ (stop - started : Nat) := by exact_mod_cast (by omega : 1 ≤ stop - started)
    rw [le_div_iff₀ (by norm_num)]
    linarith
  have hhigh : ((stop - started : Nat) : ℚ) / 10 ^ 9 ≤ 2 ^ 80 := by
    have : ((stop - started : Nat) : ℚ) ≤ 2 ^ 64 * 10 ^ 9 := by exact_mod_cast hmax.le
    rw [div_le_iff₀ (by norm_num)]
    linarith
  constructor
  · by_cases hfraction : s.fraction (s.projectedHeight label nowUnix) ≤ 0.0
    · simp only [hfraction, decide_true, Bool.true_or, if_true]
      decide
    · rcases holds_fraction hs.headers hfraction with ⟨v, hv, hv₁, hv₂⟩
      simp only [hfraction, hspent, decide_false, Bool.or_self, Bool.false_eq_true, if_false]
      exact (percent_headers hnear hlow hhigh hv hv₁ hv₂).1
  · intro hpast
    have hone : ¬(1.0 : Float) ≤ 0.0 := by decide +kernel
    have hfraction : s.fraction (s.projectedHeight label nowUnix) = 1.0 := if_pos hpast
    simp only [hfraction, hone, hspent, decide_false, Bool.or_self, Bool.false_eq_true, if_false]
    exact (percent_headers hnear hlow hhigh holds_one (by norm_num) le_rfl).2 rfl

/-- A failure counts as if all headers had been fetched. -/
theorem failing_is_progress (hs : s.Reachable) (hphase : s.phase = .fetchingHeaders)
    (error : SyncError) (label : String) (now : Nat) (nowUnix : Int64) :
    ∃ started failed, s.headersStartedAt = some started ∧ s.fail error now = .ok failed ∧
      let before := (s.progress label now nowUnix).1.totalProgress
      let after := (failed.progress label now nowUnix).1.totalProgress
      (now ≤ started → after = before) ∧
      (started < now → now - started < 2 ^ 64 * 10 ^ 9 → after = max 52 before) := by
  have hcoherent := hs.coherent
  have hstarted : s.headersStartedAt.isSome = true := by
    refine hcoherent.isSome_of_phase ?_ (by rw [hphase]; decide)
    rw [hphase]
    exact hcoherent.headers
  rcases Option.isSome_iff_exists.mp hstarted with ⟨started, hstarted⟩
  have hactive : s.isActive = true := by rw [isActive, hphase]; rfl
  refine ⟨started, _, hstarted, fail_eq error now hactive, ?_⟩
  set failed := { s.moved .failed error.message now with terminal := some (.ofError error) }
  have hdiscovery : s.discoveryStartedAt = none :=
    hcoherent.eq_none_of_ahead hcoherent.discovery (by rw [hphase]; decide)
  have hrescan : s.rescanStartedAt = none :=
    hcoherent.eq_none_of_ahead hcoherent.rescan (by rw [hphase]; decide)
  have hcan : s.phase.canMoveTo .failed = true := canMoveTo_end hactive rfl
  have hfinished : s.finishedAt = none := (hcoherent.unfinished hcan).1
  have honly : s.OnlyHeaders started :=
    ⟨hstarted, hdiscovery, hrescan, hs.headers_nonneg, by rw [hphase]; decide⟩
  have honly' : failed.OnlyHeaders started :=
    ⟨hstarted, hdiscovery, hrescan, hs.headers_nonneg, show Phase.failed ≠ .synced by decide⟩
  intro before after
  have hbefore : before = max (s.raw label now nowUnix) s.bestProgress := rfl
  have hafter : after = max (failed.raw label now nowUnix) s.bestProgress := rfl
  have hstop : s.finishedAt.getD now = now := by rw [hfinished]; rfl
  have hstop' : failed.finishedAt.getD now = now := rfl
  rw [hbefore, hafter]
  constructor
  · intro hle
    rw [honly.raw_eq_zero (by rwa [hstop]), honly'.raw_eq_zero (by rwa [hstop'])]
  · intro hlt hmax
    have hraw := (honly.raw_le label nowUnix (by rwa [hstop]) (by rwa [hstop])).1
    have hraw' := (honly'.raw_le label nowUnix (by rwa [hstop']) (by rwa [hstop'])).2
      (show Phase.fetchingHeaders.rank < Phase.failed.rank by decide)
    rw [hraw', max_of_le hraw]

/-- Half of the headers have been fetched in ten seconds. To fail then is worth as much as to
    have fetched the other half. -/
theorem failing_at_half_of_headers :
    let s := (start 1 0).run [.begin 0, .report (.beginHeaders 0) 0,
      .report (.fetchedHeaders 0 50 1699985000) 0]
    s.Reachable ∧ s.phase = .fetchingHeaders ∧ ∃ failed,
      s.fail (.storage "disk full") 10000000000 = .ok failed ∧
      (s.progress "mainnet" 10000000000 1700000000).1.totalProgress = 26 ∧
      (failed.progress "mainnet" 10000000000 1700000000).1.totalProgress = 52 := by
  intro s
  have hs : s.Reachable := ⟨1, 0, _, rfl⟩
  have hphase : s.phase = .fetchingHeaders := by decide
  rcases failing_is_progress hs hphase (.storage "disk full") "mainnet" 10000000000 1700000000 with
    ⟨started, failed, hstarted, hfail, _, hafter⟩
  have hzero : started = 0 := (Option.some.inj hstarted).symm
  have hbefore : (s.progress "mainnet" 10000000000 1700000000).1.totalProgress = 26 := by
    decide +kernel
  refine ⟨hs, hphase, failed, hfail, hbefore, ?_⟩
  rw [hafter (by omega) (by omega), hbefore]
  decide

end Session

end ChainSync
