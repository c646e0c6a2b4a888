import ChainSync.Proofs.Rescan.Untaped
import ChainSync.Proofs.Simulation.Trace

/-!
# The Blocks of a Simulation

Which blocks the rescan of a simulation asks for.

The rescan starts so many blocks below the last header as are to be rescanned, and it goes
through the last header. Both ends belong to its range, so it asks for one block more than
that. None of the two parts is wrong by itself, and nothing that is told of a run gives
their disagreement away.

The calls to the scanner are written on a tape. That the work on tape is the work, but for
the tape, is `shows_tapedWork`; with it, what is known of the work among others holds of the
work on tape as well. It either comes through the whole range or is stopped by a
cancellation or a deadline, since there is nothing else that a simulation could fail for.

## Main definitions

* `SimulationPlan.tapedWork`: The work with the calls of its rescan written down.

## Theorems

* `SimulationPlan.shows_tapedWork`: The work on tape shows the work.
* `SimulationPlan.writes_tapedWork`: What it asks for.
* `SimulationPlan.toInt_heights`: The heights of the rescan.
* `CommandLine.uncancelled_rescan_scans_one_block_more`: All of it, from the start on.
-/

namespace ChainSync

open Routine Engine
open Coordinator (Derivation)

namespace SimulationPlan

variable {plan : SimulationPlan} {clock : WallClock} {token : Nat} {traces : List Event → Prop}
  {sync : Derivation} {ds : List Derivation} {e e' : Engine SimulationStage}

/-! ## The heights -/

/-- As many blocks as are to be rescanned, and the one before them. -/
theorem toInt_heights (plan : SimulationPlan) (hnot : 0 ≤ plan.rescanBlocks)
    (hle : plan.rescanBlocks ≤ plan.headers) :
    plan.heights.map Int32.toInt = (List.range (plan.rescanBlocks.toInt.toNat + 1)).map
      fun i : Nat => plan.headers.toInt - plan.rescanBlocks.toInt + (i : Int) := by
  rw [Int32.le_iff_toInt_le] at hnot hle
  have hheaders := plan.headers.toInt_lt
  have hzero : Int32.toInt 0 = 0 := rfl
  rw [hzero] at hnot
  -- There is no need to clamp the start, and it is not negative.
  have hstart : plan.rescanStart.toInt = plan.headers.toInt - plan.rescanBlocks.toInt := by
    have hmin : Int32.minValue.toInt = -2147483648 := rfl
    have hmax : Int32.maxValue.toInt = 2147483647 := rfl
    rw [rescanStart, toInt_max, Int32.toInt_ofIntClamp (by omega) (by omega), hzero]
    omega
  have hlength : plan.heights.length = plan.rescanBlocks.toInt.toNat + 1 := by
    rw [heights, heightsFrom, List.length_map, List.length_range, blockCount, hstart]
    omega
  rw [plan.heights_spec.1, hlength, hstart]

/-! ## The work on tape -/

/-- The rescan gets its handle, beside the tape. -/
def beginTaped (now : Nat) (tape : Taped SimulationStage) : Taped SimulationStage :=
  { tape with own := tape.own.beginRescan now }

/-- The work with the calls of its rescan written down. What comes before the rescan knows
    nothing of the tape. -/
def tapedWork (plan : SimulationPlan) (clock : WallClock) (token : Nat) :
    ExceptT SyncError (Routine (Engine (Taped SimulationStage))) Unit := do
  ExceptT.mk ((plan.prepare clock).run.lift untaped retaped)
  ExceptT.mk (plan.rescanBy plan.scan.taped bridge.taped beginTaped token)

/-- The work on tape shows the work. -/
theorem shows_tapedWork (plan : SimulationPlan) (clock : WallClock) (token : Nat) :
    Shows untaped (plan.tapedWork clock token).run (plan.work clock token).run := by
  have hrescan : Shows untaped (plan.rescanBy plan.scan.taped bridge.taped beginTaped token)
      (plan.rescanLast token) := by
    refine (shows_perform fun _ => rfl).bind fun handle => ?_
    refine Shows.ensuring (fun _ => rfl) ((shows_rescan handle _ _).bind fun x => ?_)
    cases x with
    | ok outcome => exact .done _
    | error p => exact .done _
  refine (shows_lift untaped_retaped (plan.prepare clock).run).bind fun prepared => ?_
  cases prepared with
  | ok u => exact hrescan
  | error err => exact .done _

/-- The work asks for heights of the rescan, the first ones first, and for all of them if it
    comes to its end without an error. -/
theorem writes_tapedWork (plan : SimulationPlan) (clock : WallClock) (token : Nat) :
    (plan.tapedWork clock token).run.Writes calls
      (fun w x => w.filterMap ScanCall.asked? <+: plan.heights ∧
        (x = .ok () → w.filterMap ScanCall.asked? = plan.heights))
      (fun _ => True) [] := by
  have hrescan : (plan.rescanBy plan.scan.taped bridge.taped beginTaped token).Writes calls
      (fun w x => w.filterMap ScanCall.asked? <+: plan.heights ∧
        (x = .ok () → w.filterMap ScanCall.asked? = plan.heights))
      (fun _ => True) [] := by
    have hderive : (perform fun e : Engine (Taped SimulationStage) =>
        (e.modifyOwn (beginTaped e.now)).derive token plan.rescanTimeout).Writes calls
        (fun w _ => w = []) (fun _ => True) [] := fun _ => ⟨[], (List.append_nil _).symm, rfl⟩
    refine hderive.bind fun w handle hw => ?_
    rw [hw]
    have hdrop (e : Engine (Taped SimulationStage)) : (e.drop handle).calls = e.calls := rfl
    refine Writes.ensuring hdrop ?_
    refine (writes_calls handle plan.rescanStart plan.headers).bind fun w x hw => ?_
    rcases hw.asked with ⟨hfront, hall⟩
    cases x with
    | error p => exact ⟨hfront, fun h => by simp at h⟩
    | ok outcome =>
        refine ⟨hfront, fun h => ?_⟩
        -- Only an outcome that has come through the target is no error.
        cases outcome with
        | completed last => exact hall last rfl
        | cancelled last => simp [ofOutcome] at h
        | failed code message => cases code <;> simp [ofOutcome] at h
  have hprepare : ((plan.prepare clock).run.lift untaped retaped).Writes calls
      (fun w _ => w = []) (fun _ => True) [] :=
    writes_lift calls_retaped (fun _ => rfl) trivial _
  refine hprepare.bind fun w prepared hw => ?_
  rw [hw]
  cases prepared with
  | ok u => exact hrescan
  | error err => exact ⟨List.nil_prefix, fun h => by simp at h⟩

/-! ## Runs -/

/-- A rule under which others do what may come from outside. -/
theorem suits_amid : Suits traces true sync (amid (Outside true)) where
  mono := isMono_amid _
  stable := fun _ _ _ _ hout h e₁ he₁ => h e₁ (hout.trans he₁)
  upholds := fun _ _ =>
    { between := fun hout h i => (h i).outside hout
      waits := fun _ h hK e₁ hout => hK e₁ fun i => (h i).outside hout }

/-- A run of the work succeeds, or a cancellation or a deadline has stopped it. -/
theorem cancelled_of_runsAmong_work (hsync : sync ∈ ds) (hroot : sync.parent = 0)
    (h : ∀ i, Going (plan.trace (clock i)) true sync false none ds (plan.reports (clock i)) e)
    {x : Except SyncError Unit}
    (hrun : (plan.work clock sync.token).run.RunsAmong now (Outside true) e x e') :
    x = .ok () ∨ ∃ err, x = .error err ∧ err.isCancellation = true := by
  have htrans (e₁ e₂ e₃ : Engine SimulationStage) : e₁.Outside true e₂ → e₂.Outside true e₃ →
      e₁.Outside true e₃ := Outside.trans
  cases hfits : (headerCounts plan.headers).2 with
  | true =>
      -- The run would be broken off, and no report before that is an error.
      rcases work_of_broken hfits hrun with ⟨err, rfl, hfetch⟩
      have hreports : (plan.fetchHeaders clock).run.Surely (Outside true) (amid (Outside true))
          (fun x _ => x = .ok ()) e := surely_fetchHeaders suits_amid hsync h fun _ _ _ => rfl
      exact .inl (hreports.of_runsAmong htrans hfetch)
  | false =>
      have hdue := (surely_work suits_amid hsync hroot hfits (fun _ _ hdue => hdue)
        h).of_runsAmong htrans hrun
      cases x with
      | ok u => exact .inl rfl
      | error err =>
          refine .inr ⟨err, rfl, err.isCancellation_iff.mpr ?_⟩
          exact hdue.2.imp And.left And.left

/-- Nobody outside writes on the tape. -/
theorem calls_outside (e e' : Engine (Taped SimulationStage)) (h : e.Outside true e') :
    e'.calls = e.calls := congrArg Taped.calls h.own

/-- What comes from outside to the engine with the tape comes to the one without it. -/
theorem outside_untaped {e e' : Engine (Taped SimulationStage)} (h : e.Outside true e') :
    e.untaped.Outside true e'.untaped :=
  ⟨h.coordinator, h.controller, congrArg Taped.own h.own, h.slot⟩

end SimulationPlan

namespace CommandLine

open SimulationPlan

/-- A simulation that has been started asks its scanner for the heights of its rescan, the
    first ones first. Unless a cancellation or a deadline stops it, it asks for all of them:
    as many blocks below the last header as are to be rescanned, and that header as well,
    which is one block more. -/
theorem uncancelled_rescan_scans_one_block_more (o : SimulateOptions) (clock : WallClock) :
    let plan := o.plan o.peers.length
    (0 ≤ o.rescanBlocks → o.rescanBlocks ≤ o.headers →
      plan.heights.map Int32.toInt = (List.range (o.rescanBlocks.toInt.toNat + 1)).map
        fun i : Nat => o.headers.toInt - o.rescanBlocks.toInt + (i : Int)) ∧
    (∀ token, Shows untaped (plan.tapedWork clock token).run (plan.work clock token).run) ∧
    ∀ e₀ start e x e', o.fresh.Outside true e₀ → e₀.start o.config 0 = (.ok start, e) →
      (plan.tapedWork clock ((e.tokenOf? start.handle).getD 0)).run.RunsAmong now (Outside true)
        e.withTape x e' →
      (x = .ok () ∧ e'.calls.filterMap ScanCall.asked? = plan.heights) ∨
        ∃ err, x = .error err ∧ err.isCancellation = true ∧
          e'.calls.filterMap ScanCall.asked? <+: plan.heights := by
  intro plan
  refine ⟨plan.toInt_heights, plan.shows_tapedWork clock,
    fun e₀ start e x e' hout hstart hrun => ?_⟩
  rcases o.config.accepts_or_refused with ⟨addresses, haccepts, _⟩ | ⟨_, _, _, hrefused⟩
  · rcases SimulateOptions.underway hout haccepts with ⟨id, e₁, hstart₁, htoken, hnow, hunderway⟩
    rw [hstart] at hstart₁
    rcases Prod.mk.inj hstart₁ with ⟨hanswer, rfl⟩
    rw [Except.ok.inj hanswer, htoken, Option.getD_some] at hrun
    -- What the tape says of the run.
    rcases (plan.writes_tapedWork clock _).run calls_outside hrun with
      ⟨entries, hcalls, hfront, hall⟩
    rw [List.nil_append, ← List.nil_append entries, ← e.calls_withTape, ← hcalls] at hfront hall
    -- What is known of the same run without it.
    have hclock (e : Engine (Taped SimulationStage)) : e.untaped.now = e.now := rfl
    rcases (plan.shows_tapedWork clock _).runsAmong hclock Outside.refl Outside.trans
      (fun _ _ => outside_untaped) (.refl e) hrun with ⟨e₂, hplain, _⟩
    have hsince : (e₀.coordinator.next 0 o.config.syncTimeout).time ≤ e.now := hnow.symm.le
    have hgoing (i : Nat) : Going (plan.trace (clock i)) true _ false none _
        (plan.reports (clock i)) e := ⟨hunderway plan (clock i), hsince, .inl rfl⟩
    rcases cancelled_of_runsAmong_work (List.mem_singleton.mpr rfl) rfl hgoing hplain with
      rfl | ⟨err, rfl, hcancelled⟩
    · exact .inl ⟨rfl, hall rfl⟩
    · exact .inr ⟨err, rfl, hcancelled, hfront⟩
  · -- With a bad address there is no start.
    rcases SimulateOptions.start_refused hout hrefused with ⟨e₁, hstart₁, _⟩
    rw [hstart] at hstart₁
    exact absurd (Prod.mk.inj hstart₁).1 (by simp only [reduceCtorEq, not_false_eq_true])

/-- A simulation of one header without a block to be rescanned, which scans one. -/
theorem rescan_of_no_blocks_scans_one_block :
    let o : SimulateOptions :=
      { network := .testnet, peers := [], headers := 1, rescanBlocks := 0, step := 0
        timeout := none, rescanTimeout := none, logFilter := .info, logDir := none }
    (0 ≤ o.rescanBlocks ∧ o.rescanBlocks ≤ o.headers) ∧ o.fresh.Outside true o.fresh ∧
    ∃ start e e', o.fresh.start o.config 0 = (.ok start, e) ∧
      ((o.plan 0).tapedWork (fun _ => 0) ((e.tokenOf? start.handle).getD 0)).run.RunsAmong now
        (Outside true) e.withTape (.ok ()) e' ∧
      (e'.calls.filterMap ScanCall.asked?).map Int32.toInt = [1] := by
  intro o
  have hstart : o.fresh.start o.config 0 =
      (.ok { session := 1, peers := [], handle := 1 }, (o.fresh.start o.config 0).2) :=
    Prod.ext rfl rfl
  generalize hplayed : run none ((o.plan 0).tapedWork (fun _ => 0)
    (((o.fresh.start o.config 0).2.tokenOf? 1).getD 0)).run (o.fresh.start o.config 0).2.withTape =
    played
  have hok : played.1 = some (.ok ()) := by
    rw [← hplayed]
    decide +kernel
  have hrun := runsAmong_outside_of_run (hplayed.trans (Prod.ext hok rfl))
  rcases uncancelled_rescan_scans_one_block_more o (fun _ => 0) with ⟨hheights, _, hruns⟩
  rcases hruns o.fresh _ _ _ _ (.refl _) hstart hrun with ⟨_, hall⟩ | ⟨err, herr, _⟩
  · refine ⟨⟨by decide, by decide⟩, .refl _, _, _, _, hstart, hrun, ?_⟩
    rw [hall]
    exact hheights (by decide) (by decide)
  · exact absurd herr (by simp)

end CommandLine

end ChainSync
