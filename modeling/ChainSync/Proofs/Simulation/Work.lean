import ChainSync.Proofs.Simulation.Steps

/-!
# The Work of a Simulation

A simulation comes to its end, with all its reports made or with an excuse.

The work is followed through its routine, from one wait to the next. Wherever it waits
it may be given up, by the handle of the sync and, while a block is scanned, by that of
the rescan as well; the cleanup then leaves nothing behind. All that is needed of the
rule for the waits is that a simulation goes on after each of them (`Suits`). It does so
under the handle of the sync, where it is calm after every wait, since the handle has
been looked at.

Before the clock on the wall has been read for the times of the headers, what holds of a
simulation holds for each of the traces that it may still come to; afterwards it is one
of them.

## Main definitions

* `SimulationPlan.Suits`: A rule under which a simulation goes on.

## Theorems

* `SimulationPlan.surely_makeReports`, `SimulationPlan.surely_fetchHeaders`,
  `SimulationPlan.surely_scanFrom`, `SimulationPlan.surely_rescan`: The parts of the work.
* `SimulationPlan.surely_work`: All of it.
* `SimulationPlan.surely_drive`: The work under its handle, with the end of the session.
-/

namespace ChainSync

namespace SimulationPlan

open Routine Engine
open Coordinator (Derivation)

variable {plan : SimulationPlan} {clock : WallClock} {traces : List Event → Prop}
  {whole : List Event} {taken hasty : Bool} {began : Option Nat} {sync : Derivation}
  {ds : List Derivation} {rest : List Report} {e : Engine SimulationStage}
  {rule : WaitRule (Engine SimulationStage)}

/-- A rule for waits under which a simulation goes on after each of them, whichever traces
    it may come to. -/
structure Suits (traces : List Event → Prop) (hasty : Bool) (sync : Derivation)
    (rule : WaitRule (Engine SimulationStage)) : Prop where
  mono : rule.IsMono
  stable : rule.IsStable (Outside hasty)
  upholds : ∀ {whole : Nat → List Event} {taken began ds} {rest : Nat → List Report},
    (∀ i, traces (whole i)) → sync ∈ ds → Upholds (Outside hasty) rule Tidy fun e =>
      ∀ i, Going (whole i) hasty sync taken began ds (rest i) e

theorem Suits.cleanedUp (hrule : Suits traces hasty sync rule)
    {f : Engine SimulationStage → Engine SimulationStage} (hf : Tidy f) :
    Suits traces hasty sync (rule.cleanedUp f) where
  mono := hrule.mono.cleanedUp f
  stable := hrule.stable.cleanedUp f
  upholds := fun hwhole hsync => (hrule.upholds hwhole hsync).cleanedUp hf.comp

/-- The same for a single trace. -/
theorem Suits.upholds_one (hrule : Suits traces hasty sync rule) (hwhole : traces whole)
    (hsync : sync ∈ ds) :
    Upholds (Outside hasty) rule Tidy (Going whole hasty sync taken began ds rest) := by
  have hupholds : Upholds (Outside hasty) rule Tidy fun e =>
      ∀ _ : Nat, Going whole hasty sync taken began ds rest e :=
    hrule.upholds (fun _ => hwhole) hsync
  simpa only [forall_const] using hupholds

/-! ## Reports -/

/-- Reports that are made one after the other are all taken. -/
theorem surely_makeReports (hrule : Suits traces hasty sync rule) {whole : Nat → List Event}
    (hwhole : ∀ i, traces (whole i)) (hsync : sync ∈ ds) {rest : Nat → List Report}
    {K : Except SyncError Unit → Engine SimulationStage → Prop} (reports : List StagedReport)
    (h : ∀ i, Going (whole i) hasty sync taken began ds (reports.map (·.report) ++ rest i) e)
    (hK : ∀ e, (∀ i, Going (whole i) hasty sync taken began ds (rest i) e) → K (.ok ()) e) :
    (plan.makeReports clock reports).run.Surely (Outside hasty) rule K e := by
  induction reports generalizing e with
  | nil => exact hK e h
  | cons r reports ih =>
      -- What follows the report itself, last things first.
      have hpause (e : Engine SimulationStage) (h : ∀ i, Going (whole i) hasty sync taken began ds
          (reports.map (·.report) ++ rest i) e) :
          (if r.pause = true then do
              liftM plan.pauseStep
              plan.makeReports clock reports
            else plan.makeReports clock reports : SimulationWork Unit).run.Surely
            (Outside hasty) rule K e := by
        split
        · rw [surely_run_bind, surely_run_lift]
          exact surely_sleep (hrule.upholds hwhole hsync) tidy_id h fun e h => ih h
        · exact ih h
      -- The report is taken, and shown or not.
      unfold makeReports
      rw [surely_run_bind]
      intro e₁ he₁
      have hreport (i : Nat) := ((h i).outside he₁).report
      simp only [(hreport 0).1]
      change Surely (Outside hasty) rule K (ExceptT.run (ite _ _ _)) _
      split
      · rw [surely_run_bind, surely_run_lift]
        exact fun e₂ he₂ => hpause _ fun i => ((hreport i).2.outside he₂).showProgress clock
      · exact hpause _ fun i => (hreport i).2

/-- The same for a single trace. -/
theorem surely_makeReports_one (hrule : Suits traces hasty sync rule) (hwhole : traces whole)
    (hsync : sync ∈ ds) {K : Except SyncError Unit → Engine SimulationStage → Prop}
    (reports : List StagedReport)
    (h : Going whole hasty sync taken began ds (reports.map (·.report) ++ rest) e)
    (hK : ∀ e, Going whole hasty sync taken began ds rest e → K (.ok ()) e) :
    (plan.makeReports clock reports).run.Surely (Outside hasty) rule K e :=
  surely_makeReports hrule (fun _ : Nat => hwhole) hsync reports (fun _ => h)
    fun e h => hK e (h 0)

/-- The headers are reported with the times that the clock on the wall has given. -/
theorem surely_fetchHeaders (hrule : Suits (plan.tracesBy clock) hasty sync rule)
    (hsync : sync ∈ ds) {K : Except SyncError Unit → Engine SimulationStage → Prop}
    (h : ∀ i, Going (plan.trace (clock i)) hasty sync taken began ds (plan.reports (clock i)) e)
    (hK : ∀ i e, Going (plan.trace (clock i)) hasty sync taken began ds
      (discovery.map (·.report) ++ plan.heights.map .rescanProgress) e → K (.ok ()) e) :
    (plan.fetchHeaders clock).run.Surely (Outside hasty) rule K e := by
  unfold fetchHeaders
  rw [surely_run_bind]
  refine surely_makeReports hrule (fun i => ⟨i, rfl⟩) hsync plan.approach h fun e h => ?_
  -- With the reading it is settled which trace it is.
  rw [surely_run_bind, surely_run_lift]
  intro e₁ he₁
  exact surely_makeReports_one hrule ⟨_, rfl⟩ hsync (plan.headerReports (clock e₁.instant))
    ((h e₁.instant).outside he₁) (hK e₁.instant)

/-! ## The rescan -/

/-- What a rescan means for the run when it has come to its end. -/
def Ends (traces : List Event → Prop) (hasty : Bool) (since : Nat)
    (timeout rescanTimeout : Option Nat) (x : Except Panic RescanOutcome) (e : Engine SimulationStage) : Prop :=
  ∃ outcome, x = .ok outcome ∧ Due traces hasty since timeout rescanTimeout (ofOutcome outcome) e

theorem ends_completed {since : Nat} {timeout rescanTimeout : Option Nat} (hwhole : traces whole)
    (height : Int32) (h : Going whole hasty sync taken began ds [] e) :
    Ends traces hasty since timeout rescanTimeout (.ok (.completed height)) e :=
  ⟨_, rfl, whole, hwhole, h.underway.expects⟩

/-- A rescan that has been stopped hands the code of the reason on. -/
theorem ends_stopped {since : Nat} {timeout rescanTimeout : Option Nat} {reason : SyncError}
    (h : Due traces hasty since timeout rescanTimeout (.error reason) e) :
    Ends traces hasty since timeout rescanTimeout (.ok (.ofError reason)) e := by
  have hcode : reason.code = .cancelled ∨ reason.code = .deadlineExceeded :=
    h.2.imp And.left And.left
  refine ⟨_, rfl, ?_⟩
  rcases hcode with hcode | hcode
  · have heq : ofOutcome (.ofError reason) = .error (.cancelled reason.message) := by
      simp only [RescanOutcome.ofError, hcode, ofOutcome]
    rw [heq]
    exact ⟨h.1, h.2.mono hcode.symm rfl id (Nat.le_refl _)⟩
  · have heq : ofOutcome (.ofError reason) = .error .deadlineExceeded := by
      simp only [RescanOutcome.ofError, hcode, ofOutcome]
    rw [heq]
    exact ⟨h.1, h.2.mono hcode.symm rfl id (Nat.le_refl _)⟩

/-- The end of a rescan is told to nobody but the journal. -/
theorem outside_tell (outcome : RescanOutcome) (e : Engine SimulationStage) :
    e.Outside hasty (outcome.tell bridge e) := by
  cases outcome <;> exact outside_note _ _

section

variable {rescan : Derivation} (hrule : Suits traces hasty sync rule) (hwhole : traces whole)
  (hsync : sync ∈ ds) (hroot : sync.parent = 0) (hrescan : rescan ∈ ds)
  (hbelow : rescan.parent = sync.token)
include hrule hwhole hsync hroot hrescan hbelow

/-- The loop over the heights, by induction on the heights that are left. -/
theorem surely_scanFrom {target : Int32} (left : Nat) (height : Int32)
    (h : Going whole hasty sync taken (some rescan.time) ds
      ((heightsFrom height left).map .rescanProgress) e) :
    (scanFrom plan.scan bridge rescan.id target left height).Surely (Outside hasty) rule
      (Ends traces hasty sync.time sync.timeout rescan.timeout) e := by
  induction left generalizing e height with
  | zero => exact ends_completed hwhole target h
  | succ left ih =>
      rw [heightsFrom_succ, List.map_cons] at h
      -- A rescan that is stopped, here or at a wait, is due with the reason.
      have hgone {e : Engine SimulationStage} {reason : SyncError}
          (h : Going whole hasty sync taken (some rescan.time) ds
            (.rescanProgress height :: (heightsFrom (height + 1) left).map .rescanProgress) e)
          (hstop : stopReason rescan.id e = some reason) :
          Due traces hasty sync.time sync.timeout rescan.timeout (.error reason) e :=
        ⟨⟨_, _, hwhole, h.underway.expects⟩, h.excused hsync hroot hrescan hbelow hstop⟩
      change (Routine.bind _ _).Surely _ _ _ _
      rw [surely_bind]
      refine surely_untilStopped (hrule.upholds_one hwhole hsync) tidy_id h
        (fun e reason h hstop => ends_stopped (hgone h hstop)) fun e h _ => ?_
      change (Routine.bind (sleep plan.blockTime) _).Surely _ _ _ _
      rw [surely_bind]
      refine surely_sleep ((hrule.upholds_one hwhole hsync).givenUp fun htidy h hstop => ?_)
        tidy_id h fun e h => ?_
      · exact ends_stopped ((hgone h hstop).tidy htidy)
      · -- The block has been scanned, and its height is the next report.
        intro e₁ he₁
        rcases (h.outside he₁).reportScan with ⟨hnone, hgoing⟩
        simp only [hnone]
        exact ih (height + 1) hgoing

theorem surely_scanRange {start target : Int32}
    (h : Going whole hasty sync taken (some rescan.time) ds
      ((heightsFrom start (blockCount start target)).map .rescanProgress) e) :
    (scanRange plan.scan bridge rescan.id start target).Surely (Outside hasty) rule
      (Ends traces hasty sync.time sync.timeout rescan.timeout) e := by
  have hscan (e : Engine SimulationStage) (h : Going whole hasty sync taken (some rescan.time) ds
      ((heightsFrom start (blockCount start target)).map .rescanProgress) e) :
      (scanFrom plan.scan bridge rescan.id target (blockCount start target) start).Surely
        (Outside hasty) rule (Ends traces hasty sync.time sync.timeout rescan.timeout) e :=
    surely_scanFrom hrule hwhole hsync hroot hrescan hbelow _ start h
  unfold scanRange
  split
  · exact fun e₁ he₁ => hscan _ ((h.outside he₁).outside (outside_note _ _))
  · exact hscan e h

theorem surely_rescan {start target : Int32}
    (h : Going whole hasty sync false (some rescan.time) ds
      ((heightsFrom start (blockCount start target)).map .rescanProgress) e) :
    (Engine.rescan plan.scan bridge rescan.id start target).Surely (Outside hasty) rule
      (Ends traces hasty sync.time sync.timeout rescan.timeout) e := by
  rw [rescan_eq]
  intro e₁ he₁
  rcases (h.outside he₁).claim start target with ⟨id, hid, hgoing⟩
  simp only [hid]
  -- With the slot taken, whatever ends the rescan gives it back.
  unfold held
  rw [surely_ensuring]
  have hrule' := hrule.cleanedUp tidy_release
  refine surely_within hrule'.mono hrule'.stable ?_ ?_
  · exact fun x e e' hout hend e₂ he₂ => hend e₂ (hout.trans he₂)
  change (Routine.bind _ _).Surely _ _ _ _
  rw [surely_bind]
  refine Surely.mono hrule'.mono (fun x e hend => ?_)
    (surely_scanRange hrule' hwhole hsync hroot hrescan hbelow hgoing)
  rcases hend with ⟨outcome, rfl, hdue⟩
  intro e₂ he₂ e₃ he₃
  have htold : e.Outside hasty e₃ :=
    he₂.trans ((outside_note e₂ _).trans ((outside_tell outcome _).trans he₃))
  exact ⟨outcome, rfl, (hdue.outside htold).tidy tidy_release⟩

end

/-! ## All of the work -/

section

variable (hrule : Suits traces hasty sync rule) (hsync : sync ∈ ds) (hroot : sync.parent = 0)
  {K : Except SyncError Unit → Engine SimulationStage → Prop}
  (hK : ∀ outcome e, Due traces hasty sync.time sync.timeout plan.rescanTimeout outcome e →
    K outcome e)
include hrule hsync hroot hK

/-- The rescan with its handle, which is dropped at the end. -/
theorem surely_rescanLast (hwhole : traces whole)
    (h : Going whole hasty sync false none ds (plan.heights.map .rescanProgress) e) :
    (plan.rescanLast sync.token).Surely (Outside hasty) rule K e := by
  intro e₁ he₁
  rcases (h.outside he₁).derive hsync plan.rescanTimeout with
    ⟨rescan, hid, hbelow, htimeout, hgoing⟩
  simp only [hid]
  -- The handle of the rescan is dropped, however it ends.
  change (Routine.ensuring _ _).Surely _ _ _ _
  rw [surely_ensuring]
  have hrule' := hrule.cleanedUp (tidy_drop rescan.id)
  change (Routine.bind _ _).Surely _ _ _ _
  rw [surely_bind]
  refine Surely.mono hrule'.mono (fun x e hends => ?_)
    (surely_rescan hrule' hwhole (List.mem_append_left _ hsync) hroot
      (List.mem_append_right _ (List.mem_singleton.mpr rfl)) hbelow hgoing)
  rcases hends with ⟨outcome, rfl, hdue⟩
  intro e₂ he₂
  rw [htimeout] at hdue
  exact hK _ _ ((hdue.outside he₂).tidy (tidy_drop rescan.id))

end

section

variable (hrule : Suits (plan.tracesBy clock) hasty sync rule) (hsync : sync ∈ ds)
include hrule hsync

/-- The work up to the rescan leaves the rescan to be reported. -/
theorem surely_prepare (hfits : (headerCounts plan.headers).2 = false)
    {K : Except SyncError Unit → Engine SimulationStage → Prop}
    (h : ∀ i, Going (plan.trace (clock i)) hasty sync false none ds (plan.reports (clock i)) e)
    (hK : ∀ i e, Going (plan.trace (clock i)) hasty sync false none ds
      (plan.heights.map .rescanProgress) e → K (.ok ()) e) :
    (plan.prepare clock).run.Surely (Outside hasty) rule K e := by
  unfold prepare
  rw [surely_run_bind, hfits]
  refine surely_fetchHeaders hrule hsync h fun i e h => ?_
  exact surely_makeReports_one hrule ⟨i, rfl⟩ hsync discovery h (hK i)

theorem surely_work (hroot : sync.parent = 0) (hfits : (headerCounts plan.headers).2 = false)
    {K : Except SyncError Unit → Engine SimulationStage → Prop}
    (hK : ∀ outcome e, Due (plan.tracesBy clock) hasty sync.time sync.timeout plan.rescanTimeout
      outcome e → K outcome e)
    (h : ∀ i, Going (plan.trace (clock i)) hasty sync false none ds (plan.reports (clock i)) e) :
    (plan.work clock sync.token).run.Surely (Outside hasty) rule K e := by
  unfold work
  rw [surely_run_bind]
  exact surely_prepare hrule hsync hfits h fun i e h =>
    surely_rescanLast hrule hsync hroot hK ⟨i, rfl⟩ h

end

/-! ## The work under its handle -/

/-- What an observer has heard in the end and what the drive answers, in a state that
    accounts for it: all of the trace and that the sync is done, or a beginning of the
    trace and one error. -/
def Ended (whole : List Event) (hasty : Bool) (since : Nat) (timeout rescanTimeout : Option Nat)
    (answer : Except SyncError Unit) (e : Engine SimulationStage) : Prop :=
  (answer = .ok () ∧ e.controller.heard 0 = whole ++ [.synced true]) ∨
    ∃ told err, told <+: whole ∧ answer = .error err ∧
      e.controller.heard 0 = told ++ [.syncError err.code err] ∧
      Excused hasty since timeout rescanTimeout err e

theorem Ended.outside {since : Nat} {timeout rescanTimeout : Option Nat}
    {answer : Except SyncError Unit} {e' : Engine SimulationStage}
    (h : Ended whole hasty since timeout rescanTimeout answer e) (hout : e.Outside hasty e') :
    Ended whole hasty since timeout rescanTimeout answer e' := by
  unfold Ended
  rw [hout.controller]
  refine h.imp_right ?_
  rintro ⟨told, err, hprefix, hanswer, hheard, hexcused⟩
  exact ⟨told, err, hprefix, hanswer, hheard,
    hexcused.mono rfl hout.own hout.coordinator.grows.fired hout.coordinator.now_le⟩

/-- The end of the session is heard of once. -/
theorem Due.conclude {since : Nat} {timeout rescanTimeout : Option Nat}
    {outcome : Except SyncError Unit}
    (h : Due traces hasty since timeout rescanTimeout outcome e) :
    ∃ whole, traces whole ∧ Ended whole hasty since timeout rescanTimeout
      (e.conclude (error? outcome)).1 (e.conclude (error? outcome)).2 := by
  cases outcome with
  | ok u =>
      rcases h with ⟨whole, hwhole, hexpects⟩
      rcases hexpects.conclude none e.instant with ⟨hanswer, hheard⟩
      have hall : e.controller.heard 0 = whole := by simpa using hexpects.heard
      exact ⟨whole, hwhole, .inl ⟨hanswer, hall ▸ hheard⟩⟩
  | error err =>
      rcases h with ⟨⟨whole, rest, hwhole, hexpects⟩, hexcused⟩
      rcases hexpects.conclude (some err) e.instant with ⟨hanswer, hheard⟩
      exact ⟨whole, hwhole, .inr ⟨_, err, ⟨_, hexpects.heard⟩, hanswer, hheard,
        hexcused.mono rfl rfl id (Nat.le_refl _)⟩⟩

/-- A handle that is no reason to stop has not been cancelled. -/
theorem Underway.calm (h : Underway whole taken began ds rest e) (hsync : sync ∈ ds)
    (hnone : stopReason sync.id e = none) : Calm hasty sync e := by
  rcases h.undisturbed.recorded with ⟨_, hr, _⟩
  refine .inr (.inr ?_)
  rw [← hr.tended.lineage.isCancelled hsync]
  unfold stopReason Coordinator.cancellation at hnone
  split at hnone
  · exact absurd hnone (by simp only [reduceCtorEq, not_false_eq_true])
  · next hnot => exact Bool.eq_false_iff.mpr hnot

section

variable (hmono : rule.IsMono) (hstable : rule.IsStable (Outside hasty))
  (hupholds : ∀ {whole : Nat → List Event} {taken began ds} {rest : Nat → List Report},
    Upholds (Outside hasty) rule Tidy fun e =>
      ∀ i, Underway (whole i) taken began ds (rest i) e ∧ sync.time ≤ e.now)
include hmono hstable hupholds

/-- Under the handle of the sync, a simulation goes on after each wait. -/
theorem suits_givenUp {gone : SyncError → Engine SimulationStage → Prop} (hroot : sync.parent = 0)
    (hgone : ∀ reason e,
      Due traces hasty sync.time sync.timeout plan.rescanTimeout (.error reason) e →
        gone reason e) :
    Suits traces hasty sync (rule.givenUp (Outside hasty) (stopReason sync.id) gone) where
  mono := hmono.givenUp (stopReason sync.id) gone
  stable := hstable.givenUp (stopReason sync.id) gone
  upholds := fun hwhole hsync => hupholds.givenUp_calm
    (fun h i => ⟨(h i).underway, (h i).later⟩) (fun hout h i => (h i).outside hout)
    (fun h hnone i => ⟨(h i).1, (h i).2, (h i).1.calm hsync hnone⟩)
    fun htidy h hstop => hgone _ _ (Due.tidy htidy
      ⟨⟨_, _, hwhole 0, (h 0).1.expects⟩, (h 0).1.excused hsync hroot hstop plan.rescanTimeout⟩)

section

variable (hsync : sync ∈ ds) (hroot : sync.parent = 0)
  (hfits : (headerCounts plan.headers).2 = false)
  (h : ∀ i, Underway (plan.trace (clock i)) false none ds (plan.reports (clock i)) e)
  (hlater : sync.time ≤ e.now)
include hsync hroot hfits h hlater

theorem surely_underHandle :
    (underHandle sync.id (plan.work clock sync.token).run).Surely (Outside hasty) rule
      (Due (plan.tracesBy clock) hasty sync.time sync.timeout plan.rescanTimeout) e := by
  -- A sync that is stopped says so in the journal first.
  have hgone (reason : SyncError) (e : Engine SimulationStage) (h : Due (plan.tracesBy clock)
      hasty sync.time sync.timeout plan.rescanTimeout (.error reason) e) :
      (Routine.bind (.update (·.note [.info ("Sync cancelled: " ++ reason.message)])) fun _ =>
        .done (.error reason)).Surely (Outside hasty) rule
        (Due (plan.tracesBy clock) hasty sync.time sync.timeout plan.rescanTimeout) e :=
    fun e₁ he₁ => h.outside (he₁.trans (outside_note e₁ _))
  change (Routine.bind _ _).Surely _ _ _ _
  rw [surely_bind]
  refine surely_untilStopped hupholds tidy_id (fun i => ⟨h i, hlater⟩) (fun e reason h hstop => ?_)
    fun e h hnone => ?_
  · exact hgone reason e ⟨⟨_, _, ⟨0, rfl⟩, (h 0).1.expects⟩,
      (h 0).1.excused hsync hroot hstop plan.rescanTimeout⟩
  · -- The handle has been looked at, so the work may begin.
    have hsuits := suits_givenUp hmono hstable hupholds hroot hgone
    exact surely_work hsuits hsync hroot hfits (fun outcome e hdue => hdue) fun i =>
      ⟨(h i).1, (h i).2, (h i).1.calm hsync hnone⟩

theorem surely_drive :
    (drive sync.id (plan.work clock sync.token).run).Surely (Outside hasty) rule
      (fun answer e => ∃ whole, plan.tracesBy clock whole ∧
        Ended whole hasty sync.time sync.timeout plan.rescanTimeout answer e) e := by
  intro e₁ he₁
  have h₁ (i : Nat) := (h i).outside he₁
  have hlater₁ := Nat.le_trans hlater he₁.coordinator.now_le
  refine surely_within hmono hstable (fun _ _ _ hout h => ?_) ?_
  · rcases h with ⟨whole, hwhole, h⟩
    exact ⟨whole, hwhole, h.outside hout⟩
  change (Routine.bind _ _).Surely _ _ _ _
  rw [surely_bind]
  refine Surely.mono hmono (fun outcome e hdue => ?_)
    (surely_underHandle hmono hstable hupholds hsync hroot hfits h₁ hlater₁)
  exact fun e₂ he₂ => (hdue.outside he₂).conclude

end

end

end SimulationPlan

end ChainSync
