import ChainSync.Proofs.Engine.Outside
import ChainSync.Proofs.Rescan.Slot
import ChainSync.Proofs.Simulation.Plan

/-!
# Steps of a Simulation

What every single step of a simulation keeps.

A simulation that is under way has reports to come, and its operations are undisturbed
(`Underway`). There are two of them, the sync and the rescan below it. An error that
stops one of them is excused by what has happened outside: a shutdown, or a time that
is up (`Excused`). The one difficulty is the rescan. It is cancelled also when the sync
is, and its error does not say why. If watchers have turns only while the work waits,
the sync has been looked at after every such turn, so that the rescan cannot have been
cancelled for its sake (`Calm`) unless there was a shutdown.

The times of the headers depend on when the clock on the wall is read, so there is more
than one trace that a run may come to (`traces`) until it has been.

## Main definitions

* `SimulationPlan.Underway`, `SimulationPlan.Calm`, `SimulationPlan.Going`: What holds
  while a simulation goes on.
* `SimulationPlan.Excused`, `SimulationPlan.Due`: What it comes to.
* `SimulationPlan.Tidy`: Changes that clean up.

## Theorems

* `SimulationPlan.Underway.stopped`, `SimulationPlan.Going.stopped`: The errors of the
  two operations.
* `SimulationPlan.Going.report`, `SimulationPlan.Going.derive`, …: The steps.
-/

namespace ChainSync

namespace SimulationPlan

open Coordinator (Derivation longestWait)

variable {plan : SimulationPlan} {traces : List Event → Prop} {whole : List Event}
  {taken hasty turns : Bool} {began : Option Nat} {sync : Derivation} {ds : List Derivation}
  {rest : List Report} {e e' : Engine SimulationStage}

/-! ## While a simulation goes on -/

/-- A simulation with reports to come. The slot is taken while the rescan is under way, whose
    handle has been derived before that. -/
structure Underway (whole : List Event) (taken : Bool) (began : Option Nat)
    (ds : List Derivation) (rest : List Report) (e : Engine SimulationStage) : Prop where
  expects : e.controller.Expects whole rest
  own : e.own = { rescanSince := began }
  slot : e.slot.isTaken = taken
  undisturbed : e.coordinator.Undisturbed ds

/-- The token of the sync has been cancelled for a shutdown at most, unless watchers may
    have turns at any time. -/
def Calm (hasty : Bool) (sync : Derivation) (e : Engine SimulationStage) : Prop :=
  hasty = true ∨ e.coordinator.fired = true ∨ e.coordinator.isTokenCancelled sync.token = false

/-- What holds wherever the work of a simulation goes on. -/
structure Going (whole : List Event) (hasty : Bool) (sync : Derivation) (taken : Bool)
    (began : Option Nat) (ds : List Derivation) (rest : List Report)
    (e : Engine SimulationStage) : Prop where
  underway : Underway whole taken began ds rest e
  later : sync.time ≤ e.now
  calm : Calm hasty sync e

theorem Underway.outside (h : Underway whole taken began ds rest e) (hout : e.Outside turns e') :
    Underway whole taken began ds rest e' where
  expects := hout.controller ▸ h.expects
  own := hout.own.trans h.own
  slot := hout.slot ▸ h.slot
  undisturbed := h.undisturbed.passes hout.coordinator

theorem Calm.outside (h : Calm hasty sync e) (hout : e.Outside hasty e') : Calm hasty sync e' := by
  cases hasty with
  | true => exact .inl rfl
  | false =>
      rcases h with h | hfired | hnot
      · exact .inl h
      · exact .inr (.inl (hout.coordinator.grows.fired hfired))
      · -- Without a turn of a watcher it takes a shutdown to cancel the token.
        cases hnow : e'.coordinator.isTokenCancelled sync.token with
        | false => exact .inr (.inr hnow)
        | true =>
            rcases hout.coordinator.cancelled hnow with hbefore | hfired
            · exact absurd (hnot.symm.trans hbefore) Bool.false_ne_true
            · exact .inr (.inl hfired)

theorem Going.outside (h : Going whole hasty sync taken began ds rest e)
    (hout : e.Outside hasty e') : Going whole hasty sync taken began ds rest e' :=
  ⟨h.underway.outside hout, Nat.le_trans h.later hout.coordinator.now_le, h.calm.outside hout⟩

/-- A step that leaves the operations alone. -/
theorem Going.of_coordinator {taken' : Bool} {rest' : List Report}
    (h : Going whole hasty sync taken began ds rest e)
    (hcoordinator : e'.coordinator = e.coordinator) (hown : e'.own = e.own) (hexpects : e'.controller.Expects whole rest')
    (hslot : e'.slot.isTaken = taken') : Going whole hasty sync taken' began ds rest' e' where
  underway :=
    ⟨hexpects, hown.trans h.underway.own, hslot, hcoordinator ▸ h.underway.undisturbed⟩
  later := by
    rw [Engine.now, hcoordinator]
    exact h.later
  calm := by
    rw [Calm, hcoordinator]
    exact h.calm

/-! ## What stops it -/

/-- The time that has been granted since then is up. -/
def IsUp (since : Nat) (timeout : Option Nat) (e : Engine SimulationStage) : Prop :=
  ∃ ms ∈ timeout, since + min ms longestWait ≤ e.now

/-- An error that is accounted for by what has happened outside: a shutdown; the time of the
    sync, which is up; or that of the rescan, which counts from when it got its handle. The
    time of the sync may show as a cancellation only where watchers have turns at any time,
    and only once the rescan has begun. -/
def Excused (hasty : Bool) (since : Nat) (timeout rescanTimeout : Option Nat) (err : SyncError)
    (e : Engine SimulationStage) : Prop :=
  (err.code = .cancelled ∧ (e.coordinator.fired = true ∨
      hasty = true ∧ e.own.rescanSince.isSome = true ∧ IsUp since timeout e)) ∨
    (err.code = .deadlineExceeded ∧
      (IsUp since timeout e ∨ ∃ t ∈ e.own.rescanSince, IsUp t rescanTimeout e))

/-- What the work has come to: all reports have been made, or an error has come up that is
    excused. The session has not been ended yet. -/
def Due (traces : List Event → Prop) (hasty : Bool) (since : Nat)
    (timeout rescanTimeout : Option Nat) :
    Except SyncError Unit → Engine SimulationStage → Prop
  | .ok (), e => ∃ whole, traces whole ∧ e.controller.Expects whole []
  | .error err, e => (∃ whole rest, traces whole ∧ e.controller.Expects whole rest) ∧
      Excused hasty since timeout rescanTimeout err e

section

variable {since : Nat} {timeout rescanTimeout : Option Nat} {outcome : Except SyncError Unit}

theorem IsUp.mono (h : IsUp since timeout e) (hnow : e.now ≤ e'.now) : IsUp since timeout e' := by
  rcases h with ⟨ms, hms, hle⟩
  exact ⟨ms, hms, Nat.le_trans hle hnow⟩

theorem Excused.mono {err err' : SyncError} (h : Excused hasty since timeout rescanTimeout err e)
    (hcode : err'.code = err.code) (hown : e'.own = e.own)
    (hfired : e.coordinator.fired = true → e'.coordinator.fired = true) (hnow : e.now ≤ e'.now) :
    Excused hasty since timeout rescanTimeout err' e' := by
  rw [Excused, hcode, hown]
  refine h.imp (And.imp_right ?_) (And.imp_right ?_)
  · exact Or.imp hfired (And.imp_right (And.imp_right (·.mono hnow)))
  · refine Or.imp (·.mono hnow) ?_
    rintro ⟨t, ht, hup⟩
    exact ⟨t, ht, hup.mono hnow⟩

theorem Due.mono (h : Due traces hasty since timeout rescanTimeout outcome e)
    (hcontroller : e'.controller = e.controller) (hown : e'.own = e.own)
    (hfired : e.coordinator.fired = true → e'.coordinator.fired = true) (hnow : e.now ≤ e'.now) :
    Due traces hasty since timeout rescanTimeout outcome e' := by
  cases outcome with
  | ok u =>
      rw [Due, hcontroller]
      exact h
  | error err =>
      rw [Due, hcontroller]
      exact ⟨h.1, h.2.mono rfl hown hfired hnow⟩

theorem Due.outside (h : Due traces hasty since timeout rescanTimeout outcome e)
    (hout : e.Outside turns e') : Due traces hasty since timeout rescanTimeout outcome e' :=
  h.mono hout.controller hout.own hout.coordinator.grows.fired hout.coordinator.now_le

end

/-- The sync is stopped for a shutdown or for its own time. -/
theorem Underway.stopped (h : Underway whole taken began ds rest e) (hsync : sync ∈ ds)
    (hroot : sync.parent = 0) {reason : SyncError}
    (hstop : Engine.stopReason sync.id e = some reason) :
    (reason.code = .cancelled ∧ e.coordinator.fired = true) ∨
      (reason.code = .deadlineExceeded ∧ IsUp sync.time sync.timeout e) := by
  rcases h.undisturbed.cancellation hsync hstop with ⟨hcode, hfired | hparent⟩ | ⟨hcode, hdue⟩
  · exact .inl ⟨hcode, hfired⟩
  · -- The token above the sync is the first of all, which nobody cancels.
    rw [hroot, h.undisturbed.isTokenCancelled_zero] at hparent
    exact absurd hparent Bool.false_ne_true
  · exact .inr ⟨hcode, hdue⟩

theorem Underway.excused (h : Underway whole taken began ds rest e) (hsync : sync ∈ ds)
    (hroot : sync.parent = 0) {reason : SyncError}
    (hstop : Engine.stopReason sync.id e = some reason) (rescanTimeout : Option Nat) :
    Excused hasty sync.time sync.timeout rescanTimeout reason e :=
  (h.stopped hsync hroot hstop).imp (And.imp_right .inl) (And.imp_right .inl)

/-- The rescan is stopped for a shutdown or for its own time, or with the sync. -/
theorem Going.excused {rescan : Derivation}
    (h : Going whole hasty sync taken (some rescan.time) ds rest e) (hsync : sync ∈ ds)
    (hroot : sync.parent = 0) (hrescan : rescan ∈ ds) (hbelow : rescan.parent = sync.token)
    {reason : SyncError} (hstop : Engine.stopReason rescan.id e = some reason) :
    Excused hasty sync.time sync.timeout rescan.timeout reason e := by
  have hsince : e.own.rescanSince = some rescan.time := by rw [h.underway.own]
  rcases h.underway.undisturbed.cancellation hrescan hstop with
    ⟨hcode, hfired | hparent⟩ | ⟨hcode, hdue⟩
  · exact .inl ⟨hcode, .inl hfired⟩
  · rw [hbelow] at hparent
    rcases h.calm with hhasty | hfired | hnot
    · -- The sync has been cancelled since it was looked at, so it has a reason of its own.
      have hcancelled : e.coordinator.isCancelled sync.id = true := by
        rcases h.underway.undisturbed.recorded with ⟨_, hr, _⟩
        rw [hr.tended.lineage.isCancelled hsync]
        exact hparent
      rcases h.underway.stopped hsync hroot (Engine.stopReason_eq hcancelled) with
        ⟨_, hfired⟩ | ⟨_, hup⟩
      · exact .inl ⟨hcode, .inl hfired⟩
      · exact .inl ⟨hcode, .inr ⟨hhasty, hsince ▸ rfl, hup⟩⟩
    · exact .inl ⟨hcode, .inl hfired⟩
    · exact absurd (hnot.symm.trans hparent) Bool.false_ne_true
  · exact .inr ⟨hcode, .inr ⟨rescan.time, hsince, hdue⟩⟩

/-! ## The steps -/

/-- The next report is taken. -/
theorem Going.report {r : Report} (h : Going whole hasty sync taken began ds (r :: rest) e) :
    (e.report r).1 = .ok () ∧ Going whole hasty sync taken began ds rest (e.report r).2 := by
  rcases h.underway.expects.report e.instant with ⟨c, hreport, hexpects⟩
  simp only [Engine.report, hreport]
  exact ⟨trivial, h.of_coordinator rfl rfl hexpects h.underway.slot⟩

theorem Going.showProgress (h : Going whole hasty sync taken began ds rest e) (clock : WallClock) :
    Going whole hasty sync taken began ds rest (showProgress clock e) := by
  have hshown : Going whole hasty sync taken began ds rest (e.progress (clock e.instant)).2 :=
    h.of_coordinator rfl rfl (h.underway.expects.progress e.instant (clock e.instant))
      h.underway.slot
  unfold SimulationPlan.showProgress
  simp only []
  split
  · exact hshown
  · exact hshown.outside (Engine.outside_note _ _)

/-- The rescan takes the slot. -/
theorem Going.claim (h : Going whole hasty sync false began ds rest e) (start target : Int32) :
    ∃ id, (e.claim start target).1 = some id ∧
      Going whole hasty sync true began ds rest (e.claim start target).2 := by
  have hfree := h.underway.slot
  refine ⟨e.slot.lastId + 1, (Engine.claim_of_free hfree start target).1, ?_⟩
  have hclaim : e.claim start target = (some (e.slot.lastId + 1),
      { e.note [.info ("Rescan " ++ toString (e.slot.lastId + 1) ++ " from " ++
        toString start.toInt ++ " through " ++ toString target.toInt)] with
        slot := (e.slot.claim start target).2 }) := by
    simp [Engine.claim, RescanSlot.claim, hfree]
  rw [hclaim]
  refine h.of_coordinator rfl rfl h.underway.expects ?_
  exact RescanSlot.isTaken_of_owner (Engine.owner_claim hfree start target).1

/-- A scanned height is the next report. -/
theorem Going.reportScan {height : Int32}
    (h : Going whole hasty sync taken began ds (.rescanProgress height :: rest) e) :
    (Engine.reportScan Engine.bridge height e).1 = none ∧
      Going whole hasty sync taken began ds rest (Engine.reportScan Engine.bridge height e).2 := by
  have hadvance : Going whole hasty sync taken began ds (.rescanProgress height :: rest)
      (e.modifySlot (·.advance height)) := by
    refine h.of_coordinator rfl rfl h.underway.expects ?_
    rw [← h.underway.slot]
    exact Option.isSome_map
  rcases hadvance.report with ⟨hok, hgoing⟩
  simp only [Engine.reportScan, Engine.bridge, hok]
  exact ⟨rfl, hgoing⟩

/-- The rescan gets a handle below the sync, and the time of that is noted. -/
theorem Going.derive (h : Going whole hasty sync taken none ds rest e) (hsync : sync ∈ ds)
    (timeout : Option Nat) :
    let derived := (e.modifyOwn (SimulationStage.beginRescan e.now)).derive sync.token timeout
    ∃ rescan : Derivation, derived.1 = rescan.id ∧ rescan.parent = sync.token ∧
      rescan.timeout = timeout ∧
      Going whole hasty sync taken (some rescan.time) (ds ++ [rescan]) rest derived.2 := by
  intro derived
  rcases h.underway.undisturbed.recorded with ⟨_, hr, _⟩
  have hlineage := hr.tended.lineage
  have htoken := (hlineage.lt_length hsync).1
  have hid : derived.1 = (e.coordinator.next sync.token timeout).id :=
    congrArg Prod.fst (e.coordinator.derive_eq sync.token timeout)
  have hown : derived.2.own = { rescanSince := some e.now } := by
    change SimulationStage.beginRescan e.now e.own = _
    rw [h.underway.own]
    rfl
  have hnow : derived.2.now = e.now := e.coordinator.now_derive sync.token timeout
  refine ⟨e.coordinator.next sync.token timeout, hid, rfl, rfl,
    ⟨h.underway.expects, hown, h.underway.slot, h.underway.undisturbed.derive htoken timeout⟩,
    h.later.trans hnow.symm.le, ?_⟩
  -- The token of the sync has been there before, so the new one is not above it.
  refine h.calm.imp_right (Or.imp (e.coordinator.grows_derive sync.token timeout).fired ?_)
  exact (Coordinator.isTokenCancelled_derive hlineage sync.token timeout htoken).trans

/-! ## Cleaning up -/

/-- A change that leaves the session, the notes, the latch and the clock alone. -/
structure Tidy (f : Engine SimulationStage → Engine SimulationStage) : Prop where
  controller : ∀ e, (f e).controller = e.controller
  own : ∀ e, (f e).own = e.own
  fired : ∀ e, (f e).coordinator.fired = e.coordinator.fired
  now : ∀ e, (f e).now = e.now

theorem tidy_id : Tidy id := ⟨fun _ => rfl, fun _ => rfl, fun _ => rfl, fun _ => rfl⟩

theorem tidy_release : Tidy (Engine.modifySlot (·.release)) :=
  ⟨fun _ => rfl, fun _ => rfl, fun _ => rfl, fun _ => rfl⟩

theorem tidy_drop (id : Nat) : Tidy (·.drop id) :=
  ⟨fun _ => rfl, fun _ => rfl, fun e => (Coordinator.Aside.drop e.coordinator id).fired,
    fun e => (Coordinator.Aside.drop e.coordinator id).now⟩

theorem Tidy.comp {f g : Engine SimulationStage → Engine SimulationStage} (hf : Tidy f)
    (hg : Tidy g) : Tidy fun e => f (g e) :=
  ⟨fun e => (hf.controller _).trans (hg.controller e), fun e => (hf.own _).trans (hg.own e),
    fun e => (hf.fired _).trans (hg.fired e), fun e => (hf.now _).trans (hg.now e)⟩

theorem Due.tidy {f : Engine SimulationStage → Engine SimulationStage} (hf : Tidy f)
    {since : Nat} {timeout rescanTimeout : Option Nat} {outcome : Except SyncError Unit}
    (h : Due traces hasty since timeout rescanTimeout outcome e) :
    Due traces hasty since timeout rescanTimeout outcome (f e) :=
  h.mono (hf.controller e) (hf.own e) (fun hfired => (hf.fired e).trans hfired)
    (Nat.le_of_eq (hf.now e).symm)

end SimulationPlan

end ChainSync
