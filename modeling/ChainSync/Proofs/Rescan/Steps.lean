import ChainSync.Proofs.Routine.Among
import ChainSync.Rescan.Run

/-!
# Steps of a Rescan

What a rescan does to an engine, but for what its scanner and its observer do.

A rescan is a loop around two parties that it does not know. Its own steps take
the slot and give it back, write lines and look at the handle, and they leave
the sessions, the operations and the part of whoever uses the engine alone. So
a relation that takes no notice of such steps is kept by the whole rescan as
soon as the two parties keep to it.

## Main definitions

* `Engine.Overlooks`: A relation that takes no notice of such steps.
* `ScanObserver.Keeps`: An observer that keeps to a relation.

## Theorems

* `Engine.Overlooks.does_scanFrom`: The loop keeps to it.
* `Engine.Overlooks.does_rescan`: So does a whole rescan.
-/

namespace ChainSync

/-- An observer of rescans that keeps to a relation. -/
structure ScanObserver.Keeps {χ : Type} (observer : ScanObserver χ)
    (P : Engine χ → Engine χ → Prop) : Prop where
  onScan : ∀ height e, P e (observer.onScan height e).2
  onEnd : ∀ height cancelled e, P e (observer.onEnd height cancelled e).2
  onError : ∀ code message e, P e (observer.onError code message e).2

namespace Engine

/-- A relation that takes no notice of steps which leave the sessions, the
    operations and the part of whoever uses the engine alone. -/
structure Overlooks {χ : Type} (P : Engine χ → Engine χ → Prop) : Prop where
  aside : ∀ e e', e'.controller = e.controller → e'.coordinator = e.coordinator →
    e'.own = e.own → P e e'
  trans : ∀ {e e' e''}, P e e' → P e' e'' → P e e''

namespace Overlooks

variable {χ : Type} {P : Engine χ → Engine χ → Prop}

theorem does_update {f : Engine χ → Engine χ} (h : ∀ e, P e (f e)) :
    (Routine.update f).Does P := ⟨h, fun _ => trivial⟩

variable (hP : Overlooks P) {scan : BlockScanner χ} {observer : ScanObserver χ}
include hP

theorem refl (e : Engine χ) : P e e := hP.aside e e rfl rfl rfl

theorem note (e : Engine χ) (lines : List Line) : P e (e.note lines) := hP.aside _ _ rfl rfl rfl

theorem modifySlot (e : Engine χ) (f : RescanSlot → RescanSlot) : P e (e.modifySlot f) :=
  hP.aside _ _ rfl rfl rfl

theorem claim (e : Engine χ) (start target : Int32) : P e (e.claim start target).2 := by
  unfold Engine.claim
  split
  · exact hP.note e _
  · exact hP.aside _ _ rfl rfl rfl

theorem does_ask {α : Type} (f : Engine χ → α) : (Routine.ask f).Does P :=
  ⟨hP.refl, fun _ => trivial⟩

/-- Work that is done unless its operation has to stop. -/
theorem does_untilStopped {α : Type} (handle : Nat) {work : Routine (Engine χ) α}
    (hwork : work.Does P) : (untilStopped handle work).Does P := by
  have hgiveWay : (giveWayIfSpent : Routine (Engine χ) Unit).Does P := by
    refine (hP.does_ask _).bind fun n => ?_
    split
    · exact ⟨hP.refl, trivial⟩
    · trivial
  refine (hP.does_ask _).bind fun reason => ?_
  cases reason with
  | some reason => trivial
  | none => exact hgiveWay.bind fun _ => hwork.unlessStopped hP.refl

theorem tell (hobserver : observer.Keeps P) (outcome : RescanOutcome) (e : Engine χ) :
    P e (outcome.tell observer e) := by
  cases outcome with
  | completed height =>
      simp only [RescanOutcome.tell]
      split
      · exact hobserver.onEnd height false e
      · exact hP.trans (hobserver.onEnd height false e) (hP.note _ _)
  | cancelled height =>
      simp only [RescanOutcome.tell]
      split
      · exact hobserver.onEnd height true e
      · exact hP.trans (hobserver.onEnd height true e) (hP.note _ _)
  | failed code message =>
      simp only [RescanOutcome.tell]
      split
      · exact hobserver.onError code message e
      · exact hP.trans (hobserver.onError code message e) (hP.note _ _)

theorem reportScan (hobserver : observer.Keeps P) (height : Int32) (e : Engine χ) :
    P e (Engine.reportScan observer height e).2 := by
  have hseen := hP.trans (hP.modifySlot e (·.advance height)) (hobserver.onScan height _)
  unfold Engine.reportScan
  split
  · next h =>
    rw [h] at hseen
    exact hseen
  · next h =>
    rw [h] at hseen
    exact hP.trans hseen (hP.modifySlot _ _)
  · next h =>
    rw [h] at hseen
    exact hseen

/-- The loop over the heights, by induction on the blocks that are left. -/
theorem does_scanFrom (hscan : ∀ height, (scan height).Does P) (hobserver : observer.Keeps P)
    (handle : Nat) (target : Int32) (left : Nat) (height : Int32) :
    (scanFrom scan observer handle target left height).Does P := by
  induction left generalizing height with
  | zero => trivial
  | succ left ih =>
      refine (hP.does_untilStopped handle (hscan height)).bind fun result => ?_
      cases result with
      | error reason => trivial
      | ok result =>
          cases result with
          | failed error => trivial
          | panicked p => trivial
          | scanned =>
              have hreport : (Routine.perform (Engine.reportScan observer height)).Does P :=
                ⟨hP.reportScan hobserver height, fun _ => trivial⟩
              refine hreport.bind fun outcome => ?_
              cases outcome with
              | some outcome => trivial
              | none => exact ih (height + 1)

theorem does_scanRange (hscan : ∀ height, (scan height).Does P) (hobserver : observer.Keeps P)
    (handle : Nat) (start target : Int32) :
    (scanRange scan observer handle start target).Does P := by
  unfold scanRange
  split
  · exact (does_update fun e => hP.note e _).bind fun _ =>
      hP.does_scanFrom hscan hobserver handle target _ start
  · exact hP.does_scanFrom hscan hobserver handle target _ start

/-- A rescan keeps to a relation if its scanner and its observer do. -/
theorem does_rescan (hscan : ∀ height, (scan height).Does P) (hobserver : observer.Keeps P)
    (handle : Nat) (start target : Int32) :
    (rescan scan observer handle start target).Does P := by
  have hclaim : (Routine.perform (Engine.claim (χ := χ) start target)).Does P :=
    ⟨fun e => hP.claim e start target, fun _ => trivial⟩
  refine hclaim.bind fun slot => ?_
  cases slot with
  | none => exact (does_update fun e => hP.tell hobserver _ e).bind fun _ => trivial
  | some id =>
      refine Routine.Does.ensuring (P := P) hP.trans (fun e => hP.modifySlot e _) ?_
      refine Routine.Does.around (P := P) hP.trans ?_ ?_ ?_
      · exact fun e => hP.aside _ _ rfl rfl rfl
      · exact fun e => hP.aside _ _ rfl rfl rfl
      · refine (hP.does_scanRange hscan hobserver handle start target).bind fun result => ?_
        cases result with
        | error p => trivial
        | ok outcome =>
            exact (does_update fun e =>
              hP.trans (hP.note e _) (hP.tell hobserver outcome _)).bind fun _ => trivial

end Overlooks

end Engine

end ChainSync
