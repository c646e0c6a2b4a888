import ChainSync.Proofs.Rescan.Account
import ChainSync.Proofs.Routine.Shows

/-!
# A Rescan without Its Tape

Writing the calls of a rescan down makes no difference to the rescan.

Scanner and observer run on the engine without the tape, so that they cannot reach it, and
the steps of a rescan itself do not look at the part of whoever uses the engine. A note on
the tape is therefore all that is added, and a rescan on tape shows the rescan. This is
what makes an account of the calls one of the rescan that is really run.

Of the calls, those to the scanner are looked at here. Their heights follow each other from
the start on, and a rescan that has come through its target has asked for all of them.

## Main definitions

* `ScanCall.asked?`: The height that a scanner is asked for.

## Theorems

* `Engine.shows_rescan`: A rescan on tape shows the rescan.
* `RescanCalls.asked`: The heights that the scanner is asked for.
-/

namespace ChainSync

/-! ## The heights that are asked for -/

/-- The height that a scanner is asked for. -/
def ScanCall.asked? : ScanCall → Option Int32
  | .scanBlock height => some height
  | _ => none

/-- The heights that are asked for in a loop over so many heights. -/
theorem Scans.asked {target height : Int32} {left : Nat} {calls : List ScanCall}
    {x : Except Panic RescanOutcome} (h : Scans target left height calls x) :
    calls.filterMap ScanCall.asked? <+: heightsFrom height left ∧
      ∀ last, x = .ok (.completed last) →
        calls.filterMap ScanCall.asked? = heightsFrom height left := by
  have hfirst (height : Int32) (left : Nat) : [height] <+: heightsFrom height (left + 1) := by
    rw [heightsFrom_succ]
    exact (List.prefix_cons_inj height).mpr List.nil_prefix
  induction h with
  | past => exact ⟨List.nil_prefix, fun _ _ => rfl⟩
  -- A loop that fails has asked for one more height at most.
  | calledOff e => exact ⟨List.nil_prefix, fun _ h => by simp [RescanOutcome.ofError] at h⟩
  | interrupted e => exact ⟨hfirst _ _, fun _ h => by simp [RescanOutcome.ofError] at h⟩
  | fault e => exact ⟨hfirst _ _, fun _ h => by simp [RescanOutcome.ofError] at h⟩
  | broken p => exact ⟨hfirst _ _, fun _ h => by simp at h⟩
  | stopped => exact ⟨hfirst _ _, fun _ h => by simp at h⟩
  | deserted p => exact ⟨hfirst _ _, fun _ h => by simp [RescanOutcome.ofError] at h⟩
  | @next left height calls x _ ih =>
      have hcons : (ScanAnswer.goOn.calls height ++ calls).filterMap ScanCall.asked? =
          height :: calls.filterMap ScanCall.asked? := rfl
      rw [hcons, heightsFrom_succ]
      exact ⟨(List.prefix_cons_inj height).mpr ih.1,
        fun last hx => congrArg (height :: ·) (ih.2 last hx)⟩

/-- The heights that are asked for in a whole rescan. -/
theorem RescanCalls.asked {start target : Int32} {calls : List ScanCall}
    {x : Except Panic RescanOutcome} (h : RescanCalls start target calls x) :
    calls.filterMap ScanCall.asked? <+: heightsFrom start (Engine.blockCount start target) ∧
      ∀ last, x = .ok (.completed last) →
        calls.filterMap ScanCall.asked? = heightsFrom start (Engine.blockCount start target) := by
  cases h with
  | refused panic => exact ⟨List.nil_prefix, fun _ h => by simp [RescanOutcome.ofError] at h⟩
  | broken hscans => exact hscans.asked
  | @ended calls outcome panic hscans =>
      -- The call that ends a rescan asks for nothing.
      have hending : [outcome.ending panic].filterMap ScanCall.asked? = [] := by
        cases outcome <;> rfl
      rw [List.filterMap_append, hending, List.append_nil]
      exact hscans.asked

/-! ## Without the tape -/

namespace Engine

open Routine

variable {χ : Type} {scan : BlockScanner χ} {observer : ScanObserver χ}

/-- The engine with an empty tape. -/
def withTape (e : Engine χ) : Engine (Taped χ) := { e with own := { own := e.own } }

@[simp] theorem calls_withTape (e : Engine χ) : e.withTape.calls = [] := rfl

@[simp] theorem untaped_retaped (e : Engine χ) (tape : Engine (Taped χ)) :
    (e.retaped tape).untaped = e := rfl

theorem shows_jot (call : ScanCall) {α : Type} {r : Routine (Engine (Taped χ)) α}
    {q : Routine (Engine χ) α} (h : Shows untaped r q) :
    Shows untaped ((update (jot call)).bind fun _ => r) q := .aside (fun _ => rfl) fun _ => h

theorem shows_scanBlock (height : Int32) : Shows untaped (scan.taped height) (scan height) := by
  refine shows_jot _ (Shows.bind_aside ?_ fun result => shows_jot _ (.done result))
  exact shows_lift untaped_retaped (scan height)

theorem shows_giveWayIfSpent :
    Shows (untaped : Engine (Taped χ) → Engine χ) giveWayIfSpent giveWayIfSpent := by
  have hask : Shows (untaped : Engine (Taped χ) → Engine χ) (ask (·.allowance))
      (ask (·.allowance)) := shows_ask fun _ => rfl
  refine hask.bind fun n => ?_
  split
  · exact .wait (fun _ => rfl) (fun _ => rfl) (.done ())
  · exact .done ()

theorem shows_untilStopped {α : Type} (handle : Nat) {r : Routine (Engine (Taped χ)) α}
    {q : Routine (Engine χ) α} (h : Shows untaped r q) :
    Shows untaped (untilStopped handle r) (untilStopped handle q) := by
  have hstop (e : Engine (Taped χ)) : stopReason handle e.untaped = stopReason handle e := rfl
  refine (shows_ask hstop).bind fun reason => ?_
  cases reason with
  | some reason => exact .done _
  | none => exact shows_giveWayIfSpent.bind fun _ => h.unlessStopped hstop

theorem shows_within {α : Type} (span : Span) {r : Routine (Engine (Taped χ)) α}
    {q : Routine (Engine χ) α} (h : Shows untaped r q) :
    Shows untaped (within span r) (within span q) := by
  refine Shows.around (fun _ => rfl) (fun _ => rfl) (fun e => ?_) h
  rw [List.dropLast_concat]

theorem untaped_reportScan (height : Int32) (e : Engine (Taped χ)) :
    reportScan observer height e.untaped = ((reportScan observer.taped height e).1,
      (reportScan observer.taped height e).2.untaped) := by
  unfold reportScan
  cases hseen : observer.onScan height (e.untaped.modifySlot (·.advance height)) with
  | mk answer e' =>
      have htaped : observer.taped.onScan height (e.modifySlot (·.advance height)) = (answer,
          (e'.retaped (e.modifySlot (·.advance height))).jot (.onScan height answer)) := by
        unfold ScanObserver.taped
        exact congrArg (fun x : ScanAnswer × Engine χ => (x.1,
          (x.2.retaped (e.modifySlot (·.advance height))).jot (.onScan height x.1))) hseen
      rw [htaped]
      cases answer <;> rfl

theorem untaped_tell (outcome : RescanOutcome) (e : Engine (Taped χ)) :
    outcome.tell observer e.untaped = (outcome.tell observer.taped e).untaped := by
  unfold RescanOutcome.tell ScanObserver.taped
  cases outcome with
  | completed height =>
      simp only []
      cases (observer.onEnd height false e.untaped).1 <;> rfl
  | cancelled height =>
      simp only []
      cases (observer.onEnd height true e.untaped).1 <;> rfl
  | failed code message =>
      simp only []
      cases (observer.onError code message e.untaped).1 <;> rfl

/-- The loop over the heights, by induction on the blocks that are left. -/
theorem shows_scanFrom (handle : Nat) (target : Int32) (left : Nat) (height : Int32) :
    Shows untaped (scanFrom scan.taped observer.taped handle target left height)
      (scanFrom scan observer handle target left height) := by
  induction left generalizing height with
  | zero => exact .done _
  | succ left ih =>
      refine (shows_untilStopped handle (shows_scanBlock height)).bind fun result => ?_
      cases result with
      | error reason => exact .done _
      | ok result =>
          cases result with
          | failed error => exact .done _
          | panicked p => exact .done _
          | scanned =>
              refine (shows_perform (untaped_reportScan height)).bind fun outcome => ?_
              cases outcome with
              | some outcome => exact .done _
              | none => exact ih (height + 1)

theorem shows_scanRange (handle : Nat) (start target : Int32) :
    Shows untaped (scanRange scan.taped observer.taped handle start target)
      (scanRange scan observer handle start target) := by
  unfold scanRange
  split
  · refine Shows.bind ?_ fun _ => shows_scanFrom handle target _ start
    exact shows_update fun _ => rfl
  · exact shows_scanFrom handle target _ start

theorem untaped_claim (start target : Int32) (e : Engine (Taped χ)) :
    e.untaped.claim start target =
      ((e.claim start target).1, (e.claim start target).2.untaped) := by
  have hslot : e.untaped.slot = e.slot := rfl
  unfold claim
  rw [hslot]
  split <;> rfl

/-- A rescan on tape shows the rescan. -/
theorem shows_rescan (handle : Nat) (start target : Int32) :
    Shows untaped (rescan scan.taped observer.taped handle start target)
      (rescan scan observer handle start target) := by
  refine (shows_perform (untaped_claim start target)).bind fun slot => ?_
  cases slot with
  | none => exact (shows_update fun e => untaped_tell _ e).bind fun _ => .done _
  | some id =>
      refine Shows.ensuring (fun _ => rfl) (shows_within _ ?_)
      refine (shows_scanRange handle start target).bind fun x => ?_
      cases x with
      | error p => exact .done _
      | ok outcome =>
          refine Shows.bind ?_ fun _ => .done _
          exact shows_update fun e => untaped_tell outcome (e.note [outcome.line])

end Engine

end ChainSync
