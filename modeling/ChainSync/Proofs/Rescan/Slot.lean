import ChainSync.Proofs.Routine.Under
import ChainSync.Rescan.Run

/-!
# Holding the Slot

A rescan is one claim, and what comes after it.

The claim is a single change of the engine. A rescan that is turned away there tells
its observer so and is over; `refused` is all that is left of it. One that is let in
holds the slot from then on, and `held` gives it back at the end.

That the slot stays with its holder is a matter of what scanners and observers do.
They cannot get at the slot but by starting other rescans, which are turned away as
long as the slot is taken. `RescanCall.LeavesSlot` asks no more of them than that they
leave a slot alone that is taken. Between its claim and its end a rescan then changes
the progress that stands in the slot, and nothing else about it.

## Main definitions

* `RescanCall`: What a rescan is called with.
* `Engine.refused`, `Engine.held`: The two ways a rescan goes on.
* `Engine.Progresses`: A slot that stays with its holder.
* `Engine.Holds`: A routine that gives the slot back with its last change.

## Theorems

* `Engine.rescan_eq`: A rescan is its claim and one of the two.
* `Engine.claim_of_taken`, `Engine.claim_of_free`: What a claim answers and does.
* `Engine.poll_rescan_of_taken`: A rescan that is started while the slot is taken.
* `Engine.holds_held`: A rescan holds the slot from its claim on.
-/

namespace ChainSync

/-- The id of the rescan that holds the slot. -/
def RescanSlot.owner (s : RescanSlot) : Option Nat := s.active.map (·.id)

theorem RescanSlot.isTaken_of_owner {s : RescanSlot} {id : Nat} (h : s.owner = some id) :
    s.isTaken = true := by
  cases hs : s.active with
  | none => simp [owner, hs] at h
  | some r => simp [isTaken, hs]

/-- What a rescan is called with. -/
structure RescanCall (χ : Type) where
  scan : BlockScanner χ
  observer : ScanObserver χ
  handle : Nat
  start : Int32
  target : Int32

namespace Engine

variable {χ : Type}

/-! ## The parts of a rescan -/

/-- A rescan from its claim on. -/
def held (call : RescanCall χ) (id : Nat) : Routine (Engine χ) (Except Panic RescanOutcome) :=
  (Engine.within (rescanSpan id call.target call.handle) do
    match ← scanRange call.scan call.observer call.handle call.start call.target with
    | .error p => return .error p
    | .ok outcome =>
      .update fun e => outcome.tell call.observer (e.note [outcome.line])
      return .ok outcome).ensuring (modifySlot (·.release))

/-- A rescan that has been turned away. -/
def refused (observer : ScanObserver χ) : Routine (Engine χ) (Except Panic RescanOutcome) := do
  .update ((RescanOutcome.ofError .rescanInProgress).tell observer)
  return .ok (.ofError .rescanInProgress)

theorem rescan_eq (scan : BlockScanner χ) (observer : ScanObserver χ) (handle : Nat)
    (start target : Int32) :
    rescan scan observer handle start target = .act (claim start target) fun slot =>
      match slot with
      | none => refused observer
      | some id => held ⟨scan, observer, handle, start, target⟩ id := by
  unfold rescan
  refine congrArg (Routine.act (claim start target)) (funext fun slot => ?_)
  cases slot <;> rfl

/-! ## Claims -/

/-- The line about a rescan that is turned away. -/
def refusalLine (target : Int32) : Line :=
  .warn ("Rejecting rescan to " ++ toString target.toInt ++ ": another rescan is running")

/-- A claim that is turned away is written in the journal, and that is all. -/
theorem claim_of_taken {e : Engine χ} (h : e.slot.isTaken = true) (start target : Int32) :
    e.claim start target = (none, e.note [refusalLine target]) := by
  simp [claim, RescanSlot.claim, h, refusalLine]

/-- A claim that is let in takes the slot under the next id. -/
theorem claim_of_free {e : Engine χ} (h : e.slot.isTaken = false) (start target : Int32) :
    (e.claim start target).1 = some (e.slot.lastId + 1) ∧
      (e.claim start target).2.slot = (e.slot.claim start target).2 ∧
      (e.claim start target).2.own = e.own := by
  simp [claim, RescanSlot.claim, h, note]

theorem owner_claim {s : RescanSlot} (h : s.isTaken = false) (start target : Int32) :
    (s.claim start target).2.owner = some (s.lastId + 1) ∧
      (s.claim start target).2.lastId = s.lastId + 1 := by
  simp [RescanSlot.claim, RescanSlot.owner, h]

end Engine

open Engine

/-- The routine of a call. -/
def RescanCall.routine {χ : Type} (call : RescanCall χ) :
    Routine (Engine χ) (Except Panic RescanOutcome) :=
  rescan call.scan call.observer call.handle call.start call.target

/-- The engine after a call has been turned away. -/
def RescanCall.refuse {χ : Type} (call : RescanCall χ) (e : Engine χ) : Engine χ :=
  (RescanOutcome.ofError .rescanInProgress).tell call.observer (e.note [refusalLine call.target])

/-- Scanner and observer leave a slot alone that is taken. -/
structure RescanCall.LeavesSlot {χ : Type} (call : RescanCall χ) : Prop where
  scan : ∀ height, (call.scan height).Under (·.slot.isTaken = true) fun e e' => e'.slot = e.slot
  onScan : ∀ height (e : Engine χ), e.slot.isTaken = true →
    (call.observer.onScan height e).2.slot = e.slot
  onEnd : ∀ height cancelled (e : Engine χ), e.slot.isTaken = true →
    (call.observer.onEnd height cancelled e).2.slot = e.slot
  onError : ∀ code message (e : Engine χ), e.slot.isTaken = true →
    (call.observer.onError code message e).2.slot = e.slot

namespace Engine

variable {χ : Type} {call : RescanCall χ}

/-- A rescan that is started while the slot is taken, wherever that is, is over when
    its observer has been told so. -/
theorem poll_rescan_of_taken (call : RescanCall χ) {e : Engine χ} (h : e.slot.isTaken = true) :
    call.routine.poll e = (.done (.ok (.ofError .rescanInProgress)), call.refuse e) := by
  rw [RescanCall.routine, rescan_eq]
  simp only [Routine.poll, claim_of_taken h]
  rfl

/-- The end is told by one call of the observer. -/
theorem slot_tell (hcall : call.LeavesSlot) (outcome : RescanOutcome) {e : Engine χ}
    (h : e.slot.isTaken = true) : (outcome.tell call.observer e).slot = e.slot := by
  unfold RescanOutcome.tell
  cases outcome with
  | completed height =>
      simp only []
      split
      · exact hcall.onEnd height false e h
      · exact hcall.onEnd height false e h
  | cancelled height =>
      simp only []
      split
      · exact hcall.onEnd height true e h
      · exact hcall.onEnd height true e h
  | failed code message =>
      simp only []
      split
      · exact hcall.onError code message e h
      · exact hcall.onError code message e h

/-- So a rescan that is started in a callback leaves the slot alone. -/
theorem slot_refuse (hcall : call.LeavesSlot) {e : Engine χ} (h : e.slot.isTaken = true) :
    (call.refuse e).slot = e.slot := slot_tell hcall _ h

/-! ## Holders -/

/-- The slot stays with its holder. -/
structure Progresses (e e' : Engine χ) : Prop where
  owner : e'.slot.owner = e.slot.owner
  lastId : e'.slot.lastId = e.slot.lastId

namespace Progresses

variable {e e' e'' : Engine χ}

theorem of_slot (h : e'.slot = e.slot) : e.Progresses e' := ⟨by rw [h], by rw [h]⟩

theorem refl (e : Engine χ) : e.Progresses e := of_slot rfl

theorem trans (h : e.Progresses e') (h' : e'.Progresses e'') : e.Progresses e'' :=
  ⟨h'.owner.trans h.owner, h'.lastId.trans h.lastId⟩

theorem modifySlot {f : RescanSlot → RescanSlot} (e : Engine χ)
    (howner : ∀ s, (f s).owner = s.owner) (hlast : ∀ s, (f s).lastId = s.lastId) :
    e.Progresses (e.modifySlot f) := ⟨howner _, hlast _⟩

theorem isTaken (h : e.Progresses e') (ht : e.slot.isTaken = true) : e'.slot.isTaken = true := by
  have howner := h.owner
  cases hs : e.slot.active with
  | none => simp [RescanSlot.isTaken, hs] at ht
  | some r =>
      rw [RescanSlot.owner, RescanSlot.owner, hs, Option.map_some] at howner
      exact RescanSlot.isTaken_of_owner howner

end Progresses

theorem owner_advance (height : Int32) (s : RescanSlot) : (s.advance height).owner = s.owner := by
  rw [RescanSlot.owner, RescanSlot.advance, Option.map_map]
  rfl

theorem owner_markCancelled (s : RescanSlot) : s.markCancelled.owner = s.owner := by
  rw [RescanSlot.owner, RescanSlot.markCancelled, Option.map_map]
  rfl

theorem progresses_reportScan (hcall : call.LeavesSlot) (height : Int32) {e : Engine χ}
    (h : e.slot.isTaken = true) : e.Progresses (reportScan call.observer height e).2 := by
  have hadvance : e.Progresses (e.modifySlot (·.advance height)) :=
    .modifySlot e (owner_advance height) fun _ => rfl
  have hseen : e.Progresses (call.observer.onScan height (e.modifySlot (·.advance height))).2 :=
    hadvance.trans (.of_slot (hcall.onScan height _ (hadvance.isTaken h)))
  unfold reportScan
  split
  · next heq =>
    rw [heq] at hseen
    exact hseen
  · next heq =>
    rw [heq] at hseen
    exact hseen.trans (.modifySlot _ owner_markCancelled fun _ => rfl)
  · next heq =>
    rw [heq] at hseen
    exact hseen

/-- A rescan between its claim and its end. -/
theorem under_scanFrom (hcall : call.LeavesSlot) (left : Nat) (height : Int32) :
    (scanFrom call.scan call.observer call.handle call.target left height).Under
      (·.slot.isTaken = true) Progresses := by
  induction left generalizing height with
  | zero => trivial
  | succ left ih =>
      -- One block: neither the look at the handle nor the scan touches the slot.
      have hscan : (untilStopped call.handle (call.scan height)).Under
          (·.slot.isTaken = true) Progresses := by
        have hgiveWay : (giveWayIfSpent : Routine (Engine χ) Unit).Under
            (·.slot.isTaken = true) Progresses := by
          refine (Routine.under_ask Progresses.refl _).bind fun n => ?_
          split
          · exact Routine.under_pause Progresses.refl _ _
          · trivial
        refine (Routine.under_ask Progresses.refl _).bind fun reason => ?_
        cases reason with
        | some reason => trivial
        | none =>
            refine hgiveWay.bind fun _ => Routine.Under.unlessStopped Progresses.refl ?_
            exact (hcall.scan height).mono fun _ _ _ h => .of_slot h
      -- Only a block that has been scanned leads on, by way of its report.
      refine hscan.bind fun result => ?_
      cases result with
      | error reason => trivial
      | ok result =>
          cases result with
          | failed error => trivial
          | panicked p => trivial
          | scanned =>
              refine Routine.Under.bind (Routine.under_perform fun e h =>
                progresses_reportScan hcall height h) fun outcome => ?_
              cases outcome with
              | some outcome => trivial
              | none => exact ih (height + 1)

/-- A routine that holds the slot under an id and gives it back with its last change,
    which does nothing else, or when it is given up. -/
def Holds (id : Nat) : Routine (Engine χ) (Except Panic RescanOutcome) → Prop
  | .done _ => False
  | .act run next => ∀ e, e.slot.owner = some id →
    (∃ x, next (run e).1 = .done x ∧ (run e).2 = e.modifySlot (·.release)) ∨
      (e.Progresses (run e).2 ∧ Holds id (next (run e).1))
  | .wait _ _ abandon next =>
    (∀ e, e.slot.owner = some id → (abandon e).slot = e.slot.release) ∧ Holds id next

theorem holds_ensuring {id : Nat} {r : Routine (Engine χ) (Except Panic RescanOutcome)}
    (hr : r.Under (·.slot.isTaken = true) Progresses) :
    Holds id (r.ensuring (modifySlot (·.release))) := by
  induction r with
  | done x => exact fun e _ => .inl ⟨x, rfl, rfl⟩
  | act run next ih =>
      intro e howner
      rcases hr e (RescanSlot.isTaken_of_owner howner) with ⟨hrun, hnext⟩
      exact .inr ⟨hrun, ih _ hnext⟩
  | wait ready timer abandon next ih =>
      refine ⟨fun e howner => ?_, ih hr.2⟩
      have hlast := (hr.1 e (RescanSlot.isTaken_of_owner howner)).lastId
      simp only [modifySlot, RescanSlot.release, hlast]

theorem under_within {α : Type} {span : Span} {r : Routine (Engine χ) α}
    (hr : r.Under (·.slot.isTaken = true) Progresses) :
    (within span r).Under (·.slot.isTaken = true) Progresses := by
  refine Routine.Under.around ?_ ?_ hr
  · exact fun _ h => h
  · exact fun _ _ _ h => ⟨h.owner, h.lastId⟩

theorem holds_held (hcall : call.LeavesSlot) (id : Nat) : Holds id (held call id) := by
  have hrange : (scanRange call.scan call.observer call.handle call.start call.target).Under
      (·.slot.isTaken = true) Progresses := by
    unfold scanRange
    split
    · refine Routine.Under.bind (Routine.under_update fun e _ => .of_slot rfl) fun _ => ?_
      exact under_scanFrom hcall _ _
    · exact under_scanFrom hcall _ _
  refine holds_ensuring (under_within (hrange.bind fun x => ?_))
  cases x with
  | error p => trivial
  | ok outcome =>
      refine Routine.Under.bind (Routine.under_update fun e h => .of_slot ?_) fun _ => trivial
      exact slot_tell hcall outcome h

end Engine

end ChainSync
