import ChainSync.Proofs.Rescan.Slot
import ChainSync.Proofs.Routine.Tape

/-!
# Calls of a Rescan

What a rescan asks its scanner for and what it tells its observer.

Scanner and observer are arbitrary, and they may do with the engine what they like.
So the calls are written down where they cannot get at them: the two are run on the
engine without the tape, and each call is put on the tape around that.

The loop has several ways to end at every height, and what is on the tape then is
read off the loop itself, one rule of `Scans` for each way. What the others do in
the meantime makes no difference, and neither does the moment at which the operation
is cancelled: it is cancelled before a block, while a block is scanned, or not at all.

## Main definitions

* `ScanCall`, `Taped`: The calls and where they are written.
* `BlockScanner.taped`, `ScanObserver.taped`: Scanner and observer on tape.
* `Scans`: The calls of a loop over heights, and how it ends.
* `RescanOutcome.ending`: The call that ends a rescan.
* `RescanCalls`: The calls of a whole rescan, and how it ends.

## Theorems

* `Engine.writes_scanBlock`, `Engine.writes_scanFrom`: A block and the loop.
* `Engine.writes_held`, `Engine.writes_calls`: A rescan that was not turned away, and all
  of them.
-/

namespace ChainSync

/-- A call of a scanner or an observer, with what came of it. -/
inductive ScanCall where
  | scanBlock (height : Int32)
  /-- A scan came to its end. -/
  | scanned (height : Int32) (result : ScanResult)
  | onScan (height : Int32) (answer : ScanAnswer)
  | onEnd (height : Int32) (cancelled : Bool) (panic : Option Panic)
  | onError (code : ErrorCode) (message : String) (panic : Option Panic)
deriving DecidableEq

/-- A state with a tape. -/
structure Taped (χ : Type) where
  own : χ
  calls : List ScanCall := []

namespace Engine

variable {χ : Type}

/-- The engine without the tape. -/
def untaped (e : Engine (Taped χ)) : Engine χ := { e with own := e.own.own }

/-- The engine with the tape of another one. -/
def retaped (e : Engine χ) (tape : Engine (Taped χ)) : Engine (Taped χ) :=
  { e with own := { tape.own with own := e.own } }

/-- The calls so far. -/
def calls (e : Engine (Taped χ)) : List ScanCall := e.own.calls

/-- Writes down a call. -/
def jot (call : ScanCall) : Engine (Taped χ) → Engine (Taped χ) :=
  modifyOwn fun t => { t with calls := t.calls ++ [call] }

@[simp] theorem calls_retaped (e : Engine χ) (tape : Engine (Taped χ)) :
    (e.retaped tape).calls = tape.calls := rfl

@[simp] theorem calls_jot (call : ScanCall) (e : Engine (Taped χ)) :
    (e.jot call).calls = e.calls ++ [call] := rfl

@[simp] theorem calls_note (e : Engine (Taped χ)) (lines : List Line) :
    (e.note lines).calls = e.calls := rfl

@[simp] theorem calls_modifySlot (e : Engine (Taped χ)) (f : RescanSlot → RescanSlot) :
    (e.modifySlot f).calls = e.calls := rfl

end Engine

/-- A scanner whose calls are written down. -/
def BlockScanner.taped {χ : Type} (scan : BlockScanner χ) : BlockScanner (Taped χ) :=
  fun height => do
    .update (Engine.jot (.scanBlock height))
    let result ← (scan height).lift Engine.untaped Engine.retaped
    .update (Engine.jot (.scanned height result))
    return result

/-- An observer whose calls are written down. -/
def ScanObserver.taped {χ : Type} (observer : ScanObserver χ) : ScanObserver (Taped χ) where
  onScan height e :=
    let (answer, e') := observer.onScan height e.untaped
    (answer, (e'.retaped e).jot (.onScan height answer))
  onEnd height cancelled e :=
    let (panic, e') := observer.onEnd height cancelled e.untaped
    (panic, (e'.retaped e).jot (.onEnd height cancelled panic))
  onError code message e :=
    let (panic, e') := observer.onError code message e.untaped
    (panic, (e'.retaped e).jot (.onError code message panic))

/-- The call that tells how a rescan ended. -/
def RescanOutcome.ending (outcome : RescanOutcome) (panic : Option Panic) : ScanCall :=
  match outcome with
  | completed height => .onEnd height false panic
  | cancelled height => .onEnd height true panic
  | failed code message => .onError code message panic

/-- The calls for a height that has been scanned. -/
def ScanAnswer.calls (height : Int32) (answer : ScanAnswer) : List ScanCall :=
  [.scanBlock height, .scanned height .scanned, .onScan height answer]

/-- The calls of a loop over so many heights, and how it ends. -/
inductive Scans (target : Int32) :
    Nat → Int32 → List ScanCall → Except Panic RescanOutcome → Prop where
  /-- No height is left. -/
  | past {height : Int32} : Scans target 0 height [] (.ok (.completed target))
  /-- The operation was called off before the height. -/
  | calledOff {left : Nat} {height : Int32} (e : SyncError) :
    Scans target (left + 1) height [] (.ok (.ofError e))
  /-- The operation was called off while the height was scanned. -/
  | interrupted {left : Nat} {height : Int32} (e : SyncError) :
    Scans target (left + 1) height [.scanBlock height] (.ok (.ofError e))
  /-- The height could not be scanned. -/
  | fault {left : Nat} {height : Int32} (e : SyncError) :
    Scans target (left + 1) height [.scanBlock height, .scanned height (.failed e)]
      (.ok (.ofError e))
  /-- The scanner broke off. -/
  | broken {left : Nat} {height : Int32} (p : Panic) :
    Scans target (left + 1) height [.scanBlock height, .scanned height (.panicked p)] (.error p)
  /-- The observer asked to stop. -/
  | stopped {left : Nat} {height : Int32} :
    Scans target (left + 1) height (ScanAnswer.stop.calls height) (.ok (.cancelled height))
  /-- The observer broke off. -/
  | deserted {left : Nat} {height : Int32} (p : Panic) :
    Scans target (left + 1) height ((ScanAnswer.panicked p).calls height)
      (.ok (.ofError (.internal ("scan observer panicked: " ++ p.message))))
  /-- The observer asked for the next height. -/
  | next {left : Nat} {height : Int32} {calls : List ScanCall} {x : Except Panic RescanOutcome}
    (h : Scans target left (height + 1) calls x) :
    Scans target (left + 1) height (ScanAnswer.goOn.calls height ++ calls) x

/-- The calls of a whole rescan, and how it ends. -/
inductive RescanCalls (start target : Int32) :
    List ScanCall → Except Panic RescanOutcome → Prop where
  /-- It has been turned away, and its observer is told so. -/
  | refused (panic : Option Panic) : RescanCalls start target
    [(RescanOutcome.ofError .rescanInProgress).ending panic] (.ok (.ofError .rescanInProgress))
  /-- Its observer is told how the loop ended. -/
  | ended {calls : List ScanCall} {outcome : RescanOutcome} (panic : Option Panic)
    (h : Scans target (Engine.blockCount start target) start calls (.ok outcome)) :
    RescanCalls start target (calls ++ [outcome.ending panic]) (.ok outcome)
  /-- Its scanner broke off, and nobody is told. -/
  | broken {calls : List ScanCall} {p : Panic}
    (h : Scans target (Engine.blockCount start target) start calls (.error p)) :
    RescanCalls start target calls (.error p)

namespace Engine

open Routine

variable {χ : Type} {scan : BlockScanner χ} {observer : ScanObserver χ}

/-- A call to the scanner writes its beginning, and its end unless it is given up. -/
theorem writes_scanBlock (height : Int32) (w : List ScanCall) :
    (scan.taped height).Writes calls
      (fun w' result => w' = w ++ [.scanBlock height, .scanned height result])
      (fun w' => w' = w ++ [.scanBlock height]) w := by
  have hlift : ((scan height).lift untaped retaped).Writes calls
      (fun w' _ => w' = w ++ [.scanBlock height]) (fun w' => w' = w ++ [.scanBlock height])
      (w ++ [.scanBlock height]) := by
    refine writes_lift calls_retaped ?_ ?_ _
    · exact fun _ => rfl
    · exact rfl
  refine fun e => ⟨[.scanBlock height], rfl, hlift.bind fun w' result hw' => ?_⟩
  refine fun e => ⟨[.scanned height result], rfl, ?_⟩
  rw [hw', List.append_assoc]
  rfl

/-- A block, unless the operation is called off before or meanwhile. -/
theorem writes_untilStopped (handle : Nat) (height : Int32) (w : List ScanCall) :
    (untilStopped handle (scan.taped height)).Writes calls
      (fun w' x => match x with
        | .ok result => w' = w ++ [.scanBlock height, .scanned height result]
        | .error _ => w' = w ∨ w' = w ++ [.scanBlock height])
      (fun _ => True) w := by
  have hwork : ((scan.taped height).unlessStopped (stopReason handle)).Writes calls
      (fun w' x => match x with
        | .ok result => w' = w ++ [.scanBlock height, .scanned height result]
        | .error _ => w' = w ∨ w' = w ++ [.scanBlock height])
      (fun w' => w' = w ++ [.scanBlock height]) w :=
    (writes_scanBlock height w).unlessStopped (fun _ _ h => h) (fun _ _ h => .inr h)
      fun _ => .inl rfl
  have hgiveWay : (giveWayIfSpent : Routine (Engine (Taped χ)) Unit).Writes calls
      (fun w' _ => w' = w) (fun _ => True) w := by
    refine (writes_ask (Q := fun w' _ => w' = w) fun _ => rfl).bind fun w' n hw' => ?_
    split
    · exact ⟨fun _ => rfl, trivial, hw'⟩
    · exact hw'
  -- The operation is looked at first, then the turn may end, then the scanner works.
  refine (writes_ask (Q := fun w' _ => w' = w) fun _ => rfl).bind fun w' reason hw' => ?_
  rw [hw']
  cases reason with
  | some reason => exact .inl rfl
  | none =>
      refine hgiveWay.bind fun w' _ hw' => ?_
      rw [hw']
      exact hwork.mono (fun _ _ h => h) fun _ _ => trivial

/-- The report of a height is one call. -/
theorem calls_reportScan (observer : ScanObserver χ) (height : Int32) (e : Engine (Taped χ)) :
    ∃ answer, (reportScan observer.taped height e).2.calls = e.calls ++ [.onScan height answer] ∧
      (reportScan observer.taped height e).1 = match answer with
        | .goOn => none
        | .stop => some (.cancelled height)
        | .panicked p => some (.ofError (.internal ("scan observer panicked: " ++ p.message))) := by
  refine ⟨(observer.onScan height (e.modifySlot (·.advance height)).untaped).1, ?_⟩
  unfold reportScan ScanObserver.taped
  simp only []
  cases (observer.onScan height (e.modifySlot (·.advance height)).untaped).1 <;> exact ⟨rfl, rfl⟩

/-- The loop over the heights, by induction on the blocks that are left. -/
theorem writes_scanFrom (handle : Nat) (target : Int32) (left : Nat) (height : Int32)
    (w : List ScanCall) :
    (scanFrom scan.taped observer.taped handle target left height).Writes calls
      (fun w' x => ∃ entries, w' = w ++ entries ∧ Scans target left height entries x)
      (fun _ => True) w := by
  induction left generalizing height w with
  | zero => exact ⟨[], (List.append_nil w).symm, .past⟩
  | succ left ih =>
      refine (writes_untilStopped handle height w).bind fun w' x hw' => ?_
      cases x with
      | error reason =>
          rcases hw' with hw' | hw'
          · exact ⟨[], by rw [hw', List.append_nil], .calledOff reason⟩
          · exact ⟨_, hw', .interrupted reason⟩
      | ok result =>
          cases result with
          | failed error => exact ⟨_, hw', .fault error⟩
          | panicked p => exact ⟨_, hw', .broken p⟩
          | scanned =>
              -- A scanned block is reported in one call, and the answer decides.
              refine fun e => ?_
              rcases calls_reportScan observer height e with ⟨answer, hcalls, hx⟩
              refine ⟨_, hcalls, ?_⟩
              have hw'' : w' ++ [.onScan height answer] = w ++ answer.calls height := by
                rw [hw', List.append_assoc]
                rfl
              rw [hw'', hx]
              cases answer with
              | stop => exact ⟨_, rfl, .stopped⟩
              | panicked p => exact ⟨_, rfl, .deserted p⟩
              | goOn =>
                  -- The entries of the rest come behind those that there are.
                  refine (ih (height + 1) _).mono ?_ fun _ h => h
                  rintro w₁ x ⟨entries, hw₁, hscans⟩
                  exact ⟨_, by rw [hw₁, List.append_assoc], hscans.next⟩

/-- The end is told in one call, whatever the observer does with it. -/
theorem calls_tell (observer : ScanObserver χ) (outcome : RescanOutcome) (e : Engine (Taped χ)) :
    ∃ panic, (outcome.tell observer.taped e).calls = e.calls ++ [outcome.ending panic] := by
  unfold RescanOutcome.tell ScanObserver.taped
  cases outcome with
  | completed height =>
      refine ⟨(observer.onEnd height false e.untaped).1, ?_⟩
      simp only []
      cases (observer.onEnd height false e.untaped).1 <;> rfl
  | cancelled height =>
      refine ⟨(observer.onEnd height true e.untaped).1, ?_⟩
      simp only []
      cases (observer.onEnd height true e.untaped).1 <;> rfl
  | failed code message =>
      refine ⟨(observer.onError code message e.untaped).1, ?_⟩
      simp only []
      cases (observer.onError code message e.untaped).1 <;> rfl

theorem writes_within {α : Type} {span : Span} {Q : List ScanCall → α → Prop}
    {S : List ScanCall → Prop} {r : Routine (Engine (Taped χ)) α} {w : List ScanCall}
    (hr : r.Writes calls Q S w) : (within span r).Writes calls Q S w := by
  refine Writes.around ?_ ?_ hr
  · exact fun _ => rfl
  · exact fun _ => rfl

theorem writes_scanRange (handle : Nat) (start target : Int32) (w : List ScanCall) :
    (scanRange scan.taped observer.taped handle start target).Writes calls
      (fun w' x => ∃ entries, w' = w ++ entries ∧
        Scans target (blockCount start target) start entries x)
      (fun _ => True) w := by
  unfold scanRange
  split
  · refine (writes_update (Q := fun w' _ => w' = w) (calls_note · _) rfl).bind fun w' _ hw' => ?_
    rw [hw']
    exact writes_scanFrom handle target _ start w
  · exact writes_scanFrom handle target _ start w

/-- A rescan that was not turned away writes the calls of its loop and, unless its
    scanner broke off, one last call. -/
theorem writes_held (handle : Nat) (start target : Int32) (id : Nat) :
    (held ⟨scan.taped, observer.taped, handle, start, target⟩ id).Writes calls
      (fun w x => match x with
        | .ok outcome => ∃ entries panic, w = entries ++ [outcome.ending panic] ∧
            Scans target (blockCount start target) start entries (.ok outcome)
        | .error p => Scans target (blockCount start target) start w (.error p))
      (fun _ => True) [] := by
  refine Writes.ensuring (calls_modifySlot · _) (writes_within ?_)
  refine (writes_scanRange handle start target []).bind fun w x hw => ?_
  rcases hw with ⟨entries, hw, hscans⟩
  rw [List.nil_append] at hw
  rw [hw]
  cases x with
  | error p => exact hscans
  | ok outcome =>
      refine fun e => ?_
      rcases calls_tell observer outcome (e.note [outcome.line]) with ⟨panic, htold⟩
      exact ⟨_, htold, entries, panic, rfl, hscans⟩

/-- Whether it is let in or turned away, a rescan writes its calls. -/
theorem writes_calls (handle : Nat) (start target : Int32) :
    (rescan scan.taped observer.taped handle start target).Writes calls
      (RescanCalls start target) (fun _ => True) [] := by
  rw [rescan_eq]
  refine fun e => ⟨[], ?_, ?_⟩
  · rw [List.append_nil]
    unfold claim
    split <;> rfl
  · rw [List.append_nil]
    cases (e.claim start target).1 with
    | none =>
        refine fun e => ?_
        rcases calls_tell observer (.ofError .rescanInProgress) e with ⟨panic, htold⟩
        exact ⟨_, htold, .refused panic⟩
    | some id =>
        refine (writes_held handle start target id).mono (fun w x hw => ?_) fun _ h => h
        cases x with
        | error p => exact .broken hw
        | ok outcome =>
            rcases hw with ⟨entries, panic, rfl, hscans⟩
            exact .ended panic hscans

end Engine

end ChainSync
