import ChainSync.Engine.Clock

/-!
# Rescans

Scanning a range of heights, one block after the other.

Before each block, and while a block is being scanned, the rescan looks at its
handle: once that counts as cancelled nothing more is scanned and nothing more
is reported. After each block the observer is told the height and may ask to
stop. However the rescan ends, the observer is told so exactly once and last;
what it does then has no influence on the outcome.

A scanner that panics takes the rescan with it: nobody is told, and only the
slot is given back.

## Main definitions

* `BlockScanner`, `ScanObserver`: What a rescan works with.
* `Engine.scanFrom`: The loop over the heights.
* `Engine.rescan`: A whole rescan.
-/

namespace ChainSync

/-- What scanning a block comes to. -/
inductive ScanResult where
  | scanned
  | failed (error : SyncError)
  | panicked (p : Panic)
deriving DecidableEq

/-- Whatever scans blocks; it may wait while it does. -/
abbrev BlockScanner (χ : Type) := Int32 → Routine (Engine χ) ScanResult

/-- What an observer says to a scanned height. -/
inductive ScanAnswer where
  | goOn
  | stop
  | panicked (p : Panic)
deriving DecidableEq

/-- Whoever is told of a rescan. -/
structure ScanObserver (χ : Type) where
  /-- A block has been scanned. -/
  onScan : Int32 → Engine χ → ScanAnswer × Engine χ
  /-- The rescan is over, and whether because the observer asked to stop. -/
  onEnd : Int32 → Bool → Engine χ → Option Panic × Engine χ
  /-- The rescan has failed. -/
  onError : ErrorCode → String → Engine χ → Option Panic × Engine χ

namespace RescanOutcome

/-- The line of an outcome. -/
def line : RescanOutcome → Line
  | completed height => .info ("Rescan completed through " ++ toString height.toInt)
  | cancelled height => .info ("Rescan stopped by observer at " ++ toString height.toInt)
  | failed code message =>
    .warn ("Rescan failed with code " ++ code.text ++ ": " ++ message)

/-- Tells the observer how the rescan ended. -/
def tell {χ : Type} (observer : ScanObserver χ) (outcome : RescanOutcome) (e : Engine χ) :
    Engine χ :=
  let (panic, e) := match outcome with
    | completed height => observer.onEnd height false e
    | cancelled height => observer.onEnd height true e
    | failed code message => observer.onError code message e
  match panic with
  | none => e
  | some p => e.note
      [.error ("Rescan observer panicked handling terminal callback: " ++ p.message)]

end RescanOutcome

namespace Engine

variable {χ : Type}

/-- Changes the slot. -/
def modifySlot (f : RescanSlot → RescanSlot) (e : Engine χ) : Engine χ :=
  { e with slot := f e.slot }

/-- Takes the slot for a range of heights. -/
def claim (start target : Int32) (e : Engine χ) : Option Nat × Engine χ :=
  match e.slot.claim start target with
  | (none, _) =>
    (none, e.note [.warn ("Rejecting rescan to " ++ toString target.toInt
      ++ ": another rescan is running")])
  | (some id, slot) =>
    (some id, { e.note [.info ("Rescan " ++ toString id ++ " from " ++ toString start.toInt
      ++ " through " ++ toString target.toInt)] with slot })

/-- What comes of a scanned height: nothing yet, or the end. -/
def reportScan (observer : ScanObserver χ) (height : Int32) (e : Engine χ) :
    Option RescanOutcome × Engine χ :=
  match observer.onScan height (e.modifySlot (·.advance height)) with
  | (.goOn, e) => (none, e)
  | (.stop, e) => (some (.cancelled height), e.modifySlot (·.markCancelled))
  | (.panicked p, e) =>
    (some (.ofError (.internal ("scan observer panicked: " ++ p.message))), e)

/-- Scans so many blocks from a height upward; with none left the rescan has
    come through its target. -/
def scanFrom (scan : BlockScanner χ) (observer : ScanObserver χ) (handle : Nat) (target : Int32) :
    Nat → Int32 → Routine (Engine χ) (Except Panic RescanOutcome)
  | 0, _ => return .ok (.completed target)
  | left + 1, height => do
    match ← untilStopped handle (scan height) with
    | .error reason => return .ok (.ofError reason)
    | .ok (.failed error) => return .ok (.ofError error)
    | .ok (.panicked p) => return .error p
    | .ok .scanned =>
      match ← .perform (reportScan observer height) with
      | some outcome => return .ok outcome
      | none => scanFrom scan observer handle target left (height + 1)

/-- The number of blocks of a range; none if it starts past its target. -/
def blockCount (start target : Int32) : Nat := (target.toInt - start.toInt + 1).toNat

/-- Scans a range of heights. -/
def scanRange (scan : BlockScanner χ) (observer : ScanObserver χ) (handle : Nat)
    (start target : Int32) : Routine (Engine χ) (Except Panic RescanOutcome) := do
  if target < start then
    .update (·.note [.debug ("Rescan start " ++ toString start.toInt ++ " is past target "
      ++ toString target.toInt ++ ", nothing to scan")])
  scanFrom scan observer handle target (blockCount start target) start

/-- The span of a rescan. -/
def rescanSpan (id : Nat) (target : Int32) (handle : Nat) : Span :=
  { name := "rescan"
    fields := [("id", toString id), ("target", toString target.toInt),
      ("operation", toString handle)] }

/-- Rescans a range of heights for an operation, unless another rescan is
    under way. -/
def rescan (scan : BlockScanner χ) (observer : ScanObserver χ) (handle : Nat)
    (start target : Int32) : Routine (Engine χ) (Except Panic RescanOutcome) := do
  match ← .perform (claim start target) with
  | none =>
    let outcome := .ofError .rescanInProgress
    .update (outcome.tell observer)
    return .ok outcome
  | some id =>
    (Engine.within (rescanSpan id target handle) do
      match ← scanRange scan observer handle start target with
      | .error p => return .error p
      | .ok outcome =>
        .update fun e => outcome.tell observer (e.note [outcome.line])
        return .ok outcome).ensuring (modifySlot (·.release))

end Engine

end ChainSync
