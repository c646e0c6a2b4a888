import ChainSync.Rehearsal.Scanner
import ChainSync.Rehearsal.Stage

/-!
# Scripted Runs

One rescan whose scanner and observer follow a script.

At given points of the rescan the script also does deeds. A run notes what it
has scanned and reported, and how it was told of the end.

## Main definitions

* `RunScript`: The script of one run.
* `RunScript.scan`, `RunScript.observer`: Its scanner and its observer.
* `RunScript.task`: The run as a task.
-/

namespace ChainSync

open RescanStage

/-- Where in a rescan a deed is done. -/
inductive HookPoint where
  | scanBlock
  | scanned
  | onScan
  | onEnd
deriving DecidableEq

/-- A deed done at a point of a rescan, at one height or at every one. -/
structure Hook where
  point : HookPoint
  height : Option Int32
  deed : Deed

/-- One scripted rescan. -/
structure RunScript where
  name : String
  /-- How long to wait before anything else, in milliseconds. -/
  delayBefore : Option Nat := none
  /-- The name of the token the handle is derived below. -/
  parent : String := "p"
  timeout : Option Nat := none
  start : Int32
  target : Int32
  scanner : ScanScript := {}
  /-- The height at which the scanner panics. -/
  scannerPanicsAt : Option Int32 := none
  /-- A height that is scanned and then fails all the same. -/
  failure : Option (Int32 × SyncError) := none
  /-- The number of heights after which the observer asks to stop. -/
  stopAfter : Option Nat := none
  /-- The height at which the observer panics, and with what. -/
  panicsAt : Option (Int32 × Panic) := none
  /-- Whether the observer panics when told of the end. -/
  panicsAtEnd : Bool := false
  hooks : List Hook := []

namespace RunScript

/-- The deeds of a run at a point and a height. -/
def deedsAt (r : RunScript) (point : HookPoint) (height : Int32) : List Deed :=
  (r.hooks.filter fun h => h.point = point ∧ (h.height = none ∨ h.height = some height)).map
    (·.deed)

/-- Does the deeds of a run at a point and a height. -/
def runHooks (r : RunScript) (point : HookPoint) (height : Int32) (e : Engine RescanStage) :
    Engine RescanStage :=
  (r.deedsAt point height).foldl (doDeed r.name) e

/-- Changes what the run has noted. -/
def jot (r : RunScript) (f : RunNotes → RunNotes) (e : Engine RescanStage) : Engine RescanStage :=
  e.modifyOwn (modifyNotes r.name f)

/-- The scanner of a run. -/
def scan (r : RunScript) : BlockScanner RescanStage := fun height => do
  .update fun e => r.runHooks .scanBlock height (happened r.name (.scanBlock height) e)
  if r.scannerPanicsAt = some height then return .panicked (.text "scanner broke")
  let note (h : Int32) := modifyNotes r.name fun n => { n with scanned := h :: n.scanned }
  match ← r.scanner.scan note height with
  | .scanned => match r.failure with
    | some (failing, error) =>
      if failing = height then return .failed error
      .update (r.runHooks .scanned height)
      return .scanned
    | none =>
      .update (r.runHooks .scanned height)
      return .scanned
  | result => return result

/-- The observer's answer to a scanned height. -/
def onScan (r : RunScript) (height : Int32) (e : Engine RescanStage) :
    ScanAnswer × Engine RescanStage :=
  let e := r.jot (fun n => { n with reported := height :: n.reported }) e
  let count := (e.own.notesOf r.name).reported.length
  let goOn := (r.stopAfter.map (decide <| count < ·)).getD true
  let e := r.runHooks .onScan height (happened r.name (.onScan height goOn) e)
  match r.panicsAt with
  | some (breaking, p) =>
    (if breaking = height then .panicked p else if goOn then .goOn else .stop, e)
  | none => (if goOn then .goOn else .stop, e)

/-- How the observer takes the end. -/
def endPanic (r : RunScript) : Option Panic :=
  if r.panicsAtEnd then some (.text "terminal observer broke") else none

/-- The observer of a run. -/
def observer (r : RunScript) : ScanObserver RescanStage where
  onScan := r.onScan
  onEnd height cancelled e :=
    let e := r.runHooks .onEnd height (happened r.name (.onEnd height cancelled) e)
    (r.endPanic, r.jot (fun n => { n with endings := .ended height cancelled :: n.endings }) e)
  onError code message e :=
    let e := happened r.name (.onError code message) e
    (r.endPanic, r.jot (fun n => { n with endings := .error code message :: n.endings }) e)

/-- Notes that a run is over. -/
def markOver (r : RunScript) (scannerPanicked : Bool) (e : Engine RescanStage) :
    Engine RescanStage :=
  e.modifyOwn fun s => { s with finished := (r.name, scannerPanicked) :: s.finished }

/-- A run up to its end. -/
def body (r : RunScript) : Routine (Engine RescanStage) Unit := do
  r.delayBefore.forM Engine.sleep
  let parent ← .perform (·.tokenNamed r.parent)
  let handle ← .perform (·.deriveNamed r.name parent r.timeout)
  match ← Engine.rescan r.scan r.observer handle r.start r.target with
  | .error _ => .update (r.markOver true)
  | .ok outcome =>
    .update fun e =>
      let what := .outcome outcome (e.own.notesOf r.name) (e.coordinator.state? handle)
        e.slot.active
      r.markOver false (happened r.name what e)

/-- A run as a task, which ends early when it is called off. -/
def task (r : RunScript) : Routine (Engine RescanStage) Unit := do
  let calledOff (e : Engine RescanStage) : Option Unit :=
    if r.name ∈ e.own.aborted then some () else none
  match ← r.body.unlessStopped calledOff with
  | .ok _ => return ()
  | .error _ => .update (r.markOver false)

end RunScript

end ChainSync
