import ChainSync.Controller.Drive
import ChainSync.Rehearsal.Scanner

/-!
# Scripted Work

The work of a sync done by a script, for rehearsing a controller.

The steps a worker can take are the same inside the work that is driven and
outside of it. Inside, the script may also sleep and rescan; a step may be
marked so that the work ends with its error.

## Main definitions

* `WorkerStep`, `ScriptStep`: The steps.
* `StepResult`: What a step comes to.
* `Script`: The work.
* `Script.drive`: The work driven under a handle.
-/

namespace ChainSync

/-- What a worker can do. -/
inductive WorkerStep where
  /-- Begin a session. -/
  | begin
  /-- Report to the session. -/
  | report (r : Report)
  /-- Ask for a shutdown. -/
  | shutdown
  /-- Cancel the handle of a name. -/
  | cancel (handle : String)
  /-- Cancel the token of a name. -/
  | cancelParent (parent : String)

/-- What a step comes to. -/
inductive StepResult where
  | nothing
  | session (id : UInt64)
  | flag (b : Bool)
  | rescan (outcome : RescanOutcome) (scanned : List Int32)
  | failed (error : SyncError)
  /-- There is no handle of that name. -/
  | noHandle

/-- The record of a script that is being played. -/
structure ScriptStage where
  /-- The results of the steps so far, newest first. -/
  results : List StepResult := []
  /-- The heights the latest rescan has scanned, newest first. -/
  scanned : List Int32 := []

/-- Takes a worker's step. -/
def WorkerStep.play {χ : Type} (e : Engine χ) : WorkerStep → StepResult × Engine χ
  | .begin => match e.begin with
    | (.ok id, e) => (.session id, e)
    | (.error err, e) => (.failed err, e)
  | .report r => match e.report r with
    | (.ok (), e) => (.nothing, e)
    | (.error err, e) => (.failed err, e)
  | .shutdown => let (first, e) := e.fire .request; (.flag first, e)
  | .cancel name => match e.handle? name with
    | none => (.noHandle, e)
    | some id => let (first, e) := e.cancel id; (.flag first, e)
  | .cancelParent name => let (t, e) := e.tokenNamed name; (.nothing, e.cancelToken t)

/-- A step of a script. -/
inductive ScriptStep where
  | worker (step : WorkerStep)
  | sleep (ms : Nat)
  /-- Rescan with a handle below the one the work is driven under. -/
  | rescan (start target : Int32) (scanner : ScanScript) (timeout : Option Nat)

/-- How the work of a script ends. -/
inductive ScriptEnd where
  | outcome (result : Except SyncError Unit)
  /-- It waits for ever. -/
  | never

/-- The work of a sync as a script; a step marked `true` ends it if it fails. -/
structure Script where
  steps : List (ScriptStep × Bool)
  ending : ScriptEnd

/-- An observer that reports rescanned heights to the session and does nothing
    at the end. -/
def quietBridge : ScanObserver ScriptStage where
  onScan := Engine.bridge.onScan
  onEnd _ _ e := (none, e)
  onError _ _ e := (none, e)

/-- A rescan of a script: below a token, with a handle that is dropped
    afterwards. -/
def scriptedRescan (token : Nat) (start target : Int32) (scanner : ScanScript)
    (timeout : Option Nat) : Routine (Engine ScriptStage) StepResult := do
  let handle ← .perform (·.derive token timeout)
  let note (h : Int32) (s : ScriptStage) : ScriptStage := { s with scanned := h :: s.scanned }
  .ensuring (·.drop handle) do
    .update (·.modifyOwn fun s => { s with scanned := [] })
    match ← Engine.rescan (scanner.scan note) quietBridge handle start target with
    | .ok outcome => return .rescan outcome (← .ask (·.own.scanned.reverse))
    | .error _ => return .nothing

/-- Takes a step of a script driven under a handle with a given token. -/
def ScriptStep.play (token : Nat) : ScriptStep → Routine (Engine ScriptStage) StepResult
  | .worker step => .perform step.play
  | .sleep ms => do
    Engine.sleep ms
    return .nothing
  | .rescan start target scanner timeout => scriptedRescan token start target scanner timeout

namespace Script

/-- Takes the steps one after the other. -/
def playSteps (token : Nat) (ending : ScriptEnd) :
    List (ScriptStep × Bool) → Routine (Engine ScriptStage) (Except SyncError Unit)
  | [] => match ending with
    | .outcome result => return result
    | .never => do
      Routine.never
      return .ok ()
  | (step, must) :: rest => do
    let result ← step.play token
    .update (·.modifyOwn fun s => { s with results := result :: s.results })
    match result, must with
    | .failed err, true => return .error err
    | _, _ => playSteps token ending rest

/-- How long anybody waits for the work to end, in milliseconds. -/
def patience : Nat := 1000000000000

/-- Drives the script under a handle with a given token. The answer is what the
    drive comes to, if it does in time, and the results of the steps. -/
def drive (script : Script) (handle token : Nat) (e : Engine ScriptStage) :
    Option (Except SyncError Unit) × List StepResult × Engine ScriptStage :=
  let work := Engine.drive handle (playSteps token script.ending script.steps)
  let (result, e) := Engine.run (some (e.now + patience)) work { e.beginTurn with own := {} }
  (result, e.own.results.reverse, e)

end Script

end ChainSync
