import ChainSync.Engine.Tasks
import ChainSync.Rehearsal.Run

/-!
# Rehearsed Rescans

Several scripted rescans side by side.

Every run is a task of its own. The main routine does deeds at given times, may
call runs off, and waits for all of them. When every handle has been dropped it
looks around once more.

## Main definitions

* `StageAction`: What the main routine can do.
* `rehearseRescans`: The whole rehearsal.
-/

namespace ChainSync

open RescanStage

/-- What the main routine does at a time. -/
inductive StageAction where
  | deed (d : Deed)
  /-- Calls a run off. -/
  | abort (run : String)

/-- The number of times the main routine gives way until everybody waits. -/
def settlingTurns : Nat := 32

/-- Waits until a run is over; the answer tells whether its scanner panicked. -/
def awaitRun (run : String) : Routine (Engine RescanStage) Bool := do
  let verdict (e : Engine RescanStage) := e.own.finished.lookup run
  Engine.await (fun e => (verdict e).isSome) none
  return (← .ask verdict).getD false

/-- Calls a run off and lets everybody go on until they wait again. The run may
    be over already, and there may be no such run. -/
def callOff (run : String) : Routine (Engine RescanStage) Unit := do
  .update (·.modifyOwn fun s => { s with aborted := run :: s.aborted })
  for _ in List.range settlingTurns do .giveWay
  .update fun e => happened run (.aborted e.slot.active) e

/-- Does what the main routine does at a time. -/
def StageAction.play : Nat × StageAction → Routine (Engine RescanStage) Unit
  | (time, action) => do
    Engine.sleep (time - (← .ask Engine.now))
    match action with
    | .deed d => .update (doDeed mainName · d)
    | .abort run => callOff run

/-- Waits for a run and notes it if its scanner panicked. -/
def RunScript.await (r : RunScript) : Routine (Engine RescanStage) Unit := do
  if ← awaitRun r.name then .update fun e => happened r.name (.panicked e.slot.active) e

/-- The main routine: its actions in the order of their times, and a wait for
    every run. -/
def mainRoutine (runs : List RunScript) (actions : List (Nat × StageAction)) :
    Routine (Engine RescanStage) Unit := do
  for action in actions.mergeSort fun a b => a.1 ≤ b.1 do StageAction.play action
  for run in runs do run.await

/-- More steps than a rehearsal can take. -/
def rehearsalSteps (runs : List RunScript) (actions : List (Nat × StageAction)) : Nat :=
  let blocks := runs.foldl (fun n r => n + Engine.blockCount r.start r.target + 8) 0
  8 * (blocks + (runs.length + settlingTurns * actions.length + 2) * (runs.length + 4))

/-- Plays all runs and actions and looks around at the end, when every handle
    has been dropped. -/
def rehearseRescans (runs : List RunScript) (actions : List (Nat × StageAction)) :
    Engine RescanStage :=
  let fresh : Engine RescanStage := { controller := { network := .mainnet }, own := {} }
  let played := (Tasks.start fresh (mainRoutine runs actions) (runs.map (·.task))).runFor
    (rehearsalSteps runs actions)
  let e := played.returnJobs
  let e := (e.handles.foldl (fun e h => (e.dropNamed h.1).2) e).settle
  [Deed.active, .probe].foldl (doDeed mainName) e

end ChainSync
