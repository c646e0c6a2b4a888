import ChainSync.Engine.Clock

/-!
# Tasks

Several routines that share one engine.

One of them is the main one; the others are tasks that run beside it. Whoever
is woken is put at the end of a queue, and the queue is run one after the
other, watchers and tasks alike. A task that gives way is put back only at the
end of the round, which comes when the queue is empty or has run for long
enough. The main routine goes on only between two rounds, and the clock moves
only when nobody can go on at all.

## Main definitions

* `Tasks`: The routines and the queue.
* `Tasks.step`: The next thing that happens.
* `Tasks.runFor`: So many steps.
-/

namespace ChainSync

/-- What stands in the queue. -/
inductive Job where
  /-- The watcher of a handle. -/
  | watcher (handle : Nat)
  /-- The task at a place. -/
  | task (index : Nat)
deriving DecidableEq

/-- The most jobs of one round. -/
def roundLength : Nat := 61

/-- A main routine and the tasks beside it. -/
structure Tasks (χ α : Type) : Type 1 where
  engine : Engine χ
  main : Routine (Engine χ) α
  tasks : List (Routine (Engine χ) Unit)
  queue : List Job := []
  /-- The tasks that have given way in this round, the latest first. -/
  yielded : List Nat := []
  /-- How many jobs the round may still have. -/
  left : Nat := roundLength

namespace Tasks

variable {χ α : Type}

/-- The beginning: the main routine has come to its first wait, and all tasks
    are about to begin. -/
def start (engine : Engine χ) (main : Routine (Engine χ) α)
    (tasks : List (Routine (Engine χ) Unit)) : Tasks χ α :=
  let (main, engine) := main.poll engine
  { engine, main, tasks, queue := (List.range tasks.length).map .task }

/-- Whether the task at a place has been woken. One that has given way is not
    woken by the time. -/
def isWoken (t : Tasks χ α) (index : Nat) : Bool :=
  match t.tasks[index]? with
  | none => false
  | some r => r.isReady t.engine || (index ∉ t.yielded && r.isDue t.engine.now)

/-- Puts whoever has been woken at the end of the queue. -/
def wake (t : Tasks χ α) : Tasks χ α :=
  let watchers := t.engine.coordinator.woken.map Job.watcher
  let tasks := (List.range t.tasks.length).filter fun i => .task i ∉ t.queue && t.isWoken i
  { t with
    engine := { t.engine with coordinator := { t.engine.coordinator with woken := [] } }
    queue := t.queue ++ watchers ++ tasks.map .task
    yielded := t.yielded.filter (· ∉ tasks) }

/-- Runs the watcher of a handle. -/
def runWatcher (t : Tasks χ α) (handle : Nat) : Tasks χ α :=
  let (notice, coordinator) := t.engine.coordinator.runWatcher handle
  { t with engine := { t.engine with
      coordinator
      journal := notice.toList.map (·.line) ++ t.engine.journal } }

/-- Lets the task at a place run up to its next wait. -/
def runTask (t : Tasks χ α) (index : Nat) : Tasks χ α :=
  match t.tasks[index]? with
  | none => t
  | some r =>
    let (r, engine) := r.resume t.engine.beginTurn
    let yielded := if r.isDue engine.now then index :: t.yielded else t.yielded
    { t with engine, tasks := t.tasks.set index r, yielded }

/-- Runs what stands in the queue. -/
def runJob (t : Tasks χ α) : Job → Tasks χ α
  | .watcher handle => t.runWatcher handle
  | .task index => t.runTask index

/-- Lets the main routine run up to its next wait, if it can go on. -/
def runMain (t : Tasks χ α) : Tasks χ α :=
  if t.main.canGoOn t.engine.now t.engine then
    let (main, engine) := t.main.resume t.engine.beginTurn
    { t with main, engine }
  else t

/-- The next point in time anybody waits for. -/
def nextTime (t : Tasks χ α) : Option Nat :=
  t.tasks.foldl (fun time r => Coordinator.earlier time r.timer?)
    (Coordinator.earlier t.main.timer? t.engine.coordinator.nextDeadline)

/-- Whether anybody can go on at this time. -/
def isBusy (t : Tasks χ α) : Bool :=
  !t.queue.isEmpty || !t.yielded.isEmpty || t.main.canGoOn t.engine.now t.engine

/-- The end of a round, which moves the clock if nobody can go on; there is no
    other round if nobody ever will. -/
def nextRound (t : Tasks χ α) : Option (Tasks χ α) :=
  let t := { t with left := roundLength }
  if t.isBusy then
    some ({ t with queue := t.queue ++ t.yielded.map .task, yielded := [] } : Tasks χ α).runMain
  else
    t.nextTime.map fun time =>
      ({ t with engine := t.engine.moveTo time } : Tasks χ α).wake.runMain

/-- The next thing that happens, unless nothing ever will. -/
def step (t : Tasks χ α) : Option (Tasks χ α) :=
  let t := t.wake
  match t.left, t.queue with
  | left + 1, job :: queue => some (({ t with left, queue } : Tasks χ α).runJob job)
  | _, _ => t.nextRound

/-- Up to so many steps, until the main routine has ended. -/
def runFor : Nat → Tasks χ α → Tasks χ α
  | 0, t => t
  | steps + 1, t =>
    match t.main.result?, t.step with
    | none, some t => runFor steps t
    | _, _ => t

/-- The engine, where the watchers that stand in the queue still have to run. -/
def returnJobs (t : Tasks χ α) : Engine χ :=
  let waiting := t.queue.filterMap fun
    | .watcher handle => some handle
    | .task _ => none
  { t.engine with coordinator :=
    { t.engine.coordinator with woken := waiting ++ t.engine.coordinator.woken } }

end Tasks

end ChainSync
