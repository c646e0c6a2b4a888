import ChainSync.Cancel.Settle
import ChainSync.Engine.Basic

/-!
# Engine Clock

Time that passes only while all work waits.

When all work waits, woken watchers run first; then the clock jumps to the
next point in time anybody waits for. So a routine that sleeps goes on at the
very time it asked for, and what watchers do at that time comes before.

A turn of a routine lasts until it has to wait. For a wait that could end at
once it does not have to; but the waits that end in one turn are counted, and
a routine that has used up its allowance gives way before the next one. So
nobody is kept from running by work that never really waits.

## Main definitions

* `Engine.idle`: Time until a routine can go on.
* `Engine.run`: One routine from beginning to end.
* `Engine.advance`: Time without work.
* `Engine.await`, `Engine.sleep`: Waits.
* `Engine.stopReason`, `Engine.untilStopped`: Work that may be called off.
-/

namespace ChainSync

namespace Engine

variable {χ : Type}

/-- Moves the clock and wakes the watchers whose time is up. -/
def moveTo (e : Engine χ) (t : Nat) : Engine χ :=
  { e with coordinator := e.coordinator.moveTo t }

/-- Lets time pass until the state is as wanted or a time has come, moving the
    clock up to so many times; the answer tells whether that happens. -/
def idleWithin (ready : Engine χ → Bool) (timer : Option Nat) : Nat → Engine χ → Bool × Engine χ
  | 0, e => (false, e)
  | moves + 1, e =>
    let e := e.settle
    if ready e || (timer.map (decide <| · ≤ e.now)).getD false then (true, e)
    else match Coordinator.earlier timer e.coordinator.nextDeadline with
      | none => (false, e)
      | some t => idleWithin ready timer moves (e.moveTo t)

/-- Lets time pass until the state is as wanted or a time has come. Every move
    of the clock ends a watcher or the wait. -/
def idle (e : Engine χ) (ready : Engine χ → Bool) (timer : Option Nat) : Bool × Engine χ :=
  idleWithin ready timer (e.coordinator.watchers.length + 2) e

/-- Begins a turn. -/
def beginTurn (e : Engine χ) : Engine χ := { e with allowance := turnLength }

/-- Runs a routine from beginning to end, or until it is given up because it
    still waits at the time `limit` or nothing it waits for can happen. -/
def run {α : Type} (limit : Option Nat) : Routine (Engine χ) α → Engine χ → Option α × Engine χ
  | .done a, e => (some a, e)
  | .act change next, e =>
    let (b, e) := change e
    run limit (next b) e
  | .wait ready timer abandon next, e =>
    let (_, e) := e.idle ready (Coordinator.earlier timer limit)
    if ready e || (timer.map (decide <| · ≤ e.now)).getD false then run limit next e.beginTurn
    else (none, abandon e)

/-- Lets milliseconds pass one at a time. -/
def pass : Nat → Engine χ → Engine χ
  | 0, e => e
  | ms + 1, e => pass ms (e.moveTo (e.now + 1)).settle

/-- The longest time that passes one millisecond at a time. -/
def finePassage : Nat := 1000

/-- Lets time pass without work; a long time is one jump. -/
def advance (e : Engine χ) (ms : Nat) : Engine χ :=
  if ms ≤ finePassage then e.settle.pass ms else (e.settle.moveTo (e.now + ms)).settle

/-- Gives way if nothing is left of the turn. -/
def giveWayIfSpent : Routine (Engine χ) Unit := do
  if (← .ask (·.allowance)) = 0 then .giveWay

/-- Waits until the state is as wanted or a time has come. -/
def await (ready : Engine χ → Bool) (timer : Option Nat) : Routine (Engine χ) Unit := do
  giveWayIfSpent
  unless ← .ask fun e => ready e || (timer.map (decide <| · ≤ e.now)).getD false do
    .pause ready timer
  .update fun e => { e with allowance := e.allowance - 1 }

/-- Waits for a number of milliseconds, which may be none. -/
def sleep (ms : Nat) : Routine (Engine χ) Unit := do
  await (fun _ => false) (some (← .ask (·.coordinator.after ms)))

/-- Why the operation of a handle has to stop, if it has to. -/
def stopReason (handle : Nat) (e : Engine χ) : Option SyncError :=
  e.coordinator.cancellation handle

/-- Does work for the operation of a handle unless that has to stop. -/
def untilStopped {α : Type} (handle : Nat) (work : Routine (Engine χ) α) :
    Routine (Engine χ) (Except SyncError α) := do
  match ← .ask (stopReason handle) with
  | some reason => return .error reason
  | none =>
    giveWayIfSpent
    work.unlessStopped (stopReason handle)

end Engine

end ChainSync
