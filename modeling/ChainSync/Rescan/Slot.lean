import ChainSync.Panic
import ChainSync.SyncError

/-!
# Rescan Slot

Who may rescan, and what a rescan ends with.

There is one slot, and a rescan holds it from its claim until after it has
told its observer how it ended. A rescan that finds the slot taken leaves
everything as it is. Ids count the claims.

## Main definitions

* `RescanSession`: The rescan that holds the slot.
* `RescanSlot`: The slot.
* `RescanOutcome`: How a rescan ends.
-/

namespace ChainSync

/-- The rescan that holds the slot. -/
structure RescanSession where
  id : Nat
  start : Int32
  target : Int32
  /-- The last height scanned, one below the start at first. -/
  current : Int32
  /-- Whether the observer has asked to stop. -/
  cancelled : Bool := false
deriving DecidableEq

/-- The slot a rescan must hold. -/
structure RescanSlot where
  active : Option RescanSession := none
  /-- The id given out last. It is counted in 64 bits; here it is a number without a
      limit, since nobody begins so many rescans that ids begin again. -/
  lastId : Nat := 0
deriving DecidableEq

namespace RescanSlot

/-- Whether a rescan holds the slot. -/
def isTaken (s : RescanSlot) : Bool := s.active.isSome

/-- Takes the slot for a range of heights unless it is taken; the answer is the
    id of the rescan. -/
def claim (s : RescanSlot) (start target : Int32) : Option Nat × RescanSlot :=
  if s.isTaken then (none, s)
  else
    let id := s.lastId + 1
    let current := Int32.ofIntClamp (start.toInt - 1)
    (some id, { active := some { id, start, target, current }, lastId := id })

/-- Notes that a height has been scanned. -/
def advance (s : RescanSlot) (height : Int32) : RescanSlot :=
  { s with active := s.active.map fun r => { r with current := max r.current height } }

/-- Notes that the observer has asked to stop. -/
def markCancelled (s : RescanSlot) : RescanSlot :=
  { s with active := s.active.map fun r => { r with cancelled := true } }

/-- Gives the slot back. -/
def release (s : RescanSlot) : RescanSlot := { s with active := none }

end RescanSlot

/-- How a rescan ends. -/
inductive RescanOutcome where
  /-- All heights through this one have been scanned. -/
  | completed (height : Int32)
  /-- The observer asked to stop after this height. -/
  | cancelled (height : Int32)
  /-- Something went wrong, or the rescan was called off. -/
  | failed (code : ErrorCode) (message : String)
deriving DecidableEq

/-- The outcome of a rescan stopped by an error. -/
def RescanOutcome.ofError (e : SyncError) : RescanOutcome := .failed e.code e.message

end ChainSync
