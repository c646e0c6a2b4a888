import ChainSync.Rescan.Run

/-!
# Rehearsal Stage

What happens in a rehearsal of rescans, and the record of it.

A deed is something a script can do besides scanning: ask for a shutdown,
cancel something, or look around. All that happens goes into one timeline.

## Main definitions

* `Deed`, `DeedResult`: What a script can do, and what that comes to.
* `Entry`: What happened when, and to whom.
* `RescanStage`: The record.
* `RescanStage.doDeed`: A deed with its entry.
-/

namespace ChainSync

/-- What a script can do. -/
inductive Deed where
  /-- Ask for a shutdown. -/
  | shutdown
  /-- Let a signal come in. -/
  | signal
  /-- Cancel the handle of a run. -/
  | cancel (run : String)
  /-- Cancel a token. -/
  | cancelParent (name : String)
  /-- Look at the slot. -/
  | probe
  /-- Count what is alive. -/
  | active
deriving DecidableEq

/-- The name of a deed. -/
def Deed.name : Deed → String
  | shutdown => "shutdown"
  | signal => "signal"
  | cancel _ => "cancel"
  | cancelParent _ => "cancel_parent"
  | probe => "probe"
  | active => "active"

/-- What a deed comes to. -/
inductive DeedResult where
  | nothing
  | flag (b : Bool)
  | slot (holder : Option RescanSession)
  | alive (handles watchers : Nat)
deriving DecidableEq

/-- The end of a rescan as its observer was told. -/
inductive Ending where
  | ended (height : Int32) (cancelled : Bool)
  | error (code : ErrorCode) (message : String)
deriving DecidableEq

/-- What a run's scanner and observer have noted, newest first. -/
structure RunNotes where
  scanned : List Int32 := []
  reported : List Int32 := []
  endings : List Ending := []

/-- What happened. -/
inductive Happening where
  | scanBlock (height : Int32)
  | onScan (height : Int32) (goOn : Bool)
  | onEnd (height : Int32) (cancelled : Bool)
  | onError (code : ErrorCode) (message : String)
  | deed (d : Deed) (result : DeedResult)
  | outcome (outcome : RescanOutcome) (notes : RunNotes) (handle : Option HandleState)
      (slot : Option RescanSession)
  | aborted (slot : Option RescanSession)
  | panicked (slot : Option RescanSession)

/-- What happened when, and to whom. -/
structure Entry where
  time : Nat
  who : String
  what : Happening

/-- The record of a rehearsal. -/
structure RescanStage where
  /-- Newest first. -/
  timeline : List Entry := []
  notes : List (String × RunNotes) := []
  /-- The runs that have been called off. -/
  aborted : List String := []
  /-- The runs that are over, and whether their scanner panicked. -/
  finished : List (String × Bool) := []

namespace RescanStage

/-- The name of the main routine in the timeline. -/
def mainName : String := "main"

/-- What a run has noted. -/
def notesOf (s : RescanStage) (run : String) : RunNotes := (s.notes.lookup run).getD {}

/-- Changes what a run has noted. -/
def modifyNotes (run : String) (f : RunNotes → RunNotes) (s : RescanStage) : RescanStage :=
  { s with notes := (run, f (s.notesOf run)) :: s.notes.filter (·.1 ≠ run) }

/-- Puts an entry into the timeline. -/
def happened (who : String) (what : Happening) (e : Engine RescanStage) : Engine RescanStage :=
  e.modifyOwn fun s => { s with timeline := ⟨e.now, who, what⟩ :: s.timeline }

/-- The state after a deed, and what it comes to. -/
def perform (e : Engine RescanStage) : Deed → DeedResult × Engine RescanStage
  | .shutdown => let (first, e) := e.fire .request; (.flag first, e)
  | .signal => let (first, e) := e.fire (.signal "SIGTERM"); (.flag first, e)
  | .cancel run => match e.handle? run with
    | none => (.nothing, e)
    | some id => let (first, e) := e.cancel id; (.flag first, e)
  | .cancelParent name => let (t, e) := e.tokenNamed name; (.nothing, e.cancelToken t)
  | .probe => (.slot e.slot.active, e)
  | .active => (.alive e.coordinator.activeHandles e.coordinator.activeWatchers, e)

/-- Does a deed and puts it into the timeline. -/
def doDeed (who : String) (e : Engine RescanStage) (d : Deed) : Engine RescanStage :=
  let (result, e) := perform e d
  happened who (.deed d result) e

end RescanStage

end ChainSync
