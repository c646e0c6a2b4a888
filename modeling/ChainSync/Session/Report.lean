import ChainSync.Event
import ChainSync.Session.Journal

/-!
# Worker Reports

What the workers of a sync run report, and what a session makes of it.

A report that changes anything an observer should know becomes an event; the
begin of the header fetch does not, and neither does a report that is dropped.

## Main definitions

* `Report`: The reports.
* `Session.take`: The session after a report, and the event.
* `Session.takeLines`: The lines of a report.
-/

namespace ChainSync

/-- What a worker of a sync run reports. -/
inductive Report where
  /-- The number of peers after one has joined. -/
  | peerConnected (peers : Int32)
  /-- The number of peers after one has left. -/
  | peerDisconnected (peers : Int32)
  /-- How many missing compact filters have been fetched. -/
  | fetchMissingFilters (count : Int32)
  /-- The header fetch begins with the local chain at a height. -/
  | beginHeaders (height : Int32)
  /-- How many headers have been fetched, of a peer at a certain height. -/
  | fetchedHeaders (peerHeight count : Int32) (lastTime : Int64)
  /-- Whether address discovery is over. -/
  | discoveredAddresses (finished : Bool)
  /-- The height up to which blocks have been rescanned. -/
  | rescanProgress (through : Int32)
  /-- The run is in sync. -/
  | synced
  /-- The run cannot go on. -/
  | failed (error : SyncError)
deriving DecidableEq

namespace Session

/-- The session after a report, and the event observers are told of. -/
def take (s : Session) (now : Nat) : Report → Except Rejection (Option Event × Session)
  | .peerConnected peers => do
    let s ← s.setPeers peers
    return (some (.peerConnected s.peers), s)
  | .peerDisconnected peers => do
    let s ← s.setPeers peers
    return (some (.peerDisconnected s.peers), s)
  | .fetchMissingFilters count => do
    let (accepted, s) ← s.recordFilters count now
    return (if accepted then some (.fetchMissingFilters count) else none, s)
  | .beginHeaders height => do
    let s ← s.beginHeaders height now
    return (none, s)
  | .fetchedHeaders peerHeight count lastTime => do
    let s ← s.recordHeaders peerHeight count lastTime now
    return (some (.fetchedHeaders peerHeight count lastTime), s)
  | .discoveredAddresses finished => do
    let (accepted, s) ← s.recordDiscovery finished now
    return (if accepted then some (.discoveredAddresses finished) else none, s)
  | .rescanProgress through => do
    let (accepted, s) ← s.recordRescan through now
    return (if accepted then some (.rescanProgress through) else none, s)
  | .synced => do
    let s ← s.finish now
    return (some (.synced true), s)
  | .failed error => do
    let s ← s.fail error now
    return (some (.syncError error.code error), s)

/-- The line of a report that was taken but led to no event. -/
def droppedLine (s : Session) : Report → Option Line
  | .fetchMissingFilters count => some (s.droppedFilters count)
  | .discoveredAddresses _ => some droppedDiscovery
  | .rescanProgress through => some (s.droppedRescan through)
  | _ => none

/-- The lines of a report that was taken: its moves, and that it was dropped. -/
def takeLines (s : Session) (r : Report) (event : Option Event) (after : Session) : List Line :=
  s.moveLines after ++ if event.isNone then (s.droppedLine r).toList else []

end Session

end ChainSync
