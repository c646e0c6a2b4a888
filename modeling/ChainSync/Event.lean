import ChainSync.SyncError

/-!
# Sync Events

What an observer of a sync run is told.

## Main definitions

* `Event`: One callback with its arguments.
* `Event.description`: The event in the journal.
* `Event.isTerminal`: Whether the event ends a run.
-/

namespace ChainSync

/-- One callback to an observer of a sync run. -/
inductive Event where
  /-- The number of peers after one has joined. -/
  | peerConnected (peers : Int32)
  /-- The number of peers after one has left. -/
  | peerDisconnected (peers : Int32)
  /-- How many missing compact filters have been fetched. -/
  | fetchMissingFilters (count : Int32)
  /-- How many headers have been fetched, of a peer at a certain height. -/
  | fetchedHeaders (peerHeight count : Int32) (lastTime : Int64)
  /-- Whether address discovery is over. -/
  | discoveredAddresses (finished : Bool)
  /-- The height up to which blocks have been rescanned. -/
  | rescanProgress (through : Int32)
  /-- The run is over and the wallet is in sync. -/
  | synced (synced : Bool)
  /-- The run is over because of an error. -/
  | syncError (code : ErrorCode) (error : SyncError)
deriving DecidableEq

namespace Event

/-- Whether the event ends a run. -/
def isTerminal : Event → Bool
  | synced _ => true
  | syncError .. => true
  | _ => false

/-- The event as the journal shows it. -/
def description : Event → String
  | peerConnected n => "PeerConnected(peers=" ++ toString n.toInt ++ ")"
  | peerDisconnected n => "PeerDisconnected(peers=" ++ toString n.toInt ++ ")"
  | fetchMissingFilters n => "FetchMissingCFilters(count=" ++ toString n.toInt ++ ")"
  | fetchedHeaders peer count time =>
    "FetchedHeaders(peer_height=" ++ toString peer.toInt ++ ", count=" ++ toString count.toInt
      ++ ", last_time=" ++ toString time.toInt ++ ")"
  | discoveredAddresses b => "DiscoveredAddresses(finished=" ++ toString b ++ ")"
  | rescanProgress n => "RescanProgress(through=" ++ toString n.toInt ++ ")"
  | synced b => "Synced(" ++ toString b ++ ")"
  | syncError code error => "SyncError(code=" ++ code.text ++ ", " ++ error.message ++ ")"

/-- The code of the events that end a run with an error. -/
def code? : Event → Option ErrorCode
  | syncError code _ => some code
  | _ => none

/-- The height of a rescan event. -/
def rescanHeight? : Event → Option Int32
  | rescanProgress n => some n
  | _ => none

end Event

end ChainSync
