import ChainSync.Phase
import ChainSync.SyncError

/-!
# Sync Sessions

The state of one sync run, and the reports that change it.

A session starts idle, is begun once and then takes reports until it reaches
one of the two ends. A report that belongs to a phase moves the session into
that phase first; a report of an earlier phase is refused. Counters that only
make sense growing are guarded: a report that would take one of them back is
dropped, which the caller learns from the answer so that it passes nothing on.

Points in time are nanoseconds after an arbitrary origin.

## Main definitions

* `Session`: The state of a run.
* `Session.Rejection`: Why a report is refused.
* `Session.start`: A new session.
* `Session.begin`, `Session.setPeers`, `Session.recordFilters`,
  `Session.beginHeaders`, `Session.recordHeaders`, `Session.recordDiscovery`,
  `Session.recordRescan`, `Session.finish`, `Session.fail`: The reports.
-/

namespace ChainSync

/-- A move from one phase to another. -/
structure Transition where
  source : Phase
  target : Phase
  time : Nat
  reason : String
deriving DecidableEq

/-- The error a failed session ended with. -/
structure TerminalError where
  code : ErrorCode
  error : SyncError
deriving DecidableEq

/-- An error with its code. -/
def TerminalError.ofError (e : SyncError) : TerminalError := ⟨e.code, e⟩

/-- The state of one sync run. -/
structure Session where
  id : UInt64
  startedAt : Nat
  phase : Phase := .idle
  finishedAt : Option Nat := none
  /-- Peers connected. -/
  peers : Int32 := 0
  /-- Missing compact filters fetched. -/
  filters : Int32 := 0
  headersStartedAt : Option Nat := none
  /-- The height of the local chain when the header fetch began. -/
  headersStart : Int32 := 0
  /-- The greatest height a peer has announced. -/
  peerHeight : Int32 := 0
  /-- Headers fetched since the header fetch began. -/
  headers : Int32 := 0
  /-- The timestamp of the newest header. -/
  lastHeaderTime : Int64 := 0
  discoveryStartedAt : Option Nat := none
  /-- Whether address discovery is over. -/
  discovered : Bool := false
  rescanStartedAt : Option Nat := none
  /-- The height up to which blocks have been rescanned. -/
  rescanned : Int32 := 0
  terminal : Option TerminalError := none
  /-- All moves between phases, oldest first. -/
  history : List Transition := []
  /-- The greatest progress shown so far, in percent. -/
  bestProgress : UInt8 := 0
deriving DecidableEq

namespace Session

/-- Why a report is refused. -/
inductive Rejection where
  /-- The session has been begun before. -/
  | alreadyStarted (id : UInt64) (phase : Phase)
  /-- The session is over. -/
  | alreadyFinished (id : UInt64) (phase : Phase)
  /-- The report belongs to an earlier phase. -/
  | outOfOrder (event current : Phase)
  /-- The phases do not follow each other. -/
  | cannotMove (source target : Phase)
deriving DecidableEq

/-- What a rejection tells its caller. -/
def Rejection.detail : Rejection → String
  | alreadyStarted id phase =>
    "session " ++ toString id.toNat ++ " already started (" ++ phase.title ++ ")"
  | alreadyFinished id phase =>
    "session " ++ toString id.toNat ++ " already finished (" ++ phase.title ++ ")"
  | outOfOrder event current => event.title ++ " event received during " ++ current.title
  | cannotMove source target => "cannot move from " ++ source.title ++ " to " ++ target.title

/-- A rejection as a sync error. -/
def Rejection.toError (r : Rejection) : SyncError := .invalidState r.detail

/-- A new session, idle and with all counters at zero. -/
def start (id : UInt64) (now : Nat) : Session := { id, startedAt := now }

/-- Whether the session still takes reports. -/
def isActive (s : Session) : Bool := !s.phase.isTerminal

/-- The height the header chain has reached, within 32 bits. -/
def headerHeight (s : Session) : Int32 :=
  Int32.ofIntClamp (s.headersStart.toInt + s.headers.toInt)

/-- Notes when a phase is entered that later times are measured from. -/
def stamp (s : Session) (next : Phase) (now : Nat) : Session :=
  match next with
  | .fetchingHeaders => { s with headersStartedAt := some now }
  | .discoveringAddresses => { s with discoveryStartedAt := some now }
  | .rescanning => { s with rescanStartedAt := some now }
  | .synced => { s with finishedAt := some now }
  | .failed => { s with finishedAt := some now }
  | _ => s

/-- Moves to a phase that may follow and notes the move. -/
def move (s : Session) (next : Phase) (reason : String) (now : Nat) : Except Rejection Session :=
  if s.phase.canMoveTo next then
    .ok { s.stamp next now with
      phase := next
      history := s.history ++ [⟨s.phase, next, now, reason⟩] }
  else .error (.cannotMove s.phase next)

/-- Refuses every report once the session is over. -/
def ensureActive (s : Session) : Except Rejection Unit :=
  if s.isActive then .ok () else .error (.alreadyFinished s.id s.phase)

/-- Moves on to the phase a report belongs to, or stays in it. -/
def enter (s : Session) (phase : Phase) (reason : String) (now : Nat) :
    Except Rejection Session := do
  s.ensureActive
  if s.phase = phase then .ok s
  else if phase.rank < s.phase.rank then .error (.outOfOrder phase s.phase)
  else s.move phase reason now

/-- Begins an idle session. -/
def begin (s : Session) (now : Nat) : Except Rejection Session :=
  if s.phase = .idle then s.move .connectingPeers "session started" now
  else .error (.alreadyStarted s.id s.phase)

/-- Notes the number of peers; less than none is none. -/
def setPeers (s : Session) (count : Int32) : Except Rejection Session := do
  s.ensureActive
  return { s with peers := max count 0 }

/-- Notes how many filters have been fetched; a smaller number than before is
    dropped, and the answer is `false`. -/
def recordFilters (s : Session) (count : Int32) (now : Nat) :
    Except Rejection (Bool × Session) := do
  let s ← s.enter .fetchingMissingFilters "fetching missing cfilters" now
  if count < s.filters then return (false, s) else return (true, { s with filters := count })

/-- Begins the header fetch with the local chain at a height. -/
def beginHeaders (s : Session) (height : Int32) (now : Nat) : Except Rejection Session := do
  let s ← s.enter .fetchingHeaders "fetching headers" now
  return { s with headersStart := height }

/-- Notes how many headers have been fetched. A smaller number than before is
    passed on all the same, but neither it nor its time is kept. -/
def recordHeaders (s : Session) (peerHeight count : Int32) (time : Int64) (now : Nat) :
    Except Rejection Session := do
  let s ← s.enter .fetchingHeaders "fetching headers" now
  let s := { s with peerHeight := max s.peerHeight peerHeight }
  if s.headers ≤ count then
    return { s with headers := count, lastHeaderTime := max s.lastHeaderTime time }
  else return s

/-- Notes how discovery stands; once it is over further reports are dropped,
    and the answer is `false`. -/
def recordDiscovery (s : Session) (finished : Bool) (now : Nat) :
    Except Rejection (Bool × Session) := do
  let s ← s.enter .discoveringAddresses "discovering addresses" now
  if s.discovered then return (false, s) else return (true, { s with discovered := finished })

/-- Notes how far the rescan has come; a smaller height than before is
    dropped, and the answer is `false`. -/
def recordRescan (s : Session) (through : Int32) (now : Nat) :
    Except Rejection (Bool × Session) := do
  let s ← s.enter .rescanning "rescanning" now
  if through < s.rescanned then return (false, s)
  else return (true, { s with rescanned := through })

/-- Ends the session in sync. -/
def finish (s : Session) (now : Nat) : Except Rejection Session := do
  s.ensureActive
  s.move .synced "synced" now

/-- Ends the session with an error and keeps it. -/
def fail (s : Session) (error : SyncError) (now : Nat) : Except Rejection Session := do
  s.ensureActive
  let s ← s.move .failed error.message now
  return { s with terminal := some (.ofError error) }

end Session

end ChainSync
