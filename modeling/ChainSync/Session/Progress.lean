import ChainSync.Estimate
import ChainSync.Session.Basic

/-!
# Progress

What a session shows of itself while it runs.

A snapshot repeats the counters and adds an estimate once the header fetch has
taken some time. The estimate goes by the fraction of headers fetched: the
time spent on them, divided by that fraction, is what all of them will take;
discovery and rescan are granted fixed shares of that. How much of the total
has been spent is the progress in percent, 99 at most. What is shown never
goes back: the greatest value so far is kept with the session. A session in
sync shows 100 percent and no time left.

## Main definitions

* `TimeEstimate`, `Progress`: What is shown.
* `Session.fraction`: The fraction of headers fetched.
* `Session.estimate`: The estimate at a point in time.
* `Session.progress`: The snapshot, and the session with its best progress.
-/

namespace ChainSync

/-- How long a sync will take, and where it ends. -/
structure TimeEstimate where
  secondsRemaining : Int64
  timeRemaining : String
  daysBehind : String
  projectedHeight : Int32
  totalProgress : UInt8
deriving DecidableEq

/-- What a session shows of itself. -/
structure Progress where
  sessionId : UInt64
  phase : Phase
  peers : Int32
  filters : Int32
  headers : Int32
  headerHeight : Int32
  discovered : Bool
  rescanned : Int32
  totalProgress : UInt8
  estimate : Option TimeEstimate
deriving DecidableEq

namespace Session

/-- Seconds from one point in time to another, none if that lies before. -/
def secondsBetween (first last : Nat) : Float :=
  let span := last - first
  Float.ofNat (span / 1000000000) + Float.ofNat (span % 1000000000) / 1000000000.0

/-- A value kept between two bounds. -/
def clampFloat (low high x : Float) : Float :=
  if x < low then low else if high < x then high else x

/-- The nearest whole number of a value that is not below zero, within 64 bits. -/
def wholeSeconds (x : Float) : Int64 :=
  match (Binary64.ofBits x.toBits).roundHalfAway with
  | some n => Int64.ofIntClamp n
  | none => 0

/-- A percentage from none to 99, cut off after the point. -/
def percent (x : Float) : UInt8 := (clampFloat 0.0 99.0 x).toUInt8

/-- The height the chain must have reached, as far as the session can tell. -/
def projectedHeight (s : Session) (label : String) (nowUnix : Int64) : Int32 :=
  max (Estimate.projectedHeight nowUnix label s.lastHeaderTime s.headerHeight) s.peerHeight

/-- The fraction of headers fetched when the chain ends at `projected`. -/
def fraction (s : Session) (projected : Int32) : Float :=
  if Phase.fetchingHeaders.rank < s.phase.rank then 1.0
  else
    let missing := projected.toInt - s.headersStart.toInt
    if missing ≤ 0 then 1.0
    else clampFloat 0.0 1.0 (Float.ofInt s.headers.toInt / Float.ofInt missing)

/-- The time a header fetch must have taken, in seconds. -/
def headersSpent (s : Session) (started stop : Nat) : Float :=
  secondsBetween started ((s.discoveryStartedAt.or s.rescanStartedAt).getD stop)

/-- The time discovery and rescan have taken, in seconds. -/
def laterSpent (s : Session) (stop : Nat) : Float × Float :=
  (match s.discoveryStartedAt with
    | some t => secondsBetween t (s.rescanStartedAt.getD stop)
    | none => 0.0,
   match s.rescanStartedAt with
    | some t => secondsBetween t stop
    | none => 0.0)

/-- The estimate at a point in time, once the header fetch has got somewhere. -/
def estimate (s : Session) (label : String) (now : Nat) (nowUnix : Int64) :
    Option TimeEstimate := do
  let started ← s.headersStartedAt
  let stop := s.finishedAt.getD now
  let headersSpent := s.headersSpent started stop
  let projected := s.projectedHeight label nowUnix
  let fraction := s.fraction projected
  if fraction ≤ 0.0 || headersSpent ≤ 0.0 then none
  else
    let headersTime := headersSpent / fraction
    let total := headersTime + headersTime * Estimate.discoveryShare
      + headersTime * Estimate.rescanShare
    let (discoverySpent, rescanSpent) := s.laterSpent stop
    let spent := headersSpent + discoverySpent + rescanSpent
    let left := total - spent
    let remaining := wholeSeconds (if 0.0 < left then left else 0.0)
    some
      { secondsRemaining := remaining
        timeRemaining := Estimate.timeRemainingText remaining
        daysBehind := Estimate.daysBehindText nowUnix s.lastHeaderTime
        projectedHeight := projected
        totalProgress := percent (spent / total * 100.0) }

/-- What the session shows of an estimate: progress that never goes back, and
    no time left once it is in sync. -/
def publish (s : Session) (total : UInt8) (e : TimeEstimate) : TimeEstimate :=
  if s.phase = .synced then
    { e with
      totalProgress := total
      secondsRemaining := 0
      timeRemaining := Estimate.timeRemainingText 0 }
  else { e with totalProgress := total }

/-- The snapshot at a point in time, and the session that remembers it. -/
def progress (s : Session) (label : String) (now : Nat) (nowUnix : Int64) :
    Progress × Session :=
  let estimate := s.estimate label now nowUnix
  let raw := if s.phase = .synced then 100 else (estimate.map (·.totalProgress)).getD 0
  let total := max raw s.bestProgress
  ({ sessionId := s.id
     phase := s.phase
     peers := s.peers
     filters := s.filters
     headers := s.headers
     headerHeight := s.headerHeight
     discovered := s.discovered
     rescanned := s.rescanned
     totalProgress := total
     estimate := estimate.map (s.publish total) },
   { s with bestProgress := total })

end Session

end ChainSync
