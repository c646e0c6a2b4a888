import ChainSync.Controller.Drive

/-!
# Simulated Sync

A sync run whose workers only pretend to work.

What the workers report is fixed by the plan: peers one by one, three filter
counts, header counts that grow by a tenth of all headers at a time, discovery
that finds an end at the fourth report. The last blocks are then rescanned.
Header times are such that the last header is of the present, which is read once
before the first header, and again whenever the progress is shown.

The header counts are 32 bit numbers, and so is every sum on the way to them.
A plan with so many headers that such a sum does not fit breaks the run off.

## Main definitions

* `SimulationPlan`: What is simulated.
* `WallClock`: The time of day, which need not keep pace with the clock of the run.
* `SimulationPlan.headerCounts`: The header counts.
* `SimulationPlan.approach`, `SimulationPlan.headerReports`, `SimulationPlan.discovery`: The
  reports.
* `SimulationPlan.work`: The work of the run.
* `SimulationPlan.play`: The run.
-/

namespace ChainSync

/-- What is simulated. -/
structure SimulationPlan where
  network : Network
  /-- The number of peers. -/
  peers : Nat
  /-- The number of headers. -/
  headers : Int32
  /-- The number of blocks to rescan. -/
  rescanBlocks : Int32
  /-- The milliseconds between two reports. -/
  step : Nat
  rescanTimeout : Option Nat

/-- The seconds since 1970 that are read at an instant of a run. -/
abbrev WallClock := Nat → Int64

/-- A report of the simulation: whether the progress is shown after it, and
    whether time passes then. -/
structure StagedReport where
  report : Report
  showProgress : Bool := false
  pause : Bool := true
deriving DecidableEq

/-- What the simulation notes. -/
structure SimulationStage where
  /-- Whether the run has been broken off. -/
  broken : Bool := false
  /-- When the rescan got its handle. The run itself never looks at it. -/
  rescanSince : Option Nat := none
deriving DecidableEq

/-- The rescan gets its handle. -/
def SimulationStage.beginRescan (now : Nat) (stage : SimulationStage) : SimulationStage :=
  { stage with rescanSince := some now }

/-- The work of a simulation, which an error ends. -/
abbrev SimulationWork := ExceptT SyncError (Routine (Engine SimulationStage))

namespace SimulationPlan

/-- The headers of one report: a tenth of all, but one at least. -/
def batch (headers : Int32) : Int32 := max (headers / 10) 1

/-- The header count after a given one, unless the sum is too great. -/
def nextCount (headers fetched : Int32) : Option Int32 :=
  let sum := fetched.toInt + (batch headers).toInt
  if sum ≤ Int32.maxValue.toInt then some (min (Int32.ofInt sum) headers) else none

/-- Up to so many header counts after a given one, and whether a sum was too
    great. -/
def countsFrom (headers : Int32) : Nat → Int32 → List Int32 × Bool
  | 0, _ => ([], false)
  | left + 1, fetched =>
    if fetched < headers then
      match nextCount headers fetched with
      | none => ([], true)
      | some count =>
        let (counts, broken) := countsFrom headers left count
        (count :: counts, broken)
    else ([], false)

/-- The header counts, and whether a sum was too great. Each count is greater
    than the one before. -/
def headerCounts (headers : Int32) : List Int32 × Bool :=
  countsFrom headers headers.toInt.toNat 0

/-- The time of the header before the first. -/
def firstHeaderTime (plan : SimulationPlan) (nowUnix : Int64) : Int :=
  nowUnix.toInt - plan.headers.toInt * plan.network.blockInterval

/-- The report of a header count. -/
def headerReport (plan : SimulationPlan) (nowUnix : Int64) (count : Int32) : StagedReport :=
  let time := plan.firstHeaderTime nowUnix + count.toInt * plan.network.blockInterval
  { report := .fetchedHeaders plan.headers count (Int64.ofInt time), showProgress := true }

/-- The reports before the headers. -/
def approach (plan : SimulationPlan) : List StagedReport :=
  (List.range plan.peers).map (fun n => { report := .peerConnected (Int32.ofNat (n + 1)) })
    ++ [10, 20, 32].map fun n => { report := .fetchMissingFilters n }

/-- The reports of the headers, whose times are fixed before the first of them. -/
def headerReports (plan : SimulationPlan) (nowUnix : Int64) : List StagedReport :=
  { report := .beginHeaders 0, pause := false }
    :: (headerCounts plan.headers).1.map (plan.headerReport nowUnix)

/-- The reports of the address discovery. -/
def discovery : List StagedReport :=
  List.replicate 3 { report := .discoveredAddresses false }
    ++ [{ report := .discoveredAddresses true, pause := false }]

/-- A step takes a millisecond at least. -/
def stepTime (plan : SimulationPlan) : Nat := max plan.step 1

/-- Lets a step's time pass. -/
def pauseStep (plan : SimulationPlan) : Routine (Engine SimulationStage) Unit :=
  Engine.sleep plan.stepTime

/-- A block takes a quarter of a step, and a millisecond at least. -/
def blockTime (plan : SimulationPlan) : Nat := max ((plan.step + 3) / 4) 1

/-- Shows how far the run has come. -/
def showProgress (clock : WallClock) (e : Engine SimulationStage) : Engine SimulationStage :=
  let (progress, e) := e.progress (clock e.instant)
  match progress.bind (·.estimate) with
  | none => e
  | some t => e.note [.info (toString t.totalProgress.toNat ++ "% done, " ++ t.timeRemaining
      ++ " remaining, " ++ t.daysBehind ++ " behind")]

/-- Makes reports one after the other. -/
def makeReports (plan : SimulationPlan) (clock : WallClock) :
    List StagedReport → SimulationWork Unit
  | [] => return ()
  | r :: rest => do
    ExceptT.mk (.perform (·.report r.report))
    if r.showProgress then Routine.update (showProgress clock)
    if r.pause then plan.pauseStep
    makeReports plan clock rest

/-- Breaks the run off. -/
def breakOff : Routine (Engine SimulationStage) Unit := do
  .update (·.modifyOwn fun stage => { stage with broken := true })
  .never

/-- What the end of the rescan means for the run. -/
def ofOutcome : RescanOutcome → Except SyncError Unit
  | .completed _ => .ok ()
  | .cancelled height =>
    .error (.cancelled ("rescan stopped at " ++ toString height.toInt))
  | .failed .deadlineExceeded _ => .error .deadlineExceeded
  | .failed .cancelled message => .error (.cancelled message)
  | .failed _ message => .error (.internal message)

/-- The height the rescan starts at. -/
def rescanStart (plan : SimulationPlan) : Int32 :=
  max (Int32.ofIntClamp (plan.headers.toInt - plan.rescanBlocks.toInt)) 0

/-- A scanner that takes its time for every block and does nothing else. -/
def scan (plan : SimulationPlan) : BlockScanner SimulationStage := fun _ => do
  Engine.sleep plan.blockTime
  return .scanned

/-- The rescan of the last blocks by a scanner and for an observer, with a handle below a
    token; that it has been derived is noted. -/
def rescanBy {χ : Type} (plan : SimulationPlan) (scan : BlockScanner χ) (observer : ScanObserver χ)
    (noted : Nat → χ → χ) (token : Nat) : Routine (Engine χ) (Except SyncError Unit) := do
  let handle ← .perform fun e => (e.modifyOwn (noted e.now)).derive token plan.rescanTimeout
  .ensuring (·.drop handle) do
    match ← Engine.rescan scan observer handle plan.rescanStart plan.headers with
    | .ok outcome => return ofOutcome outcome
    | .error p => return .error (.internal p.message)

/-- The rescan of the simulation. -/
def rescanLast (plan : SimulationPlan) (token : Nat) :
    Routine (Engine SimulationStage) (Except SyncError Unit) :=
  plan.rescanBy plan.scan Engine.bridge SimulationStage.beginRescan token

/-- The work up to the last header. -/
def fetchHeaders (plan : SimulationPlan) (clock : WallClock) : SimulationWork Unit := do
  plan.makeReports clock plan.approach
  let nowUnix ← (Routine.ask fun e => clock e.instant : Routine (Engine SimulationStage) Int64)
  plan.makeReports clock (plan.headerReports nowUnix)

/-- The work up to the rescan. -/
def prepare (plan : SimulationPlan) (clock : WallClock) : SimulationWork Unit := do
  plan.fetchHeaders clock
  if (headerCounts plan.headers).2 then breakOff
  plan.makeReports clock discovery

/-- The work of the run below a token. -/
def work (plan : SimulationPlan) (clock : WallClock) (token : Nat) : SimulationWork Unit := do
  plan.prepare clock
  ExceptT.mk (plan.rescanLast token)

/-- Drives the work under a handle with a given token. Without an answer the
    run has been broken off. -/
def play (plan : SimulationPlan) (clock : WallClock) (handle token : Nat)
    (e : Engine SimulationStage) : Option (Except SyncError Unit) × Engine SimulationStage :=
  let isBroken (e : Engine SimulationStage) : Option Unit :=
    if e.own.broken then some () else none
  let drive := Engine.drive handle (plan.work clock token).run
  match Engine.run none (drive.unlessStopped isBroken) e with
  | (some (.ok result), e) => (some result, e)
  | (_, e) => (none, e)

end SimulationPlan

end ChainSync
