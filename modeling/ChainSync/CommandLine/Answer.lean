import ChainSync.Amount
import ChainSync.Calendar
import ChainSync.CommandLine.Invocation
import ChainSync.Hub.Notify
import ChainSync.Logging.Setup
import ChainSync.Simulation
import ChainSync.Wire.Print
import ChainSync.Wire.Progress

/-!
# Answers

What the program says to an invocation.

An answer is what goes to the two outputs, an exit code and the files there
are afterwards. Misuse has an exit code of its own, and a fault has another. A
simulation that is called off or runs out of time is no fault.

## Main definitions

* `Surroundings`: What the program finds.
* `Answer`: What it leaves.
* `answer`: The program as a function of its arguments.
-/

namespace ChainSync

namespace CommandLine

/-- What the program finds: the clock on the wall, the files and the system they are on. -/
structure Surroundings where
  /-- What the clock shows at each instant of the run. -/
  clock : Nat → Now
  files : Directory := []
  system : Archive.System := {}

/-- What the program leaves. -/
structure Answer where
  exit : Nat := 0
  stdout : List String := []
  stderr : String := ""
  files : Directory := []
  journal : List Line := []

/-- The exit code of a fault. -/
def faultCode : Nat := 1

/-- The exit code of misuse. -/
def misuseCode : Nat := 2

/-- The exit code of a program that has been broken off. -/
def brokenCode : Nat := 101

/-- A clock that keeps pace with the run. -/
def Surroundings.of (now : Now) (files : Directory := []) : Surroundings :=
  { clock := now.after, files }

/-- What the clock shows when the program begins. -/
def Surroundings.now (s : Surroundings) : Now := s.clock 0

/-- The seconds since 1970 at each instant, as 64 bit numbers. -/
def Surroundings.wallClock (s : Surroundings) : WallClock := fun instant =>
  Int64.ofIntClamp (s.clock instant).seconds

/-- The present as a 64 bit number of seconds. -/
def Surroundings.nowUnix (s : Surroundings) : Int64 := s.wallClock 0

/-- An answer of nothing but lines; a line break within one begins another. -/
def Surroundings.say (s : Surroundings) (lines : List String) : Answer :=
  { stdout := lines.flatMap (·.splitOn "\n"), files := s.files }

/-- An answer to a fault. -/
def Surroundings.fault (s : Surroundings) (message : String) : Answer :=
  { exit := faultCode, stderr := "Error: " ++ message ++ "\n", files := s.files }

/-- The name of the program and its version. -/
def versionText : String := "wallet-sync 0.1.0"

/-- What is said when help is asked for. -/
def helpLines : List String :=
  ["SPV wallet sync lifecycle tools", "", "Usage: wallet-sync <COMMAND>", "", "Commands:",
    "  estimate           Project the chain tip and sync lag from the best known block",
    "  normalize-address  Apply the default peer port to an address",
    "  convert            Convert between atoms and coins",
    "  simulate           Run a synthetic sync through the lifecycle controller",
    "  help               Print this message or the help of the given subcommand(s)"]

/-- What is said of a best block. -/
def estimateLines (s : Surroundings) (network : Network) (height : Int32) (timestamp : Int64)
    (seconds : Option Int64) : List String :=
  ["Network:        " ++ network.label,
    "Best block:     " ++ toString height.toInt ++ " at " ++ utcText timestamp.toInt ++ " ("
      ++ dateOrTimeText s.now timestamp.toInt ++ ")",
    "Projected tip:  "
      ++ toString (Estimate.projectedHeight s.nowUnix network.label timestamp height).toInt,
    "Behind:         " ++ Estimate.daysBehindText s.nowUnix timestamp]
    ++ seconds.toList.map fun n => "Remaining:      " ++ Estimate.timeRemainingText n

namespace SimulateOptions

/-- The settings of the sync that is simulated. -/
def config (o : SimulateOptions) : Config :=
  { network := o.network
    peers := o.peers
    syncTimeout := o.timeout.map (1000 * ·)
    rescanTimeout := o.rescanTimeout.map (1000 * ·)
    logFilter := some o.logFilter
    logDir := o.logDir }

/-- The plan of the simulation, given the number of peers. -/
def plan (o : SimulateOptions) (peers : Nat) : SimulationPlan :=
  { network := o.network
    peers := max peers 1
    headers := o.headers
    rescanBlocks := o.rescanBlocks
    step := o.step
    rescanTimeout := o.config.rescanTimeout }

end SimulateOptions

/-- The lines of a snapshot. -/
def progressLines (p : Progress) : List String :=
  (Wire.Codec.progress.encode p).pretty.splitOn "\n"

/-- A listener that writes down what it is told. -/
def tipLogger (now : Now) : WalletEvent → Reaction (List Line)
  | .transaction t => .change (· ++ [.info ("Transaction " ++ t.hash)]) .done
  | .transactionConfirmed hash height =>
    .change (· ++ [.info ("Transaction " ++ hash ++ " confirmed at " ++ toString height.toInt)])
      .done
  | .blockAttached height timestamp =>
    .change (· ++ [.info ("Block " ++ toString height.toInt ++ " attached ("
      ++ dateOrTimeText now timestamp.toInt ++ ")")]) .done

/-- The lines of a hub with such a listener, which is told of the block at the tip. Nothing
    is passed on from inside its callback. -/
def tipLines (now : Now) (height : Int32) (timestamp : Int64) : List Line :=
  let (id, hub) := ({} : Hub (List Line)).register (tipLogger now)
  let scene : Scene (List Line) := { hub, own := [Hub.registeredLine id] }
  match scene.notifyWithin 1 (.blockAttached height timestamp) with
  | none => []
  | some d => d.scene.own

/-- What comes after the drive of a simulation: the snapshot, and then the block at the tip,
    or a fault if the run has not just been called off. A run that has been broken off says
    nothing that depends on it alone. -/
def afterDrive (s : Surroundings) (headers : Int32) (e : Engine SimulationStage) :
    Option (Except SyncError Unit) → Answer
  | none => { exit := brokenCode, files := s.files, journal := e.journal.reverse }
  | some result =>
    let (progress, e) := e.progress (s.wallClock e.instant)
    let said : Answer :=
      { stdout := (progress.map progressLines).getD [], files := s.files,
        journal := e.journal.reverse }
    match result with
    | .ok () =>
      let tip := tipLines (s.clock e.instant) headers (s.wallClock e.instant)
      { said with journal := said.journal ++ tip }
    | .error err =>
      if err.isCancellation then
        { said with journal := said.journal ++ [.info ("Simulation stopped: " ++ err.message)] }
      else { said with exit := faultCode, stderr := "Error: " ++ err.message ++ "\n" }

/-- Runs a simulated sync once logging is set up. -/
def runSimulation (s : Surroundings) (o : SimulateOptions) : Answer :=
  let fresh : Engine SimulationStage :=
    { controller := ({ network := o.network } : Controller).addObserver .silent, own := {} }
  let e := match o.config.validate with
    | .ok () => fresh
    | .error err => fresh.note [.warn ("Configuration rejected: " ++ err.message)]
  let (parent, coordinator) := e.coordinator.makeToken none
  match ({ e with coordinator } : Engine SimulationStage).start o.config parent with
  | (.error err, e) => { s.fault err.message with journal := e.journal.reverse }
  | (.ok start, e) =>
    let token := (e.tokenOf? start.handle).getD 0
    let (result, e) := (o.plan start.peers.length).play s.wallClock start.handle token e
    afterDrive s o.headers e result

/-- What is said to `simulate`. -/
def simulate (s : Surroundings) (o : SimulateOptions) : Answer :=
  match setUpLoggingBy s.system o.config.logging false "" s.files s.now.seconds with
  | (.error e, files, lines) =>
    { ({ s with files } : Surroundings).fault e.message with journal := lines }
  | (.ok (), files, lines) =>
    let a := runSimulation { s with files } o
    { a with journal := lines ++ a.journal }

/-- What is said to an invocation. -/
def perform (s : Surroundings) : Invocation → Answer
  | .version => s.say [versionText]
  | .help => s.say helpLines
  | .estimate network height timestamp seconds =>
    s.say (estimateLines s network height timestamp seconds)
  | .normalizeAddress network address port =>
    match Address.normalize address (port.getD network.defaultPort) with
    | .ok normalized => s.say [normalized]
    | .error e => s.fault e.message
  | .convertAtoms atoms => s.say [(Amount.coins atoms).text]
  | .convertCoins coins => match Amount.atoms coins with
    | .ok atoms => s.say [toString atoms.toInt]
    | .error e => s.fault e.message
  | .simulate o => simulate s o

/-- The program as a function of its arguments. -/
def answer (s : Surroundings) (args : List String) : Answer :=
  match Invocation.ofArguments args with
  | some i => perform s i
  | none => { exit := misuseCode, stderr := "error: invalid arguments\n", files := s.files }

end CommandLine

end ChainSync
