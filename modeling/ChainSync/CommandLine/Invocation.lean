import ChainSync.CommandLine.Options
import ChainSync.Config
import ChainSync.Decimal.Reading

/-!
# Invocations

What the program is asked to do.

There are four commands. The program itself knows its version and its help.
Whatever else it is asked is misuse, and so is a value that a command cannot
read or an option that it misses.

## Main definitions

* `Invocation`: What can be asked.
* `Invocation.ofArguments`: What the arguments ask.
-/

namespace ChainSync

namespace CommandLine

/-- The settings of a simulation. -/
structure SimulateOptions where
  network : Network
  peers : List String
  headers : Int32
  rescanBlocks : Int32
  /-- In milliseconds. -/
  step : Nat
  /-- In seconds. -/
  timeout : Option Nat
  /-- In seconds. -/
  rescanTimeout : Option Nat
  logFilter : LogFilter
  logDir : Option String

/-- What the program can be asked to do. -/
inductive Invocation where
  | version
  | help
  /-- Project the tip of the chain from the best known block. -/
  | estimate (network : Network) (height : Int32) (timestamp : Int64) (seconds : Option Int64)
  /-- Add the port an address has not. -/
  | normalizeAddress (network : Network) (address : String) (port : Option String)
  /-- Show atoms in coins. -/
  | convertAtoms (atoms : Int64)
  /-- Show coins in atoms. -/
  | convertCoins (coins : Binary64)
  /-- Run a simulated sync. -/
  | simulate (options : SimulateOptions)

/-- Reads an integer in a range. -/
def readRanged (low high : Int) (text : String) : Option Int :=
  (Text.readInt text.toList).filter fun n => low ≤ n && n ≤ high

/-- Reads a 32 bit integer. -/
def readInt32 (text : String) : Option Int32 :=
  (readRanged Int32.minValue.toInt Int32.maxValue.toInt text).map Int32.ofInt

/-- Reads a 64 bit integer. -/
def readInt64 (text : String) : Option Int64 :=
  (readRanged Int64.minValue.toInt Int64.maxValue.toInt text).map Int64.ofInt

/-- Reads a 64 bit integer without a sign; a plus may stand before it. -/
def readUnsigned (text : String) : Option Nat :=
  if text.toList.head? = some '-' then none
  else (readRanged 0 (UInt64.size - 1) text).map Int.toNat

/-- The networks by the only names the program takes for them. -/
def readNetwork (text : String) : Option Network :=
  [.mainnet, .testnet, .simnet, .regtest].find? fun n => n.label = text

/-- The log filters by the names the program takes for them. -/
def readFilter (text : String) : Option LogFilter :=
  (LogFilter.ofName? text).filter (· ≠ .off)

/-- An option whose value some reader must take. -/
def readable {α : Type} (long : String) (read : String → Option α) : OptionSpec :=
  { long, accepts := fun text => (read text).isSome }

/-- The option that names the network. -/
def networkOption : OptionSpec := { readable "network" readNetwork with short := some 'n' }

/-- What `estimate` takes. -/
def estimateSpec : CommandSpec :=
  { options := [networkOption, readable "height" readInt32, readable "timestamp" readInt64,
      readable "seconds-remaining" readInt64] }

/-- What `normalize-address` takes. -/
def normalizeSpec : CommandSpec :=
  { options := [networkOption, { long := "port", short := some 'p' }], places := 1 }

/-- What `convert` takes. -/
def convertSpec : CommandSpec :=
  { options := [readable "atoms" readInt64,
      { readable "coins" Binary64.ofText? with takesNegative := true }] }

/-- What `simulate` takes. -/
def simulateSpec : CommandSpec :=
  { options := [networkOption, { long := "peer", short := some 'p', repeats := true },
      readable "headers" readInt32, readable "rescan-blocks" readInt32,
      readable "step-ms" readUnsigned, readable "timeout" readUnsigned,
      readable "rescan-timeout" readUnsigned,
      { readable "log-level" readFilter with short := some 'l' }, { long := "log-dir" }] }

namespace Invocation

/-- The value of an option that must have one. -/
def need {α : Type} (value : Option α) : Except Stop α :=
  match value with
  | some a => .ok a
  | none => .error .misuse

/-- The network that was given, or the main one. -/
def networkOf (p : Parsed) : Network := ((p.value? "network").bind readNetwork).getD .mainnet

/-- What `estimate` asks. -/
def ofEstimate (args : List String) : Except Stop Invocation := do
  let p ← estimateSpec.read args
  let height ← need ((p.value? "height").bind readInt32)
  let timestamp ← need ((p.value? "timestamp").bind readInt64)
  return .estimate (networkOf p) height timestamp ((p.value? "seconds-remaining").bind readInt64)

/-- What `normalize-address` asks. -/
def ofNormalize (args : List String) : Except Stop Invocation := do
  let p ← normalizeSpec.read args
  let address ← need p.arguments.head?
  return .normalizeAddress (networkOf p) address (p.value? "port")

/-- What `convert` asks: exactly one of the two amounts. -/
def ofConvert (args : List String) : Except Stop Invocation := do
  let p ← convertSpec.read args
  match (p.value? "atoms").bind readInt64, (p.value? "coins").bind Binary64.ofText? with
  | some atoms, none => return .convertAtoms atoms
  | none, some coins => return .convertCoins coins
  | _, _ => .error .misuse

/-- What `simulate` asks. -/
def ofSimulate (args : List String) : Except Stop Invocation := do
  let p ← simulateSpec.read args
  return .simulate
    { network := networkOf p
      peers := p.all "peer"
      headers := ((p.value? "headers").bind readInt32).getD 20000
      rescanBlocks := ((p.value? "rescan-blocks").bind readInt32).getD 50
      step := ((p.value? "step-ms").bind readUnsigned).getD 50
      timeout := (p.value? "timeout").bind readUnsigned
      rescanTimeout := (p.value? "rescan-timeout").bind readUnsigned
      logFilter := ((p.value? "log-level").bind readFilter).getD .info
      logDir := p.value? "log-dir" }

/-- The names of the commands. -/
def commandNames : List String :=
  ["estimate", "normalize-address", "convert", "simulate", "help"]

/-- What the program itself is asked: a first argument that begins with a dash
    must be one of its two flags. -/
def ofFlag (arg : String) : Except Stop Invocation :=
  match arg.toList with
  | '-' :: 'V' :: _ => .ok .version
  | '-' :: 'h' :: _ => .ok .help
  | _ => if arg = "--version" then .ok .version else if arg = "--help" then .ok .help
    else .error .misuse

/-- Help on nothing or on one of the commands, which have none below them. -/
def ofHelp : List String → Except Stop Invocation
  | [] => .ok .help
  | [name] => if name ∈ commandNames then .ok .help else .error .misuse
  | _ => .error .misuse

/-- What the arguments of the program ask, apart from help on a command. -/
def ofCommand : List String → Except Stop Invocation
  | [] => .error .misuse
  | "estimate" :: args => ofEstimate args
  | "normalize-address" :: args => ofNormalize args
  | "convert" :: args => ofConvert args
  | "simulate" :: args => ofSimulate args
  | "help" :: args => ofHelp args
  | arg :: _ => ofFlag arg

/-- What the arguments of the program ask, if it is anything. -/
def ofArguments (args : List String) : Option Invocation :=
  match ofCommand args with
  | .ok i => some i
  | .error .help => some .help
  | .error .misuse => none

end Invocation

end CommandLine

end ChainSync
