import ChainSync.Address.Normalize
import ChainSync.Network
import ChainSync.SyncError

/-!
# Configuration

The settings of a sync, and what makes them unusable.

## Main definitions

* `Config`: The settings.
* `Config.normalizedPeers`: The peers with a port each.
* `Config.validate`: The first thing wrong with the settings.
-/

namespace ChainSync

/-- How much is logged. -/
inductive LogFilter where
  | off
  | error
  | warn
  | info
  | debug
  | trace
deriving DecidableEq

namespace LogFilter

/-- The name of a filter. -/
def name : LogFilter → String
  | off => "off"
  | error => "error"
  | warn => "warn"
  | info => "info"
  | debug => "debug"
  | trace => "trace"

/-- The filter of a name. -/
def ofName? (text : String) : Option LogFilter :=
  [off, error, warn, info, debug, trace].find? fun f => f.name = text

end LogFilter

/-- Where log files go and how many old ones are kept. -/
structure LogFiles where
  dir : String
  maxFiles : Nat
deriving DecidableEq

/-- What is logged, and where to. -/
structure LogSettings where
  filter : Option LogFilter := none
  console : Bool := true
  files : Option LogFiles := none
deriving DecidableEq

/-- The settings of a sync. Times are in milliseconds. -/
structure Config where
  network : Network
  peers : List String := []
  syncTimeout : Option Nat := none
  rescanTimeout : Option Nat := none
  logFilter : Option LogFilter := none
  console : Bool := true
  logDir : Option String := none
  maxLogFiles : Nat := 20
deriving DecidableEq

namespace Config

/-- What makes settings unusable. -/
inductive Error where
  /-- A sync may take no time at all. -/
  | zeroSyncTimeout
  /-- A rescan may take no time at all. -/
  | zeroRescanTimeout
  /-- Logs go to files of which none is kept. -/
  | noLogFiles
  /-- A peer's address cannot be used. -/
  | peer (error : SyncError)
deriving DecidableEq

/-- The message of unusable settings. -/
def Error.message : Error → String
  | .zeroSyncTimeout => "Configuration error: sync_timeout must be non-zero"
  | .zeroRescanTimeout => "Configuration error: rescan_timeout must be non-zero"
  | .noLogFiles => "Configuration error: max_log_files must be at least 1"
  | .peer error => "Sync error: " ++ error.message

/-- One peer's address with a port. -/
def normalizedPeer (network : Network) (peer : String) : Except SyncError String :=
  match Address.normalize peer network.defaultPort with
  | .ok address => .ok address
  | .error e => .error (.invalidAddress e.message)

/-- All peers with a port each, or the error of the first that has a bad
    address. -/
def normalizedPeers (c : Config) : Except SyncError (List String) :=
  c.peers.mapM (normalizedPeer c.network)

/-- What is logged, and where to. -/
def logging (c : Config) : LogSettings :=
  { filter := c.logFilter
    console := c.console
    files := c.logDir.map fun dir => { dir, maxFiles := c.maxLogFiles } }

/-- Refuses unusable settings, timeouts first and peers last. -/
def validate (c : Config) : Except Error Unit :=
  if c.syncTimeout = some 0 then .error .zeroSyncTimeout
  else if c.rescanTimeout = some 0 then .error .zeroRescanTimeout
  else if c.logDir.isSome ∧ c.maxLogFiles = 0 then .error .noLogFiles
  else match c.normalizedPeers with
    | .ok _ => .ok ()
    | .error e => .error (.peer e)

end Config

end ChainSync
