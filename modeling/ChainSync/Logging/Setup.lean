import ChainSync.Config
import ChainSync.Journal
import ChainSync.Logging.Archive
import ChainSync.Logging.Path

/-!
# Logging Setup

Getting ready to log.

With nothing to log to, nothing happens. Otherwise the log files come first,
and only then is the logging itself put in place, which can be done once.

The directory for log files is given by a path, and the path is looked up anew for
every step. So it may lead nowhere after the first one: if it is empty, or if it goes
through the very entry that has got another name.

## Main definitions

* `LoggingError`: What can go wrong.
* `storeAt`, `sweepAt`: The file of the last run, and all that comes after it.
* `openLogFilesBy`: The log files.
* `setUpLoggingBy`, `setUpLogging`: The setup.
-/

namespace ChainSync

/-- What can go wrong with logging. -/
inductive LoggingError where
  | directoryCreation (error : FileError)
  | rotationFailed (error : Archive.Error)
  /-- Logging is in place already. -/
  | alreadyInstalled
deriving DecidableEq

/-- The message of an error. -/
def LoggingError.message : LoggingError → String
  | directoryCreation error => "Failed to create log directory: " ++ error.message
  | rotationFailed error => "Log rotation failed: " ++ error.detail
  | alreadyInstalled =>
    "Subscriber initialization failed: a global default trace dispatcher has already been set"

/-- How an error with the files in the directory is passed on. That a file cannot be begun
    is said as if the directory could not be made. -/
def LoggingError.ofArchive : Archive.Error → LoggingError
  | .notBegun error => .directoryCreation error
  | error => .rotationFailed error

/-- The line of an archive that cannot be removed. -/
def stuckLine (dir name : String) : Line :=
  .warn ("Failed to remove old log file " ++ joinPath dir name ++ ": "
    ++ FileError.isDirectory.message)

/-- Stores the file of the last run in the directory that a path leads to. -/
def storeAt (sys : Archive.System) (path : String) (root : Directory) :
    Except Archive.Error Directory :=
  match root.baseOf path with
  | .error _ => .ok root
  | .ok place => match root.get?At place with
    | none => .ok root
    | some d => (Archive.storeBy sys d).map fun d => root.modifyAt (fun _ => d) place

/-- Removes what is too much in the directory that a path leads to, and begins the file of
    the next run. -/
def sweepAt (sys : Archive.System) (path : String) (keep : Nat) (root : Directory) (now : Int) :
    Except LoggingError Unit × Directory × List Line :=
  match root.directoryAt path with
  | .error e => (.error (.rotationFailed (.unreadable e)), root, [])
  | .ok (place, d) =>
    let swept := Archive.sweepBy sys d keep now
    (swept.answer.mapError .ofArchive, root.modifyAt (fun _ => swept.directory) place,
      swept.stuck.map (stuckLine path))

/-- Makes the directory for log files below `base` and rotates them. If the file of the last
    run cannot be stored, nothing else is done. -/
def openLogFilesBy (sys : Archive.System) (files : LogFiles) (base : String)
    (root : Directory) (now : Int) : Except LoggingError Unit × Directory × List Line :=
  let path := joinPath base files.dir
  match root.makePath path now with
  | (.error e, root) => (.error (.directoryCreation e), root, [])
  | (.ok (), root) => match storeAt sys path root with
    | .error e => (.error (.rotationFailed e), root, [])
    | .ok root => sweepAt sys path files.maxFiles root now

/-- Gets ready to log, where `installed` tells whether logging is in place. -/
def setUpLoggingBy (sys : Archive.System) (settings : LogSettings) (installed : Bool)
    (base : String) (root : Directory) (now : Int) :
    Except LoggingError Unit × Directory × List Line :=
  if !settings.console && settings.files.isNone then (.ok (), root, [])
  else
    let (answer, root, lines) := match settings.files with
      | none => (Except.ok (), root, [])
      | some files => openLogFilesBy sys files base root now
    match answer with
    | .error e => (.error e, root, lines)
    | .ok () => (if installed then .error .alreadyInstalled else .ok (), root, lines)

/-- The same with UTC on the wall and nothing that goes wrong. -/
def setUpLogging (settings : LogSettings) (installed : Bool) (base : String) (root : Directory)
    (now : Int) : Except LoggingError Unit × Directory × List Line :=
  setUpLoggingBy {} settings installed base root now

end ChainSync
