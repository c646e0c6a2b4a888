import ChainSync.Calendar
import ChainSync.Logging.Directory

/-!
# Log Archives

The log files of earlier runs.

A run writes to a file of fixed name. Before the next run that file is given
the name of an archive, which tells the second of its last change by the clock on
the wall; when something is seen under that name already, a number is put behind.
Only so many of the newest archives are kept. They are ordered by the text of their
second and then by number, whoever made them; any number that is not one counts as
zero.

## Main definitions

* `Archive.nameOf`, `Archive.isArchive`, `Archive.key`: Names.
* `Archive.Renaming`: How a file gets another name, which may go wrong.
* `Archive.System`: The time zone, and what else may go wrong.
* `Archive.storeBy`: The file of the last run becomes an archive.
* `Archive.prune`: The oldest archives go.
* `Archive.sweepBy`: They do, and the file of the next run is begun.
-/

namespace ChainSync

namespace Archive

/-- The name of the file a run writes to. -/
def activeName : String := "run.log"

/-- What the names of archives begin with. -/
def head : String := "wallet-sync."

/-- What the names of archives end with. -/
def tail : String := ".log"

/-- The greatest number behind the second. -/
def lastNumber : Nat := 999

/-- The name of an archive; the number zero is left out. -/
def nameOf (stamp : String) (number : Nat) : String :=
  head ++ stamp ++ (if number = 0 then "" else "." ++ toString number) ++ tail

/-- Whether a name is one of an archive. -/
def isArchive (name : String) : Bool :=
  head.toList.isPrefixOf name.toList && tail.toList.isSuffixOf name.toList

/-- The text without an end, if it has that end. -/
def withoutTail? (cs : List Char) : Option (List Char) :=
  if tail.toList.isSuffixOf cs then some (cs.take (cs.length - tail.length)) else none

/-- A name without what all names of archives begin and end with. A name too
    short for both is kept as it is. -/
def stem (name : String) : List Char :=
  let cs := name.toList
  if head.toList.isPrefixOf cs then (withoutTail? (cs.drop head.length)).getD cs else cs

/-- Reads a number within 32 bits, with or without a plus sign. -/
def readNumber (cs : List Char) : Option Nat :=
  (Text.readNat (if cs.head? = some '+' then cs.tail else cs)).filter (· < UInt32.size)

/-- The age of an archive by its name: the text of its second and its number. -/
def key (name : String) : String × Nat :=
  let cs := stem name
  let stamp := String.ofList (cs.takeWhile (· ≠ '.'))
  (stamp, (readNumber (cs.dropWhile (· ≠ '.')).tail).getD 0)

/-- Whether an archive is not younger than another. -/
def notYounger (a b : String) : Bool :=
  let (s, m) := key a
  let (t, n) := key b
  s < t || (s = t && m ≤ n)

/-- The names an archive of a second may have, best first. -/
def candidates (stamp : String) : List String :=
  (List.range (lastNumber + 1)).map (nameOf stamp)

/-- What can go wrong with archives. -/
inductive Error where
  /-- All names of a second are taken. -/
  | noFreeName (stamp : String)
  /-- The file of the last run could not be renamed. -/
  | notRenamed (message : String)
  /-- The directory cannot be listed. -/
  | unreadable (error : FileError)
  /-- The file of the next run cannot be begun. -/
  | notBegun (error : FileError)
deriving DecidableEq

/-- What is told of an error. -/
def Error.detail : Error → String
  | noFreeName stamp => "no free archive name for " ++ stamp
  | notRenamed message => message
  | unreadable error => "failed to read log dir: " ++ error.message
  | notBegun error => error.message

/-- What comes of giving an entry another name: the directory afterwards, or what went
    wrong. An entry that could not be renamed stays as it is. -/
abbrev Renaming := Directory → String → String → Except String Directory

/-- Renaming that goes wrong only where a directory would replace something that is none. -/
def Renaming.plain : Renaming := fun d source target =>
  if d.hasDirectory source && d.has target then .error FileError.notDirectory.message
  else .ok (d.move source target)

/-- The system that log files are kept on: its time zone, how it renames, and why it does
    not list a directory or begin the file of the next run in it. -/
structure System where
  zone : Zone := .utc
  rename : Renaming := .plain
  unlisted : Directory → Option FileError := fun _ => none
  refused : Directory → Option FileError := fun _ => none

/-- Makes the file of the last run an archive, if there is one. -/
def storeBy (sys : System) (d : Directory) : Except Error Directory :=
  match d.reach? activeName with
  | none => .ok d
  | some node =>
    let stamp := sys.zone.stamp node.modified
    match (candidates stamp).find? fun name => !d.reaches name with
    | none => .error (.noFreeName stamp)
    | some name => (sys.rename d activeName name).mapError .notRenamed

/-- The archives of a directory, oldest first. -/
def oldestFirst (d : Directory) : List String :=
  ((d.map (·.1)).filter isArchive).mergeSort notYounger

/-- The archives that are too many. -/
def excess (d : Directory) (keep : Nat) : List String :=
  let names := oldestFirst d
  names.take (names.length - keep)

/-- Removes the archives that are too many. A directory cannot be removed; the
    answer names those that stay. -/
def prune (d : Directory) (keep : Nat) : Directory × List String :=
  let names := excess d keep
  (d.filter fun e => e.1 ∉ names ∨ e.2.isDirectory, names.filter d.hasDirectory)

/-- A directory in which archives have been removed, as far as that was possible: what has
    come of it, and the archives that stay. -/
structure Swept where
  answer : Except Error Unit := .ok ()
  directory : Directory
  stuck : List String := []

/-- Begins the file of the next run. -/
def beginBy (sys : System) (d : Directory) (now : Int) : Except FileError Directory :=
  match sys.refused d with
  | some e => .error e
  | none => d.create activeName now

/-- Removes what is too much and begins the file of the next run. -/
def sweepBy (sys : System) (d : Directory) (keep : Nat) (now : Int) : Swept :=
  match sys.unlisted d with
  | some e => { answer := .error (.unreadable e), directory := d }
  | none =>
    let (d, stuck) := prune d keep
    match beginBy sys d now with
    | .error e => { answer := .error (.notBegun e), directory := d, stuck }
    | .ok d => { directory := d, stuck }

end Archive

end ChainSync
