/-!
# Directories

Files and directories, as far as log files need them.

A directory is the list of its entries in the order in which it is listed. No
two entries have the same name. Every file and directory has the second of its
last change.

An entry may also be a link. What it leads to is a node of its own, which no
other entry is concerned with; a dead link leads to nothing that can be seen.
Whoever looks something up by name sees what a link leads to. Whoever renames or
removes an entry gets hold of the link itself.

## Main definitions

* `Node`, `Directory`: What there is.
* `FileError`: What can go wrong.
* `Node.followed`: What a link leads to.
* `Directory.get?`, `Directory.put`, `Directory.remove`, `Directory.rename`:
  The entries of one directory.
* `Directory.reach?`: What is seen under a name.
* `Directory.create`: A file is begun.
* `Directory.get?At`, `Directory.modifyAt`: Directories below.
* `Directory.listing`: Everything there is.
-/

namespace ChainSync

/-- A file, a directory or a link. -/
inductive Node where
  | file (text : String) (modified : Int)
  | directory (entries : List (String × Node)) (modified : Int)
  | link (target : Node)
  | deadLink

/-- The entries of a directory by name. -/
abbrev Directory := List (String × Node)

/-- What can go wrong with files. -/
inductive FileError where
  | notFound
  | alreadyExists
  | notDirectory
  | isDirectory
  /-- A name or a whole path has too many bytes. -/
  | nameTooLong
  /-- A path holds the character that ends it. -/
  | nulCharacter
  /-- Whatever else the system may say. -/
  | other (message : String)
deriving DecidableEq

/-- The message of an error. -/
def FileError.message : FileError → String
  | notFound => "No such file or directory (os error 2)"
  | alreadyExists => "File exists (os error 17)"
  | notDirectory => "Not a directory (os error 20)"
  | isDirectory => "Is a directory (os error 21)"
  | nameTooLong => "File name too long (os error 36)"
  | nulCharacter => "file name contained an unexpected NUL byte"
  | other message => message

namespace Node

/-- The file or directory that is seen, if there is one. -/
def followed : Node → Option Node
  | link target => target.followed
  | deadLink => none
  | node => some node

/-- The second of the last change of what is seen. -/
def modified : Node → Int
  | file _ t => t
  | directory _ t => t
  | link target => target.modified
  | deadLink => 0

/-- The same as of another second. -/
def touch (t : Int) : Node → Node
  | file text _ => file text t
  | directory entries _ => directory entries t
  | link target => link (target.touch t)
  | deadLink => deadLink

/-- The same as of another second, if it is a directory. -/
def touchDirectory (t : Int) : Node → Node
  | directory entries _ => directory entries t
  | node => node

/-- Whether it is a directory, and not just a link to one. -/
def isDirectory : Node → Bool
  | directory .. => true
  | _ => false

/-- The same with other entries, if a directory is seen. -/
def modifyEntries (f : List (String × Node) → List (String × Node)) : Node → Node
  | directory entries t => directory (f entries) t
  | link target => link (target.modifyEntries f)
  | node => node

/-- A file that is begun anew. A dead link leads to it afterwards. -/
def begun (now : Int) : Node → Except FileError Node
  | file .. => .ok (file "" now)
  | directory .. => .error .isDirectory
  | link target => (target.begun now).map link
  | deadLink => .ok (link (file "" now))

mutual

/-- A node at a path and everything below, files with their texts; the path of
    a directory ends with a slash. Links are shown as what they lead to. -/
def listing (path : String) : Node → List (String × Option String)
  | file text _ => [(path, some text)]
  | directory entries _ => (path ++ "/", none) :: entriesListing (path ++ "/") entries
  | link target => listing path target
  | deadLink => [(path, none)]

/-- All entries of a directory and everything below. -/
def entriesListing (base : String) : List (String × Node) → List (String × Option String)
  | [] => []
  | (name, node) :: rest => listing (base ++ name) node ++ entriesListing base rest

end

end Node

namespace Directory

/-- The entry of a name. -/
def get? (d : Directory) (name : String) : Option Node := d.lookup name

/-- Whether there is an entry of a name. -/
def has (d : Directory) (name : String) : Bool := d.any (·.1 = name)

/-- The file or directory that is seen under a name. -/
def reach? (d : Directory) (name : String) : Option Node := (d.get? name).bind (·.followed)

/-- Whether something is seen under a name. -/
def reaches (d : Directory) (name : String) : Bool := (d.reach? name).isSome

/-- Whether there is a directory of a name. -/
def hasDirectory (d : Directory) (name : String) : Bool :=
  ((d.get? name).map (·.isDirectory)).getD false

/-- Replaces the entry of a name or adds one at the end. -/
def put (d : Directory) (name : String) (node : Node) : Directory :=
  if d.has name then d.map fun e => if e.1 = name then (name, node) else e
  else d ++ [(name, node)]

/-- Removes the entry of a name. -/
def remove (d : Directory) (name : String) : Directory := d.filter (·.1 ≠ name)

/-- Changes the entry of a name. -/
def modify (f : Node → Node) (d : Directory) (name : String) : Directory :=
  d.map fun e => if e.1 = name then (name, f e.2) else e

/-- Gives the entry of a name another one, which no other entry may have. -/
def rename (d : Directory) (source target : String) : Directory :=
  d.map fun e => if e.1 = source then (target, e.2) else e

/-- Gives the entry of a name another one in place of any entry that has it. -/
def move (d : Directory) (source target : String) : Directory :=
  (d.remove target).rename source target

/-- Begins a file. -/
def create (d : Directory) (name : String) (now : Int) : Except FileError Directory :=
  match d.get? name with
  | none => .ok (d.put name (.file "" now))
  | some node => (node.begun now).map (d.put name)

/-- The entries of a directory below. -/
def get?At : List String → Directory → Option Directory
  | [], d => some d
  | name :: rest, d =>
    match d.reach? name with
    | some (.directory entries _) => get?At rest entries
    | _ => none

/-- Changes the entries of a directory below. -/
def modifyAt (f : Directory → Directory) : List String → Directory → Directory
  | [], d => f d
  | name :: rest, d =>
    match d.get? name with
    | some node => d.put name (node.modifyEntries (modifyAt f rest))
    | none => d

/-- Everything in a directory, with paths from it on. -/
def listing (d : Directory) : List (String × Option String) := Node.entriesListing "" d

end Directory

end ChainSync
