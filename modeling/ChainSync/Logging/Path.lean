import ChainSync.Logging.Directory

/-!
# Paths

The paths of files, and where they lead.

A path is read step by step from the top: into an entry, back up, or staying
where one is. Every step needs a directory to be taken from, so a path that
goes through something that is not there leads nowhere, even if it comes back.

A place, in contrast, is the plain list of names down from the top. There is
nothing above the top, and going up from it stays there. Going up from a link
leads back to where the link is.

Directories on the way are made before the one that is asked for, the
outermost first. What has been made stays when a later one fails.

## Main definitions

* `PathStep`, `pathSteps`: A path step by step.
* `joinPath`: A path below another one.
* `Directory.follow`, `Directory.locate`: Where a path leads.
* `Directory.baseOf`: Where names behind a path are looked up.
* `Directory.directoryAt`: The directory a path leads to.
* `Directory.makePath`: A directory with those on the way to it.
* `Directory.putAt`: A file with the directories on the way to it.
-/

namespace ChainSync

/-- One step of a path. -/
inductive PathStep where
  | stay
  | up
  | into (name : String)
deriving DecidableEq

/-- The steps of a path. -/
def pathSteps (path : String) : List PathStep :=
  ((path.splitToList (· = '/')).filter (· ≠ "")).map fun part =>
    if part = "." then .stay else if part = ".." then .up else .into part

/-- A path below another one; a path from the top is not below any. -/
def joinPath (base path : String) : String :=
  if base = "" || path.startsWith "/" then path
  else if base.endsWith "/" then base ++ path else base ++ "/" ++ path

/-- The most bytes a name may have. -/
def longestName : Nat := 255

/-- The most bytes a path may have. -/
def longestPath : Nat := 4095

/-- Refuses a text that cannot be a path. -/
def checkPath (path : String) : Except FileError Unit :=
  if '\x00' ∈ path.toList then .error .nulCharacter
  else if longestPath < path.utf8ByteSize then .error .nameTooLong
  else .ok ()

/-- A path without the steps at its end that stay. -/
def withoutStays (steps : List PathStep) : List PathStep :=
  (steps.reverse.dropWhile (· = .stay)).reverse

/-- The paths on the way to a path, longest first. None of them ends with a step
    that stays. -/
def pathsOnTheWay (steps : List PathStep) : List (List PathStep) :=
  let steps := withoutStays steps
  (((List.range steps.length).map fun n => steps.take n).filter fun way =>
    way ≠ [] ∧ way.getLast? ≠ some .stay).reverse

namespace Directory

/-- The place that steps from a place lead to. -/
def follow (root : Directory) : List String → List PathStep → Except FileError (List String)
  | place, [] => .ok place
  | place, step :: rest =>
    match root.get?At place with
    | none => .error .notDirectory
    | some d =>
      match step with
      | .stay => root.follow place rest
      | .up => root.follow place.dropLast rest
      | .into name =>
        if longestName < name.utf8ByteSize then .error .nameTooLong
        else if d.reaches name then root.follow (place ++ [name]) rest
        else .error .notFound

/-- The place a path leads to. -/
def locate (root : Directory) (path : String) : Except FileError (List String) := do
  checkPath path
  if path = "" then .error .notFound else root.follow [] (pathSteps path)

/-- The place where names are looked up that are joined to a path. The empty path leads
    nowhere, but a name joined to it is looked up at the top. -/
def baseOf (root : Directory) (path : String) : Except FileError (List String) :=
  if path = "" then .ok [] else root.locate path

/-- The directory a path leads to: its place and its entries. -/
def directoryAt (root : Directory) (path : String) :
    Except FileError (List String × Directory) := do
  let place ← root.locate path
  match root.get?At place with
  | none => .error .notDirectory
  | some d => return (place, d)

/-- Whether steps from the top lead to a directory. -/
def isDirectoryAt (root : Directory) (steps : List PathStep) : Bool :=
  match root.follow [] steps with
  | .ok place => (root.get?At place).isSome
  | .error _ => false

/-- The directory that holds what steps from the top lead to: its place, its
    entries, and the name in it, which need not be there. -/
def holder (root : Directory) (steps : List PathStep) :
    Except FileError (List String × Directory × String) := do
  let place ← root.follow [] steps.dropLast
  match root.get?At place, steps.getLast? with
  | none, _ => .error .notDirectory
  | some d, some (.into name) =>
    if longestName < name.utf8ByteSize then .error .nameTooLong else return (place, d, name)
  | some _, _ => .error .alreadyExists

/-- Makes one directory, where nothing of its name may be. -/
def makeOne (now : Int) (root : Directory) (steps : List PathStep) :
    Except FileError Directory := do
  let (place, d, name) ← root.holder steps
  if d.has name then .error .alreadyExists
  else return root.modifyAt (·.put name (.directory [] now)) place

/-- Makes one directory unless it is there already. -/
def ensureOne (now : Int) (root : Directory) (steps : List PathStep) :
    Except FileError Unit × Directory :=
  match root.makeOne now steps with
  | .ok root => (.ok (), root)
  | .error e => if root.isDirectoryAt steps then (.ok (), root) else (.error e, root)

/-- Makes the first directory of a list for which there is a place, and then
    those before it in the list, the last of these first. -/
def makeAll (now : Int) : List (List PathStep) → Directory → Except FileError Unit × Directory
  | [], root => (.ok (), root)
  | steps :: outer, root =>
    match root.makeOne now steps with
    | .error .notFound => match makeAll now outer root with
      | (.ok (), root) => root.ensureOne now steps
      | (.error e, root) => (.error e, root)
    | _ => root.ensureOne now steps

/-- Makes a directory unless it is there, and those on the way to it. -/
def makePath (root : Directory) (path : String) (now : Int) : Except FileError Unit × Directory :=
  match checkPath path with
  | .error e => (.error e, root)
  | .ok () =>
    if path = "" then (.ok (), root)
    else makeAll now (pathSteps path :: pathsOnTheWay (pathSteps path)) root

/-- Puts a file, a link or an empty directory at a path and makes the directories on the
    way to it. A directory that is there keeps its entries, and what has no place
    there is not put anywhere. -/
def putAt (root : Directory) (path : String) (node : Node) (now : Int) : Directory :=
  let steps := pathSteps path
  match checkPath path, node with
  | .error _, _ => root
  | .ok (), .directory _ t =>
    let root := (root.makePath path now).2
    match root.follow [] steps with
    | .ok place =>
      root.modifyAt (fun d => (place.getLast?.map (d.modify (Node.touchDirectory t))).getD d)
        place.dropLast
    | .error _ => root
  | .ok (), node =>
    let root := (makeAll now (pathsOnTheWay steps) root).2
    match root.holder steps with
    | .ok (place, d, name) =>
      if d.hasDirectory name then root else root.modifyAt (·.put name node) place
    | .error _ => root

end Directory

end ChainSync
