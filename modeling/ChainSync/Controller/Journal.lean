import ChainSync.Cancel.Journal
import ChainSync.Controller.Basic

/-!
# Controller Journal

The lines a controller's operations give rise to. Each can be told from the
controller before the operation.

## Main definitions

* `Controller.emitLines`: An event and the observers that panic over it.
* `Controller.beginLines`, `Controller.reportLines`, `Controller.startLines`,
  `Controller.concludeLines`: The lines of operations.
-/

namespace ChainSync

namespace Controller

/-- The line of an observer that panics when told of an event. -/
def panicLine (e : Event) (index : Nat) (p : Panic) : Line :=
  .error ("Sync observer " ++ toString index ++ " panicked handling " ++ e.description ++ ": "
    ++ p.message)

/-- The lines of an event that all observers are told of. -/
def emitLines (c : Controller) (id : UInt64) (e : Event) : List Line :=
  .debug ("Sync session " ++ toString id.toNat ++ ": " ++ e.description)
    :: (callAll e c.observers).1.zipIdx.filterMap fun (p, index) => p.map (panicLine e index)

/-- The lines of an event, if there is one. -/
def emitLines? (c : Controller) (id : UInt64) : Option Event → List Line
  | some e => c.emitLines id e
  | none => []

/-- The lines of a session's begin. -/
def beginLines (c : Controller) (now : Nat) : List Line :=
  match c.begin now with
  | .error _ => []
  | .ok (id, after) =>
    after.history.map (·.line id)
      ++ [.info ("Starting " ++ c.network.label ++ " sync session " ++ toString id.toNat)]

/-- The lines of a report. -/
def reportLines (c : Controller) (r : Report) (now : Nat) : List Line :=
  match c.session with
  | none => []
  | some s => match s.take now r with
    | .ok (event, after) => s.takeLines r event after ++ c.emitLines? s.id event
    | .error rejection =>
      [.warn ("Sync session " ++ toString s.id.toNat ++ " rejected event: "
        ++ rejection.toError.message)]

/-- The lines of a session's start. -/
def startLines (c : Controller) (config : Config) (k : Coordinator) (now : Nat) : List Line :=
  match c.begin now with
  | .error _ => []
  | .ok (id, after) => c.beginLines now ++ match config.normalizedPeers with
    | .error e =>
      .error ("Invalid peer address: " ++ e.message) :: after.reportLines (.failed e) now
    | .ok peers =>
      k.deriveLines ++ [.debug ("Sync session " ++ toString id.toNat ++ " bound to operation "
        ++ toString k.nextId ++ " with " ++ toString peers.length ++ " peer(s)")]

/-- The line of an error that comes after the session's end. -/
def lateLine (s : Session) (e : SyncError) : Line :=
  if e.isCancellation || s.terminal.map (·.error) = some e then
    .debug ("Sync session " ++ toString s.id.toNat ++ " already ended before driver result: "
      ++ e.message)
  else
    .warn ("Sync driver failed after session " ++ toString s.id.toNat ++ " ended ("
      ++ s.phase.title ++ "): " ++ e.message)

/-- The lines of a run's end. -/
def concludeLines (c : Controller) (error : Option SyncError) (now : Nat) : List Line :=
  match c.session with
  | none => []
  | some s =>
    if s.isActive then
      match s.take now (closing error) with
      | .ok (event, after) =>
        s.takeLines (closing error) event after ++ c.emitLines? s.id event
      | .error _ => []
    else (error.map (lateLine s)).toList

end Controller

end ChainSync
