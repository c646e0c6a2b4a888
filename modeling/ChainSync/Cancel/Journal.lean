import ChainSync.Cancel.Settle
import ChainSync.Journal

/-!
# Coordinator Journal

The lines a coordinator's operations give rise to. Each can be told from the
state before the operation.

## Main definitions

* `Notice.line`: A handle cancelled by its watcher.
* `Coordinator.deriveLines`, `Coordinator.fireLines`: The lines of operations.
-/

namespace ChainSync

/-- The line of a handle cancelled by its watcher. -/
def Notice.line (n : Notice) : Line :=
  .debug ("Operation " ++ toString n.handle ++ " cancelled: " ++ n.reason.name)

namespace Coordinator

/-- The lines of deriving a handle. -/
def deriveLines (c : Coordinator) : List Line :=
  if c.fired then
    [.debug ("Operation " ++ toString c.nextId ++ " derived after shutdown, cancelled immediately")]
  else []

/-- The handles a shutdown is the first to cancel. -/
def fresh (c : Coordinator) : List Nat :=
  c.targets.filter fun id => ((c.handle? id).map (·.reason.isNone)).getD false

/-- The lines of a request to shut down. -/
def fireLines (c : Coordinator) (source : ShutdownSource) : List Line :=
  if c.fired then
    [.debug ("Shutdown signaled (" ++ source.text ++ "). Already shutting down...")]
  else
    [match source with
      | .signal name => .info ("Received signal (" ++ name ++ "). Shutting down...")
      | .request => .info "Shutdown requested. Shutting down...",
     .debug ("Cancelled " ++ toString c.fresh.length ++ " in-flight operation(s) for shutdown")]

end Coordinator

end ChainSync
