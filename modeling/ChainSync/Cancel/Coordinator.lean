import ChainSync.Cancel.Forest
import ChainSync.Cancel.Handle

/-!
# Shutdown Coordinator

Operations that can be called off, one by one or all at once.

Every operation has a handle. The coordinator has a latch: the first request
to shut down cancels every live handle derived so far, and from then on every
new handle is cancelled as soon as it is derived. It keeps no operation alive;
a handle that has lost its last clone is no longer counted.

Between a handle and the token above it stands a watcher. It runs as a task of
its own: it is woken when the handle or the token above is cancelled or when
the time is up, and only when it runs does it cancel its handle. `woken` holds
the watchers that will run, in the order in which they were woken; a new
watcher is among them, to look around once. It sets its timer then, so the time
of a handle does not count from its derivation but from that first turn.

Times are milliseconds on a clock that moves only when it is told to. Timers
are those of the runtime, of which one thing is assumed: `longestWait`.

## Main definitions

* `Watcher`, `Coordinator`: The state.
* `Coordinator.derive`, `Coordinator.clone`, `Coordinator.drop`,
  `Coordinator.cancel`, `Coordinator.cancelToken`: Single operations.
* `Coordinator.fire`, `Coordinator.onSignal`: The shutdown.
* `Coordinator.activeHandles`, `Coordinator.activeWatchers`: What is alive.
-/

namespace ChainSync

/-- A task that waits for a handle's token, for the token above it, or for the
    handle's time to be up. -/
structure Watcher where
  handle : Nat
  own : Nat
  parent : Nat
  /-- The milliseconds after which the handle's time is up. -/
  timeout : Option Nat
  /-- When its timer goes off, once that has been set. -/
  deadline : Option Nat := none
deriving DecidableEq

/-- All operations that can be called off. -/
structure Coordinator where
  now : Nat := 0
  forest : Forest := {}
  /-- All handles ever derived, in that order. -/
  handles : List Handle := []
  /-- The handles a shutdown will cancel. -/
  registry : List Nat := []
  /-- The watchers that still wait, in the order of their handles. -/
  watchers : List Watcher := []
  /-- The handles of the watchers that will run. -/
  woken : List Nat := []
  fired : Bool := false
  signals : Nat := 0
deriving DecidableEq

/-- What a handle shows of itself. -/
structure HandleState where
  id : Nat
  cancelled : Bool
  reason : Option CancelReason
deriving DecidableEq

/-- The error of the reason, if there is one. -/
def HandleState.error (h : HandleState) : Option SyncError := h.reason.map (·.toError)

namespace Coordinator

/-- The longest that anybody can wait, in milliseconds: thirty years. A wait
    that is meant to take longer ends then. This is an assumption on the timers
    of the runtime, which are not part of the program. -/
def longestWait : Nat := 946080000000

/-- The point in time at which a wait of so many milliseconds ends. -/
def after (c : Coordinator) (ms : Nat) : Nat := c.now + min ms longestWait

/-- The handle with an id. -/
def handle? (c : Coordinator) (id : Nat) : Option Handle := c.handles.find? (·.id = id)

/-- Whether a token counts as cancelled. -/
def isTokenCancelled (c : Coordinator) (t : Nat) : Bool := c.forest.isCancelled t

/-- Whether a handle's token counts as cancelled. -/
def isCancelled (c : Coordinator) (id : Nat) : Bool :=
  ((c.handle? id).map fun h => c.isTokenCancelled h.token).getD false

/-- What the handle with an id shows of itself. -/
def state? (c : Coordinator) (id : Nat) : Option HandleState :=
  (c.handle? id).map fun h => ⟨id, c.isTokenCancelled h.token, h.reason⟩

/-- Makes a token below another one or on its own. -/
def makeToken (c : Coordinator) (parent : Option Nat) : Nat × Coordinator :=
  let (t, forest) := c.forest.make parent
  (t, { c with forest })

/-- Cancels a token and wakes the watchers that wait for it or for one below. -/
def cancelToken (c : Coordinator) (t : Nat) : Coordinator :=
  let forest := c.forest.cancel t
  let struck (s : Nat) : Bool := forest.isCancelled s && !c.forest.isCancelled s
  let awake := c.watchers.filter fun w =>
    (struck w.own || struck w.parent) && w.handle ∉ c.woken
  { c with forest, woken := c.woken ++ awake.map (·.handle) }

/-- Changes the handle with an id. -/
def modifyHandle (c : Coordinator) (id : Nat) (f : Handle → Handle) : Coordinator :=
  { c with handles := c.handles.map fun h => if h.id = id then f h else h }

/-- Cancels a handle. Only the first reason is kept; the answer tells whether
    it is this one. -/
def cancelWith (c : Coordinator) (id : Nat) (reason : CancelReason) : Bool × Coordinator :=
  match c.handle? id with
  | none => (false, c)
  | some h =>
    let c := c.modifyHandle id fun h => { h with reason := h.reason.or (some reason) }
    (h.reason.isNone, c.cancelToken h.token)

/-- Cancels a handle on request. -/
def cancel (c : Coordinator) (id : Nat) : Bool × Coordinator := c.cancelWith id .requested

/-- Adds a clone of a handle. -/
def clone (c : Coordinator) (id : Nat) : Coordinator :=
  c.modifyHandle id fun h => { h with clones := h.clones + 1 }

/-- Gives up a clone of a handle; with the last one the handle is cancelled. -/
def drop (c : Coordinator) (id : Nat) : Coordinator :=
  let c := c.modifyHandle id fun h => { h with clones := h.clones - 1 }
  match c.handle? id with
  | some h => if h.clones = 0 then (c.cancelWith id .released).2 else c
  | none => c

/-- The id of the next handle. Ids are counted in 64 bits; here they are numbers
    without a limit, since nobody derives so many handles that they begin again. -/
def nextId (c : Coordinator) : Nat := c.handles.length + 1

/-- Derives a handle below a token, with a time after which it is cancelled.
    After a shutdown, or below a cancelled token, it is cancelled at once and
    has no watcher. -/
def derive (c : Coordinator) (parent : Nat) (timeout : Option Nat) : Nat × Coordinator :=
  let id := c.nextId
  let (token, c) := c.makeToken none
  let c := { c with handles := c.handles ++ [({ id, token } : Handle)] }
  if c.fired then (id, (c.cancelWith id .shutdown).2)
  else
    let c := { c with registry := c.registry ++ [id] }
    if c.isTokenCancelled parent then (id, (c.cancelWith id .parentCancelled).2)
    else
      let watcher : Watcher := { handle := id, own := token, parent, timeout }
      (id, { c with watchers := c.watchers ++ [watcher], woken := c.woken ++ [id] })

/-- Whether the handle with an id has a live clone. -/
def isLive (c : Coordinator) (id : Nat) : Bool := ((c.handle? id).map (·.isLive)).getD false

/-- The handles a shutdown would cancel. -/
def targets (c : Coordinator) : List Nat := c.registry.filter c.isLive

/-- Shuts down, unless that has been done before; the answer tells which. -/
def fire (c : Coordinator) : Bool × Coordinator :=
  if c.fired then (false, c)
  else
    let start := { c with fired := true, registry := [] }
    (true, c.targets.foldl (fun c id => (c.cancelWith id .shutdown).2) start)

/-- A signal has come in: it is counted and asks for a shutdown. -/
def onSignal (c : Coordinator) : Coordinator :=
  ({ c with signals := c.signals + 1 } : Coordinator).fire.2

/-- The number of registered handles that are alive. -/
def activeHandles (c : Coordinator) : Nat := c.targets.length

/-- The number of watchers that still wait. -/
def activeWatchers (c : Coordinator) : Nat := c.watchers.length

/-- The error an operation stops with once its handle counts as cancelled. A
    handle whose token was cancelled directly has no reason to go by. -/
def cancellation (c : Coordinator) (id : Nat) : Option SyncError :=
  if c.isCancelled id then
    some (((c.handle? id).bind (·.error)).getD (.cancelled "operation cancelled"))
  else none

end Coordinator

end ChainSync
