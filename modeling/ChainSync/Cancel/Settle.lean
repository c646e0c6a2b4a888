import ChainSync.Cancel.Coordinator

/-!
# Settling

Running the watchers of a coordinator, and moving its clock.

A watcher sets its timer when it runs for the first time. Whenever it runs it
looks for a cause in a fixed order: its own handle, the token above, the
deadline. With no cause it goes on waiting; otherwise it is done, and unless its
own handle was the cause it cancels that handle, which may wake further
watchers. Settling runs woken watchers, in the order in which they were woken,
until none is left.

## Main definitions

* `Notice`: A handle cancelled by its watcher.
* `Coordinator.arm`: The timer of a watcher is set.
* `Coordinator.look`, `Coordinator.runWatcher`: One watcher's turn.
* `Coordinator.settle`: All woken watchers, and those they wake.
* `Coordinator.nextDeadline`, `Coordinator.moveTo`: The clock.
-/

namespace ChainSync

/-- A handle cancelled by its watcher, and why. -/
structure Notice where
  handle : Nat
  reason : CancelReason
deriving DecidableEq

/-- What a watcher finds when it runs. -/
inductive Watcher.Cause where
  /-- Its own handle is cancelled already. -/
  | own
  /-- It has to cancel its handle. -/
  | cancel (reason : CancelReason)
deriving DecidableEq

namespace Coordinator

/-- A watcher with its timer set. A timer that has been set before stays as it is. -/
def armed (c : Coordinator) (w : Watcher) : Watcher :=
  { w with deadline := w.deadline.or (w.timeout.map c.after) }

/-- Sets the timer of the watcher of a handle. -/
def arm (c : Coordinator) (id : Nat) : Coordinator :=
  { c with watchers := c.watchers.map fun w => if w.handle = id then c.armed w else w }

/-- Why a watcher is done, if it is. -/
def causeFor (c : Coordinator) (w : Watcher) : Option Watcher.Cause :=
  if c.isTokenCancelled w.own then some .own
  else if c.isTokenCancelled w.parent then some (.cancel .parentCancelled)
  else if (w.deadline.map (decide <| · ≤ c.now)).getD false then some (.cancel .deadlineExceeded)
  else none

/-- The watcher of a handle looks for a cause and acts on it. -/
def look (c : Coordinator) (id : Nat) : Option Notice × Coordinator :=
  match c.watchers.find? (·.handle = id) with
  | none => (none, c)
  | some w =>
    let rest := { c with watchers := c.watchers.filter (·.handle ≠ id) }
    match c.causeFor w with
    | none => (none, c)
    | some .own => (none, rest)
    | some (.cancel reason) =>
      let (first, c) := rest.cancelWith id reason
      (if first then some ⟨id, reason⟩ else none, c)

/-- One turn of the watcher of a handle: it looks around, with its timer set. -/
def runWatcher (c : Coordinator) (id : Nat) : Option Notice × Coordinator := (c.arm id).look id

/-- Runs up to so many turns of woken watchers. -/
def settleWithin : Nat → Coordinator → List Notice × Coordinator
  | 0, c => ([], c)
  | steps + 1, c =>
    match c.woken with
    | [] => ([], c)
    | id :: woken =>
      let (notice, c) := ({ c with woken } : Coordinator).runWatcher id
      let (notices, c) := settleWithin steps c
      (notice.toList ++ notices, c)

/-- As many turns as can be needed. A turn that ends a watcher wakes at most
    all others, and any other turn only uses up a place among the woken. -/
def turns (c : Coordinator) : Nat :=
  c.watchers.length * (c.watchers.length + 1) + c.woken.length

/-- Runs all woken watchers and those they wake. -/
def settle (c : Coordinator) : List Notice × Coordinator := settleWithin c.turns c

/-- The earlier of two points in time that may be missing. -/
def earlier : Option Nat → Option Nat → Option Nat
  | none, t => t
  | t, none => t
  | some s, some t => some (min s t)

/-- The first deadline any watcher waits for. -/
def nextDeadline (c : Coordinator) : Option Nat :=
  c.watchers.foldl (fun t w => earlier t w.deadline) none

/-- The watchers whose time is up, earliest deadline first. -/
def expired (c : Coordinator) : List Nat :=
  let due := c.watchers.filterMap fun w =>
    w.deadline.bind fun t => if t ≤ c.now then some (t, w.handle) else none
  (due.mergeSort fun a b => a.1 ≤ b.1).map (·.2)

/-- Moves the clock forward and wakes the watchers whose time is up. -/
def moveTo (c : Coordinator) (t : Nat) : Coordinator :=
  let c := { c with now := max c.now t }
  { c with woken := c.woken ++ c.expired.filter (· ∉ c.woken) }

end Coordinator

end ChainSync
