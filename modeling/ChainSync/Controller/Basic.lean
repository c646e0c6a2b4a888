import ChainSync.Cancel.Coordinator
import ChainSync.Config
import ChainSync.Panic
import ChainSync.Session.Progress
import ChainSync.Session.Report

/-!
# Sync Controller

One sync run after another, and the observers that are told of them.

The controller has at most one session that takes reports. A report that the
session takes and that matters to observers is passed on to all of them, in
the order in which they were added, before the next report is looked at. Each
callback is isolated: an observer that panics ends its own callback, and the
next one is told all the same.

## Main definitions

* `Observer`, `Observer.hear`: Someone who is told of events.
* `Controller`: The state.
* `Controller.callAll`, `Controller.emit`: Callbacks, one after another.
* `Controller.begin`, `Controller.start`: A new session.
* `Controller.report`: A worker's report.
* `Controller.conclude`: The end of a run that may have ended before.
* `Controller.progress`: A snapshot.

## Theorems

* `Observer.received_tell`: Events are received in the order of their telling.
* `Controller.callAll_eq`, `Controller.emit_eq`: All observers are told, whatever the
  others do.
-/

namespace ChainSync

/-- Someone who is told of the events of a run. -/
structure Observer where
  /-- Whether it panics when told the first of these events, after having been
      told the others, newest first. -/
  response : List Event → Option Panic := fun _ => none
  /-- What it has been told, newest first. -/
  seen : List Event := []

namespace Observer

/-- An observer that does nothing but listen. -/
def silent : Observer := {}

/-- An observer that breaks off whatever it is told. -/
def panicking (p : Panic) : Observer := { response := fun _ => some p }

/-- What the observer does when told of an event. -/
def panic? (o : Observer) (e : Event) : Option Panic := o.response (e :: o.seen)

/-- The observer once it has been told of an event. -/
def tell (o : Observer) (e : Event) : Observer := { o with seen := e :: o.seen }

/-- What the observer has been told, oldest first. -/
def received (o : Observer) : List Event := o.seen.reverse

/-- An event comes after all others. -/
@[simp] theorem received_tell (o : Observer) (e : Event) :
    (o.tell e).received = o.received ++ [e] := by
  simp [received, tell]

/-- A callback: the observer takes note of the event, and breaks off if it does. -/
def hear (e : Event) (o : Observer) : Except Panic Unit × Observer :=
  (match o.panic? e with
    | some p => .error p
    | none => .ok (), o.tell e)

end Observer

/-- The sync runs of one network. -/
structure Controller where
  network : Network
  /-- The observers in the order in which they were added. -/
  observers : List Observer := []
  /-- The latest session, which may be over. -/
  session : Option Session := none
  nextId : UInt64 := 1

/-- A session that has been started: its id, the peers with a port each, and
    the handle it is cancelled by. -/
structure SyncStart where
  session : UInt64
  peers : List String
  handle : Nat
deriving DecidableEq

/-- How a session that is over answers whoever drove it. -/
def Session.verdict (s : Session) : Except SyncError Unit :=
  match s.terminal with
  | some t => .error t.error
  | none => .ok ()

namespace Controller

/-- The error of a report before any session. -/
def noSession : SyncError := .invalidState "no sync session started"

/-- Adds an observer for all later events. -/
def addObserver (c : Controller) (o : Observer) : Controller :=
  { c with observers := c.observers ++ [o] }

/-- The phase of the latest session. -/
def phase? (c : Controller) : Option Phase := c.session.map (·.phase)

/-- Whether a session takes reports. -/
def isSyncing (c : Controller) : Bool := (c.session.map (·.isActive)).getD false

/-- The moves of the latest session. -/
def history (c : Controller) : List Transition := (c.session.map (·.history)).getD []

/-- The callbacks of an event, one observer after the other. Each is isolated: what
    it breaks off with is put down, and the next one is called all the same. -/
def callAll (e : Event) : List Observer → List (Option Panic) × List Observer
  | [] => ([], [])
  | o :: rest =>
    let (answer, o) := o.hear e
    let (panics, told) := callAll e rest
    match answer with
    | .error p => (some p :: panics, o :: told)
    | .ok () => (none :: panics, o :: told)

/-- Every observer is told, whatever those before it do. -/
theorem callAll_eq (e : Event) (observers : List Observer) :
    callAll e observers = (observers.map (·.panic? e), observers.map (·.tell e)) := by
  induction observers with
  | nil => rfl
  | cons o rest ih =>
      cases hp : o.panic? e <;> simp only [callAll, Observer.hear, ih, hp, List.map_cons]

/-- Tells all observers of an event. -/
def emit (c : Controller) (e : Event) : Controller :=
  { c with observers := (callAll e c.observers).2 }

theorem emit_eq (c : Controller) (e : Event) :
    c.emit e = { c with observers := c.observers.map (·.tell e) } := by
  rw [emit, callAll_eq]

/-- Tells all observers of an event, if there is one. -/
def emit? (c : Controller) : Option Event → Controller
  | some e => c.emit e
  | none => c

/-- Begins a new session unless one is under way. -/
def begin (c : Controller) (now : Nat) : Except SyncError (UInt64 × Controller) :=
  if c.isSyncing then .error .syncInProgress
  else match (Session.start c.nextId now).begin now with
    | .ok s => .ok (c.nextId, { c with session := some s, nextId := c.nextId + 1 })
    | .error r => .error r.toError

/-- Passes a report on to the session and what comes of it to the observers. -/
def report (c : Controller) (r : Report) (now : Nat) : Except SyncError Controller :=
  match c.session with
  | none => .error noSession
  | some s => match s.take now r with
    | .ok (event, s) => .ok (({ c with session := some s } : Controller).emit? event)
    | .error rejection => .error rejection.toError

/-- Begins a session with given settings and derives the handle it is
    cancelled by. A bad peer address ends the session at once. -/
def start (c : Controller) (config : Config) (k : Coordinator) (parent now : Nat) :
    Except SyncError SyncStart × Controller × Coordinator :=
  match c.begin now with
  | .error e => (.error e, c, k)
  | .ok (session, c) => match config.normalizedPeers with
    | .error e => match c.report (.failed e) now with
      | .ok c => (.error e, c, k)
      | .error e => (.error e, c, k)
    | .ok peers =>
      let (handle, k) := k.derive parent config.syncTimeout
      (.ok { session, peers, handle }, c, k)

/-- The report a run that is over makes on its own behalf. -/
def closing : Option SyncError → Report
  | none => .synced
  | some e => .failed e

/-- Ends the latest session unless it has ended before, and answers whoever
    drove it. After the end only a fault that is news is answered with itself. -/
def conclude (c : Controller) (error : Option SyncError) (now : Nat) :
    Except SyncError Unit × Controller :=
  match c.session with
  | none => (.error noSession, c)
  | some s =>
    if s.isActive then
      match s.take now (closing error) with
      | .error rejection => (.error rejection.toError, c)
      | .ok (event, s) => (s.verdict, ({ c with session := some s } : Controller).emit? event)
    else match error with
      | none => (s.verdict, c)
      | some e =>
        if e.isCancellation || s.terminal.map (·.error) = some e then (s.verdict, c)
        else (.error e, c)

/-- The snapshot of the latest session, which remembers its progress. -/
def progress (c : Controller) (now : Nat) (nowUnix : Int64) : Option Progress × Controller :=
  match c.session with
  | none => (none, c)
  | some s =>
    let (p, s) := s.progress c.network.label now nowUnix
    (some p, { c with session := some s })

/-- The controller in one line. -/
def description (c : Controller) : String :=
  "SyncLifecycleController \x7b network: " ++ c.network.title ++ ", phase: "
    ++ (match c.phase? with
      | some p => "Some(" ++ p.tag ++ ")"
      | none => "None")
    ++ " \x7d"

end Controller

end ChainSync
