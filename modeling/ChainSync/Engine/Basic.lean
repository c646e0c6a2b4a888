import ChainSync.Controller.Journal
import ChainSync.Rescan.Slot
import ChainSync.Routine

/-!
# Engine

The state that all work of a wallet's sync shares, with its journal.

The parts of an engine do not know of the journal. Here their operations are
put together with the lines they give rise to, each written inside the spans
of the work that is under way.

Tokens and handles may be given names. A name that is given again lets go of
what it stood for.

## Main definitions

* `Engine`: The state, with an `own` part for whoever uses the engine.
* `Engine.note`, `Engine.within`: The journal.
* `Engine.derive`, `Engine.fire`, `Engine.cancelNamed`, …: Cancellation.
* `Engine.begin`, `Engine.start`, `Engine.report`, `Engine.conclude`: Sync runs.
-/

namespace ChainSync

/-- The number of waits that may end in one turn. -/
def turnLength : Nat := 128

/-- The state that all work shares. -/
structure Engine (χ : Type) where
  controller : Controller
  own : χ
  coordinator : Coordinator := {}
  slot : RescanSlot := {}
  /-- The tokens that have names. -/
  tokens : List (String × Nat) := []
  /-- The handles that have names. -/
  handles : List (String × Nat) := []
  /-- How often the clock has been read. -/
  readings : Nat := 0
  /-- How many waits may still end before others get their turn. -/
  allowance : Nat := turnLength
  /-- The spans of the work under way, outermost first. -/
  spans : List Span := []
  /-- The lines written so far, newest first. -/
  journal : List Line := []

namespace Engine

variable {χ : Type}

/-! ## The journal and the clock -/

/-- Writes lines inside the spans of the work under way. -/
def note (e : Engine χ) (lines : List Line) : Engine χ :=
  { e with journal := lines.foldl (fun ls l => e.spans.foldr Line.within l :: ls) e.journal }

/-- Work inside one more span. -/
def within {α : Type} (span : Span) (r : Routine (Engine χ) α) : Routine (Engine χ) α :=
  r.around (fun e => { e with spans := e.spans ++ [span] })
    (fun e => { e with spans := e.spans.dropLast })

/-- The clock in milliseconds. -/
def now (e : Engine χ) : Nat := e.coordinator.now

/-- The point in time of the next reading, in nanoseconds. Two readings are
    never the same. -/
def instant (e : Engine χ) : Nat := e.now * 1000000 + e.readings

/-- The clock has been read. -/
def tick (e : Engine χ) : Engine χ := { e with readings := e.readings + 1 }

/-- Changes the part of whoever uses the engine. -/
def modifyOwn (f : χ → χ) (e : Engine χ) : Engine χ := { e with own := f e.own }

/-! ## Cancellation -/

/-- The token of a name. -/
def token? (e : Engine χ) (name : String) : Option Nat := e.tokens.lookup name

/-- The handle of a name. -/
def handle? (e : Engine χ) (name : String) : Option Nat := e.handles.lookup name

/-- Gives a token a name. -/
def nameToken (e : Engine χ) (name : String) (token : Nat) : Engine χ :=
  { e with tokens := (name, token) :: e.tokens.filter (·.1 ≠ name) }

/-- Takes a name from a handle and drops it; the answer tells whether the name
    stood for one. -/
def dropNamed (e : Engine χ) (name : String) : Bool × Engine χ :=
  match e.handle? name with
  | none => (false, e)
  | some id =>
    (true, { e with
      handles := e.handles.filter (·.1 ≠ name)
      coordinator := e.coordinator.drop id })

/-- Gives a handle a name, which lets go of the one it stood for. -/
def nameHandle (e : Engine χ) (name : String) (id : Nat) : Engine χ :=
  let e := (e.dropNamed name).2
  { e with handles := (name, id) :: e.handles }

/-- Makes a token below another one or on its own, under a name. -/
def makeToken (e : Engine χ) (name : String) (parent : Option Nat) : Nat × Engine χ :=
  let (t, coordinator) := e.coordinator.makeToken parent
  (t, ({ e with coordinator } : Engine χ).nameToken name t)

/-- The token of a name, which is made if there is none. -/
def tokenNamed (e : Engine χ) (name : String) : Nat × Engine χ :=
  match e.token? name with
  | some t => (t, e)
  | none => e.makeToken name none

/-- Derives a handle. -/
def derive (e : Engine χ) (parent : Nat) (timeout : Option Nat) : Nat × Engine χ :=
  let (id, coordinator) := e.coordinator.derive parent timeout
  (id, { e.note e.coordinator.deriveLines with coordinator })

/-- Derives a handle under a name. -/
def deriveNamed (e : Engine χ) (name : String) (parent : Nat) (timeout : Option Nat) :
    Nat × Engine χ :=
  let (id, e) := e.derive parent timeout
  (id, e.nameHandle name id)

/-- Asks for a shutdown. -/
def fire (e : Engine χ) (source : ShutdownSource) : Bool × Engine χ :=
  let (first, coordinator) := e.coordinator.fire
  (first, { e.note (e.coordinator.fireLines source) with coordinator })

/-- A signal has come in. -/
def onSignal (e : Engine χ) (name : String) : Engine χ :=
  { e.note (e.coordinator.fireLines (.signal name)) with coordinator := e.coordinator.onSignal }

/-- Cancels a handle. -/
def cancel (e : Engine χ) (id : Nat) : Bool × Engine χ :=
  let (first, coordinator) := e.coordinator.cancel id
  (first, { e with coordinator })

/-- Cancels a token. -/
def cancelToken (e : Engine χ) (token : Nat) : Engine χ :=
  { e with coordinator := e.coordinator.cancelToken token }

/-- Drops a handle that has no name. -/
def drop (e : Engine χ) (id : Nat) : Engine χ :=
  { e with coordinator := e.coordinator.drop id }

/-- The token of a handle. -/
def tokenOf? (e : Engine χ) (id : Nat) : Option Nat := (e.coordinator.handle? id).map (·.token)

/-- Runs the watchers that have been woken. They are not part of any work. -/
def settle (e : Engine χ) : Engine χ :=
  let (notices, coordinator) := e.coordinator.settle
  { e with
    coordinator
    journal := notices.foldl (fun ls n => n.line :: ls) e.journal }

/-! ## Sync runs -/

/-- Begins a session. -/
def begin (e : Engine χ) : Except SyncError UInt64 × Engine χ :=
  let after := (e.note (e.controller.beginLines e.instant)).tick
  match e.controller.begin e.instant with
  | .ok (id, controller) => (.ok id, { after with controller })
  | .error err => (.error err, after)

/-- Passes on a worker's report. -/
def report (e : Engine χ) (r : Report) : Except SyncError Unit × Engine χ :=
  let after := (e.note (e.controller.reportLines r e.instant)).tick
  match e.controller.report r e.instant with
  | .ok controller => (.ok (), { after with controller })
  | .error err => (.error err, after)

/-- Begins a session with given settings below a token. -/
def start (e : Engine χ) (config : Config) (parent : Nat) :
    Except SyncError SyncStart × Engine χ :=
  let (answer, controller, coordinator) :=
    e.controller.start config e.coordinator parent e.instant
  (answer, { (e.note (e.controller.startLines config e.coordinator e.instant)).tick with
    controller, coordinator })

/-- Ends a session that has not ended before. -/
def conclude (e : Engine χ) (error : Option SyncError) : Except SyncError Unit × Engine χ :=
  let (answer, controller) := e.controller.conclude error e.instant
  (answer, { (e.note (e.controller.concludeLines error e.instant)).tick with controller })

/-- The snapshot of the latest session. -/
def progress (e : Engine χ) (nowUnix : Int64) : Option Progress × Engine χ :=
  let (p, controller) := e.controller.progress e.instant nowUnix
  (p, { e.tick with controller })

end Engine

end ChainSync
