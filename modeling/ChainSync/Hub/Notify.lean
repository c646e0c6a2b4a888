import ChainSync.Hub.Basic
import ChainSync.Journal

/-!
# Notifying

Passing an event on to the listeners of a hub.

The listeners are those registered when the event comes in; what the callbacks
do to the registry takes effect at once but not for the event under way. A
listener that panics is reported and the others still get the event.

Callbacks may pass on events of their own. How deep this goes is not bounded
by anything, so `notifyWithin` takes a depth that must suffice and gives
nothing when it does not.

## Main definitions

* `Occurrence`: What happens while an event is passed on.
* `Delivery`: The scene after an event, and what happened.
* `Scene.react`: One callback.
* `Scene.report`: A report to the sink.
* `Scene.notifyWithin`: An event passed on to all listeners.
* `Occurrence.line?`: The line an occurrence gives rise to.
-/

namespace ChainSync

/-- Who is called back. -/
inductive Callee where
  | listener (id : Nat)
  | sink (name : String)
deriving DecidableEq

/-- What happens while an event is passed on. -/
inductive Occurrence (χ : Type) where
  /-- A listener gets an event. -/
  | called (listener : Nat) (event : WalletEvent)
  /-- A listener is done with its event. -/
  | returned (listener : Nat)
  /-- A listener broke off. -/
  | panicked (fault : ListenerFault)
  /-- A listener has been registered. -/
  | registered (listener : Listener χ)
  /-- The listener of an id has been removed, or there was none. -/
  | unregistered (listener : Nat) (removed : Bool)
  /-- The sink has been set. -/
  | sinkSet (sink : Sink χ)
  /-- Whoever is called back has passed on an event that so many took. -/
  | passedOn (callee : Callee) (delivered : Nat)
  /-- A sink gets a report. -/
  | reported (sink : String) (fault : ListenerFault)
  /-- A sink is done with its report. -/
  | acknowledged (sink : String)
  /-- A sink broke off. -/
  | sinkPanicked (message : String)

/-- The line of a listener's registration. -/
def Hub.registeredLine (id : Nat) : Line :=
  .debug ("Registered transaction listener #" ++ toString id)

/-- The line an occurrence gives rise to, if it does. -/
def Occurrence.line? {χ : Type} : Occurrence χ → Option Line
  | registered l => some (Hub.registeredLine l.id)
  | panicked f => some (.error ("Transaction listener #" ++ toString f.listener
      ++ " panicked handling " ++ f.event ++ ": " ++ f.message))
  | sinkPanicked message =>
    some (.error ("Block notification error sink panicked: " ++ message))
  | _ => none

/-- How a sink comes to the end of a report. -/
def Sink.ending {χ : Type} (sink : Sink χ) : Option Panic → Occurrence χ
  | none => .acknowledged sink.name
  | some p => .sinkPanicked p.message

/-- The scene after an event has been passed on, what happened, and how many
    listeners took the event without panicking. -/
structure Delivery (χ : Type) where
  scene : Scene χ
  trace : List (Occurrence χ) := []
  delivered : Nat := 0

/-- The scene after a callback, what happened, and with what it broke off if
    it did. -/
structure Reacted (χ : Type) where
  scene : Scene χ
  trace : List (Occurrence χ) := []
  panic : Option Panic := none

namespace Scene

variable {χ : Type}

/-- Changes the hub. -/
def setHub (s : Scene χ) (hub : Hub χ) : Scene χ := { s with hub }

/-- One callback; `nested` passes on the events it has itself. -/
def react (nested : Scene χ → WalletEvent → Option (Delivery χ)) (callee : Callee) :
    Reaction χ → Scene χ → Option (Reacted χ)
  | .done, s => some { scene := s }
  | .panic p, s => some { scene := s, panic := some p }
  | .look next, s => react nested callee (next s.own) s
  | .change f next, s => react nested callee next { s with own := f s.own }
  | .register listener next, s => do
    let (id, hub) := s.hub.register listener
    let r ← react nested callee (next id) (s.setHub hub)
    return { r with trace := .registered ⟨id, listener⟩ :: r.trace }
  | .unregister id next, s => do
    let (removed, hub) := s.hub.unregister id
    let r ← react nested callee (next removed) (s.setHub hub)
    return { r with trace := .unregistered id removed :: r.trace }
  | .setSink name report next, s => do
    let r ← react nested callee next (s.setHub (s.hub.setSink ⟨name, report⟩))
    return { r with trace := .sinkSet ⟨name, report⟩ :: r.trace }
  | .notify event next, s => do
    let d ← nested s event
    let r ← react nested callee (next d.delivered) d.scene
    return { r with trace := d.trace ++ .passedOn callee d.delivered :: r.trace }

/-- A report to the sink, if there is one; a sink may break off in turn. -/
def report (nested : Scene χ → WalletEvent → Option (Delivery χ)) (fault : ListenerFault)
    (s : Scene χ) : Option (Delivery χ) :=
  match s.hub.sink with
  | none => some { scene := s }
  | some sink => do
    let r ← react nested (.sink sink.name) (sink.report fault) s
    return { scene := r.scene
             trace := .reported sink.name fault :: r.trace ++ [sink.ending r.panic] }

/-- An event passed on to one listener. -/
def call (nested : Scene χ → WalletEvent → Option (Delivery χ)) (event : WalletEvent)
    (l : Listener χ) (s : Scene χ) : Option (Delivery χ) := do
  let r ← react nested (.listener l.id) (l.react event) s
  match r.panic with
  | none =>
    return { scene := r.scene
             trace := .called l.id event :: r.trace ++ [.returned l.id]
             delivered := 1 }
  | some p =>
    let fault : ListenerFault := ⟨l.id, event.name, p.message⟩
    let d ← report nested fault r.scene
    return { scene := d.scene
             trace := .called l.id event :: r.trace ++ .panicked fault :: d.trace }

/-- An event passed on to the given listeners, one after the other. -/
def deliver (nested : Scene χ → WalletEvent → Option (Delivery χ)) (event : WalletEvent) :
    List (Listener χ) → Scene χ → Option (Delivery χ)
  | [], s => some { scene := s }
  | l :: rest, s => do
    let first ← call nested event l s
    let d ← deliver nested event rest first.scene
    return { scene := d.scene
             trace := first.trace ++ d.trace
             delivered := first.delivered + d.delivered }

/-- An event passed on to all listeners registered when it comes in, when the
    events passed on from inside callbacks nest less deep than `depth`. -/
def notifyWithin : Nat → Scene χ → WalletEvent → Option (Delivery χ)
  | 0, _, _ => none
  | depth + 1, s, event => deliver (notifyWithin depth) event s.hub.listeners s

end Scene

end ChainSync
