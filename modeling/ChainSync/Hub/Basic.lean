import ChainSync.Panic
import ChainSync.Wallet.Transaction

/-!
# Notification Hub

The registry of those who want to hear of wallet events.

Listeners get ids in the order in which they register, starting from one, and
an id is never given out twice. A listener may do anything to the hub from
inside its callback; what it does is a finite tree of actions whose answers it
sees. A listener that panics is reported to the hub's sink, if it has one, and
the sink is free to act on the hub in the same ways.

What a callback does may depend on more than the event. Whoever is called back
shares a state `χ` with the others and with the caller, which the hub knows
nothing of; a hub together with that state is a scene.

## Main definitions

* `WalletEvent`: What listeners are told.
* `Reaction`: What a callback does.
* `Hub`: The registry, with `Hub.register`, `Hub.unregister`, `Hub.setSink`.
* `Scene`: A hub and the state its callbacks share.
-/

namespace ChainSync

/-- What listeners are told. -/
inductive WalletEvent where
  /-- A transaction has come up. -/
  | transaction (t : Transaction)
  /-- A transaction has become part of a block. -/
  | transactionConfirmed (hash : String) (height : Int32)
  /-- A block has been added to the chain. -/
  | blockAttached (height : Int32) (timestamp : Int64)
deriving DecidableEq

/-- The name of an event. -/
def WalletEvent.name : WalletEvent → String
  | transaction _ => "transaction"
  | transactionConfirmed .. => "transaction_confirmed"
  | blockAttached .. => "block_attached"

/-- A report of a listener that panicked. -/
structure ListenerFault where
  listener : Nat
  event : String
  message : String
deriving DecidableEq

/-- The message of a report. -/
def ListenerFault.text (f : ListenerFault) : String :=
  "listener " ++ toString f.listener ++ " panicked handling " ++ f.event ++ ": " ++ f.message

/-- What a callback does, action by action. -/
inductive Reaction (χ : Type) where
  /-- Nothing more. -/
  | done
  /-- It breaks off. -/
  | panic (p : Panic)
  /-- It looks at the shared state and goes on with what it sees. -/
  | look (next : χ → Reaction χ)
  /-- It changes the shared state. -/
  | change (f : χ → χ) (next : Reaction χ)
  /-- It registers a further listener and goes on with its id. -/
  | register (listener : WalletEvent → Reaction χ) (next : Nat → Reaction χ)
  /-- It removes a listener and goes on knowing whether there was one. -/
  | unregister (id : Nat) (next : Bool → Reaction χ)
  /-- It sets the hub's sink, which has a name and takes reports. -/
  | setSink (name : String) (report : ListenerFault → Reaction χ) (next : Reaction χ)
  /-- It passes on an event of its own and goes on with the number of
      listeners that took it. -/
  | notify (event : WalletEvent) (next : Nat → Reaction χ)

/-- A listener and its id. -/
structure Listener (χ : Type) where
  id : Nat
  react : WalletEvent → Reaction χ

/-- Where reports go. -/
structure Sink (χ : Type) where
  name : String
  report : ListenerFault → Reaction χ

/-- The registry of listeners, in the order of registration. -/
structure Hub (χ : Type) where
  listeners : List (Listener χ) := []
  sink : Option (Sink χ) := none
  /-- The id given out last. Ids are counted in 64 bits; here they are numbers without a
      limit, since nobody registers so many listeners that they begin again. -/
  lastId : Nat := 0

/-- A hub and the state that its callbacks share. -/
structure Scene (χ : Type) where
  hub : Hub χ
  own : χ

namespace Hub

variable {χ : Type}

/-- Adds a listener, whose id is the next one. -/
def register (h : Hub χ) (react : WalletEvent → Reaction χ) : Nat × Hub χ :=
  let id := h.lastId + 1
  (id, { h with listeners := h.listeners ++ [⟨id, react⟩], lastId := id })

/-- Removes a listener; the answer tells whether there was one. -/
def unregister (h : Hub χ) (id : Nat) : Bool × Hub χ :=
  (h.listeners.any (·.id = id), { h with listeners := h.listeners.filter (·.id ≠ id) })

/-- Sets where reports go. -/
def setSink (h : Hub χ) (sink : Sink χ) : Hub χ := { h with sink := some sink }

/-- The hub as the journal shows it. -/
def description (h : Hub χ) : String :=
  "NotificationHub \x7b listeners: " ++ toString h.listeners.length ++ " \x7d"

end Hub

end ChainSync
