import ChainSync.Hub.Basic

/-!
# Scripted Listeners

Listeners that do as they are told, for rehearsing a hub.

## Main definitions

* `ListenerScript`: What a listener does.
* `ListenerScript.react`: The listener.
-/

namespace ChainSync

/-- What a scripted listener does. -/
inductive ListenerScript where
  | nothing
  | panic (p : Panic)
  /-- Remove a listener. -/
  | unregister (target : Nat)
  /-- Add a listener that does nothing. -/
  | register
  /-- Pass on a block for every event that is not one. -/
  | chain
deriving DecidableEq

/-- The block a listener passes on. -/
def chainedBlock : WalletEvent := .blockAttached (-7) (-8)

/-- The listener of a script. -/
def ListenerScript.react {χ : Type} : ListenerScript → WalletEvent → Reaction χ
  | nothing, _ => .done
  | panic p, _ => .panic p
  | unregister target, _ => .unregister target fun _ => .done
  | register, _ => .register (fun _ => .done) fun _ => .done
  | chain, .blockAttached .. => .done
  | chain, _ => .notify chainedBlock fun _ => .done

/-- The listener of a script that only acts on events of a name, if one is
    given. -/
def ListenerScript.reactTo {χ : Type} (script : ListenerScript) (name : Option String)
    (e : WalletEvent) : Reaction χ :=
  if name = none ∨ name = some e.name then script.react e else .done

end ChainSync
