import ChainSync.Hub.Notify

/-!
# Replaying a Hub

A hub changes by what its trace tells, and by nothing else.

Callbacks act on a hub while it walks over its listeners, events nest in
events, and a callback may break off anywhere. What can be said of the registry
all the same is that the trace holds every change in the order in which it was
made. `replay` makes the changes of a trace to a hub; a hub that has taken part
in a trace is the replay of that trace, at the end and at every moment before.

A trace also holds the answers that callbacks got. An id given out is one more
than the last one, and the answer to a removal says whether there was something
to remove. `Leads` joins both: the answers were right, and the changes made
lead from one hub to the other. Whatever runs one after the other leads from
the first hub to the last (`leads_append`), so one lemma for each function of
the walk is enough.

## Main definitions

* `Hub.hear`, `Hub.replay`: A hub after what a trace tells.
* `Hub.Allows`: An answer is right.
* `Hub.Leads`: A trace leads from one hub to another.
* `Hub.Numbered`: Listeners stand in the order of their ids.
* `Occurrence.given?`: The id that is given out.

## Theorems

* `Hub.Leads.replay`: What a trace leads to is its replay.
* `Hub.Leads.given`: Ids are given out one by one.
* `Scene.notifyWithin_leads`: Passing on an event leads to the hub left behind.
-/

namespace ChainSync

variable {χ : Type}

/-- The id that is given out, if one is. -/
def Occurrence.given? : Occurrence χ → Option Nat
  | registered l => some l.id
  | _ => none

namespace Hub

/-- A hub after one thing has happened. -/
def hear (h : Hub χ) : Occurrence χ → Hub χ
  | .registered l => { h with listeners := h.listeners ++ [l], lastId := l.id }
  | .unregistered id _ => (h.unregister id).2
  | .sinkSet sink => h.setSink sink
  | _ => h

/-- A hub after all that a trace tells. -/
def replay (h : Hub χ) (trace : List (Occurrence χ)) : Hub χ := trace.foldl hear h

/-- What a hub answers is right: a new id is the next one, and a removal finds
    something exactly if the id is registered. -/
def Allows (h : Hub χ) : Occurrence χ → Prop
  | .registered l => l.id = h.lastId + 1
  | .unregistered id removed => removed = h.listeners.any (·.id = id)
  | _ => True

/-- A trace leads from one hub to another, with the right answers on the way. -/
def Leads (h : Hub χ) : List (Occurrence χ) → Hub χ → Prop
  | [], h' => h' = h
  | o :: trace, h' => h.Allows o ∧ (h.hear o).Leads trace h'

theorem leads_append {h h' : Hub χ} {before after : List (Occurrence χ)} :
    h.Leads (before ++ after) h' ↔ ∃ m, h.Leads before m ∧ m.Leads after h' := by
  induction before generalizing h with
  | nil => simp only [List.nil_append, Leads, exists_eq_left]
  | cons o before ih => simp only [List.cons_append, Leads, ih, and_assoc, exists_and_left]

theorem Leads.trans {h m h' : Hub χ} {before after : List (Occurrence χ)}
    (hm : h.Leads before m) (hh : m.Leads after h') : h.Leads (before ++ after) h' :=
  leads_append.mpr ⟨m, hm, hh⟩

theorem Leads.replay {h h' : Hub χ} {trace : List (Occurrence χ)} (hl : h.Leads trace h') :
    h' = h.replay trace := by
  induction trace generalizing h with
  | nil => exact hl
  | cons o trace ih => exact ih hl.2

/-- Listeners stand in the order of their ids, none of which is still to come. -/
def Numbered (h : Hub χ) : Prop :=
  (h.listeners.map (·.id)).Pairwise (· < ·) ∧ ∀ l ∈ h.listeners, l.id ≤ h.lastId

theorem Numbered.hear {h : Hub χ} (hn : h.Numbered) {o : Occurrence χ} (ho : h.Allows o) :
    (h.hear o).Numbered := by
  cases o with
  | registered l =>
      have hid : l.id = h.lastId + 1 := ho
      refine ⟨?_, fun l' hl' => ?_⟩
      -- The new id is above the last one given out, and so above all others.
      · simp only [Hub.hear, List.map_append, List.map_cons, List.map_nil]
        rw [List.pairwise_append]
        refine ⟨hn.1, List.pairwise_singleton _ _, fun a ha b hb => ?_⟩
        rcases List.mem_map.mp ha with ⟨l', hl', rfl⟩
        rw [List.mem_singleton.mp hb, hid]
        exact Nat.lt_succ_of_le (hn.2 l' hl')
      · rcases List.mem_append.mp hl' with hl' | hl'
        · exact Nat.le_of_lt (Nat.lt_of_le_of_lt (hn.2 l' hl') (by simp [Hub.hear, hid]))
        · rw [List.mem_singleton.mp hl']
          exact Nat.le_refl _
  | unregistered id removed =>
      have hsub : (h.unregister id).2.listeners.Sublist h.listeners := List.filter_sublist
      exact ⟨hn.1.sublist (hsub.map _), fun l hl => hn.2 l (hsub.subset hl)⟩
  | _ => exact hn

theorem Numbered.leads {h h' : Hub χ} {trace : List (Occurrence χ)} (hn : h.Numbered)
    (hl : h.Leads trace h') : h'.Numbered := by
  induction trace generalizing h with
  | nil =>
      rw [show h' = h from hl]
      exact hn
  | cons o trace ih => exact ih (hn.hear hl.1) hl.2

/-- The ids that a trace gives out follow the last one given out before it. -/
theorem Leads.given {h h' : Hub χ} {trace : List (Occurrence χ)} (hl : h.Leads trace h') :
    ∃ n, h'.lastId = h.lastId + n ∧
      trace.filterMap Occurrence.given? = List.range' (h.lastId + 1) n := by
  induction trace generalizing h with
  | nil => exact ⟨0, congrArg lastId hl, rfl⟩
  | cons o trace ih =>
      rcases ih hl.2 with ⟨n, hlast, hgiven⟩
      cases o with
      | registered l =>
          have hid : l.id = h.lastId + 1 := hl.1
          have hnext : (h.hear (.registered l)).lastId = h.lastId + 1 := hid
          rw [hnext] at hlast hgiven
          refine ⟨n + 1, by rw [hlast, Nat.add_assoc, Nat.add_comm 1], ?_⟩
          have hid' : Occurrence.given? (.registered l) = some l.id := rfl
          rw [List.filterMap_cons_some hid', hgiven, hid, List.range'_succ]
      | _ => exact ⟨n, hlast, hgiven⟩

theorem leads_register (h : Hub χ) (react : WalletEvent → Reaction χ) :
    h.Leads [.registered ⟨(h.register react).1, react⟩] (h.register react).2 := ⟨rfl, rfl⟩

theorem leads_unregister (h : Hub χ) (id : Nat) :
    h.Leads [.unregistered id (h.unregister id).1] (h.unregister id).2 := ⟨rfl, rfl⟩

theorem leads_setSink (h : Hub χ) (sink : Sink χ) :
    h.Leads [.sinkSet sink] (h.setSink sink) := ⟨trivial, rfl⟩

theorem leads_ending (h : Hub χ) (sink : Sink χ) (panic : Option Panic) :
    h.Leads [sink.ending panic] h := by
  cases panic with
  | none => exact ⟨trivial, rfl⟩
  | some p => exact ⟨trivial, rfl⟩

/-- What is only told of changes nothing. -/
theorem Leads.told {h h' : Hub χ} {o : Occurrence χ} {trace : List (Occurrence χ)}
    (hl : h.Leads trace h') (ho : h.hear o = h) (hallows : h.Allows o) :
    h.Leads (o :: trace) h' := by
  refine ⟨hallows, ?_⟩
  rwa [ho]

end Hub

namespace Scene

variable {nested : Scene χ → WalletEvent → Option (Delivery χ)}

/-- Events passed on from inside callbacks lead to the hub they leave behind. -/
def Tracks (nested : Scene χ → WalletEvent → Option (Delivery χ)) : Prop :=
  ∀ s event d, nested s event = some d → s.hub.Leads d.trace d.scene.hub

theorem react_leads (hnested : Tracks nested) {callee : Callee} {r : Reaction χ} {s : Scene χ}
    {x : Reacted χ} (h : react nested callee r s = some x) :
    s.hub.Leads x.trace x.scene.hub := by
  induction r generalizing s x with
  | done =>
      rw [← Option.some.inj h]
      rfl
  | panic p =>
      rw [← Option.some.inj h]
      rfl
  | look next ih => exact ih s.own h
  | change f next ih => exact ih (s := { s with own := f s.own }) h
  | register listener next _ ih =>
      rcases Option.bind_eq_some_iff.mp h with ⟨y, hy, h⟩
      rw [← Option.some.inj h]
      exact (s.hub.leads_register listener).trans (ih _ hy)
  | unregister id next ih =>
      -- The answer decides how the callback goes on.
      rcases Option.bind_eq_some_iff.mp h with ⟨y, hy, h⟩
      rw [← Option.some.inj h]
      exact (s.hub.leads_unregister id).trans (ih _ hy)
  | setSink name report next _ ih =>
      rcases Option.bind_eq_some_iff.mp h with ⟨y, hy, h⟩
      rw [← Option.some.inj h]
      exact (s.hub.leads_setSink ⟨name, report⟩).trans (ih hy)
  | notify event next ih =>
      rcases Option.bind_eq_some_iff.mp h with ⟨d, hd, h⟩
      rcases Option.bind_eq_some_iff.mp h with ⟨y, hy, h⟩
      rw [← Option.some.inj h]
      exact (hnested s event d hd).trans ((ih _ hy).told rfl trivial)

theorem report_leads (hnested : Tracks nested) {fault : ListenerFault} {s : Scene χ}
    {d : Delivery χ} (h : report nested fault s = some d) : s.hub.Leads d.trace d.scene.hub := by
  unfold report at h
  cases hsink : s.hub.sink with
  | none =>
      rw [hsink] at h
      rw [← Option.some.inj h]
      rfl
  | some sink =>
      rw [hsink] at h
      rcases Option.bind_eq_some_iff.mp h with ⟨x, hx, h⟩
      rw [← Option.some.inj h]
      have hcourse := react_leads hnested hx
      exact (hcourse.trans (x.scene.hub.leads_ending sink x.panic)).told rfl trivial

theorem call_leads (hnested : Tracks nested) {event : WalletEvent} {l : Listener χ}
    {s : Scene χ} {d : Delivery χ} (h : call nested event l s = some d) :
    s.hub.Leads d.trace d.scene.hub := by
  rcases Option.bind_eq_some_iff.mp h with ⟨x, hx, h⟩
  have hcourse := react_leads hnested hx
  cases hpanic : x.panic with
  | none =>
      simp only [hpanic] at h
      rw [← Option.some.inj h]
      have hend : x.scene.hub.Leads [.returned l.id] x.scene.hub := ⟨trivial, rfl⟩
      exact (hcourse.trans hend).told rfl trivial
  | some p =>
      simp only [hpanic] at h
      rcases Option.bind_eq_some_iff.mp h with ⟨y, hy, h⟩
      rw [← Option.some.inj h]
      have hreport := report_leads hnested hy
      exact (hcourse.trans (hreport.told (o := .panicked _) rfl trivial)).told rfl trivial

theorem deliver_leads (hnested : Tracks nested) {event : WalletEvent} {ls : List (Listener χ)}
    {s : Scene χ} {d : Delivery χ} (h : deliver nested event ls s = some d) :
    s.hub.Leads d.trace d.scene.hub := by
  induction ls generalizing s d with
  | nil =>
      rw [← Option.some.inj h]
      rfl
  | cons l ls ih =>
      rcases Option.bind_eq_some_iff.mp h with ⟨first, hfirst, h⟩
      rcases Option.bind_eq_some_iff.mp h with ⟨rest, hrest, h⟩
      rw [← Option.some.inj h]
      exact (call_leads hnested hfirst).trans (ih hrest)

theorem notifyWithin_leads (depth : Nat) : Tracks (notifyWithin (χ := χ) depth) := by
  -- Events inside callbacks are passed on at a smaller depth.
  induction depth with
  | zero => exact fun s event d h => absurd h (by simp [notifyWithin])
  | succ depth ih => exact fun s event d h => deliver_leads ih h

end Scene

end ChainSync
