import ChainSync.Proofs.Cancel.Steps

/-!
# Sound Coordinators

No handle is out of a coordinator's reach.

A shutdown reaches a handle in one of two ways. One that has been derived
before is found in the registry; one that comes later is turned away when it
is derived. That no handle falls between the two is an invariant, `Sound`:
until the shutdown the registry knows every handle, and from then on every
handle is cancelled. The registry speaks only of live handles, so the
invariant also has to say that a handle without clones has been cancelled
already, and that a handle with a reason has.

Single cancellations keep it, and more: the handle that is cancelled need not
have been under control before. That is what makes the operations go through
that first put a handle into a state it may not stay in, the drop of a last
clone and a derivation after the shutdown.

## Main definitions

* `Coordinator.Numbered`: Handles have their places as ids.
* `Coordinator.Held`: A coordinator has a handle under control.
* `Coordinator.Sound`: It has all of them.

## Theorems

* `Coordinator.Numbered.handle?`: A handle is found by its id.
* `Coordinator.sound_cancelWith`: A cancellation also repairs its handle.
* `Coordinator.Sound.derive`, `Coordinator.Sound.drop`,
  `Coordinator.Sound.runWatcher`: Operations keep coordinators sound.
-/

namespace ChainSync

namespace Coordinator

variable {c c' : Coordinator}

/-! ## Ids -/

/-- Handles are numbered from one in the order in which they were derived. -/
def Numbered (c : Coordinator) : Prop :=
  c.handles.map (·.id) = List.range' 1 c.handles.length

namespace Numbered

theorem modifyHandle (hn : c.Numbered) (id : Nat) (f : Handle → Handle)
    (hf : ∀ h, (f h).id = h.id) : (c.modifyHandle id f).Numbered := by
  have hids : (c.modifyHandle id f).handles.map (·.id) = c.handles.map (·.id) := by
    rw [Coordinator.modifyHandle, List.map_map]
    refine List.map_congr_left fun h _ => ?_
    rw [Function.comp_apply]
    split
    · exact hf h
    · rfl
  rw [Numbered, hids, hn, Coordinator.modifyHandle, List.length_map]

theorem cancelWith (hn : c.Numbered) (id : Nat) (reason : CancelReason) :
    (c.cancelWith id reason).2.Numbered := by
  unfold Coordinator.cancelWith
  split
  · exact hn
  · exact hn.modifyHandle id _ fun _ => rfl

theorem added (hn : c.Numbered) : c.added.Numbered := by
  simp only [Numbered, Coordinator.added, nextId, List.map_append, List.length_append,
    List.range'_concat, List.map_cons, List.map_nil, List.length_singleton, Nat.one_mul,
    Nat.add_comm 1]
  rw [hn]

-- The ids are pairwise different, so the first handle with an id is the only one.
theorem handle? (hn : c.Numbered) {h : Handle} (hh : h ∈ c.handles) :
    c.handle? h.id = some h := by
  have hpair : c.handles.Pairwise (fun g g' => g.id ≠ g'.id) := by
    have hnodup : (c.handles.map (·.id)).Nodup := by
      rw [hn]
      exact List.nodup_range'
    exact List.pairwise_map.mp hnodup
  unfold Coordinator.handle?
  generalize c.handles = l at hh hpair
  induction l with
  | nil => simp at hh
  | cons g l ih =>
      rcases List.pairwise_cons.mp hpair with ⟨hg, hl⟩
      rcases List.mem_cons.mp hh with rfl | hh
      · simp
      · rw [List.find?_cons_of_neg (by simpa using hg h hh)]
        exact ih hh hl

theorem handle?_nextId (hn : c.Numbered) : c.handle? c.nextId = none := by
  unfold Coordinator.handle?
  rw [List.find?_eq_none]
  intro h hh
  have hid : h.id ∈ List.range' 1 c.handles.length := by
    rw [← hn]
    exact List.mem_map_of_mem hh
  rw [List.mem_range'_1] at hid
  have hne : h.id ≠ c.nextId := by
    rw [nextId]
    omega
  simpa using hne

end Numbered

/-! ## What a cancellation leaves alone -/

@[simp] theorem fired_cancelWith (c : Coordinator) (id : Nat) (reason : CancelReason) :
    (c.cancelWith id reason).2.fired = c.fired := by
  unfold cancelWith
  split <;> rfl

@[simp] theorem registry_cancelWith (c : Coordinator) (id : Nat) (reason : CancelReason) :
    (c.cancelWith id reason).2.registry = c.registry := by
  unfold cancelWith
  split <;> rfl

@[simp] theorem watchers_cancelWith (c : Coordinator) (id : Nat) (reason : CancelReason) :
    (c.cancelWith id reason).2.watchers = c.watchers := by
  unfold cancelWith
  split <;> rfl

@[simp] theorem now_cancelWith (c : Coordinator) (id : Nat) (reason : CancelReason) :
    (c.cancelWith id reason).2.now = c.now := by
  unfold cancelWith
  split <;> rfl

@[simp] theorem length_tokens_cancelWith (c : Coordinator) (id : Nat) (reason : CancelReason) :
    (c.cancelWith id reason).2.forest.tokens.length = c.forest.tokens.length := by
  unfold cancelWith
  split
  · rfl
  · exact List.length_modify _ _ _

@[simp] theorem length_cancelWith (c : Coordinator) (id : Nat) (reason : CancelReason) :
    (c.cancelWith id reason).2.handles.length = c.handles.length := by
  unfold cancelWith
  split
  · rfl
  · exact List.length_map _

/-! ## The invariant -/

/-- A coordinator has a handle under control. -/
structure Held (c : Coordinator) (h : Handle) : Prop where
  token : h.token < c.forest.tokens.length
  reason : h.reason.isSome = true → c.isTokenCancelled h.token = true
  released : h.isLive = false → h.reason.isSome = true
  latched : c.fired = true → c.isTokenCancelled h.token = true
  registered : c.fired = false → h.id ∈ c.registry

/-- A coordinator has all its handles under control. -/
structure Sound (c : Coordinator) : Prop where
  numbered : c.Numbered
  held : ∀ id h, c.handle? id = some h → c.Held h
  watchers : ∀ w ∈ c.watchers, w.handle ≤ c.handles.length

theorem Held.grow {h : Handle} (hh : c.Held h) (hgrow : c.Grows c') (hfired : c'.fired = c.fired)
    (hregistry : ∀ id ∈ c.registry, id ∈ c'.registry) : c'.Held h where
  token := Nat.lt_of_lt_of_le hh.token hgrow.forest.length_le
  reason := fun hr => hgrow.isTokenCancelled (hh.reason hr)
  released := hh.released
  latched := fun hf => hgrow.isTokenCancelled (hh.latched (hfired ▸ hf))
  registered := fun hf => hregistry _ (hh.registered (hfired ▸ hf))

theorem Sound.grow (hs : c.Sound) (hgrow : c.Grows c') (hhandles : c'.handles = c.handles)
    (hfired : c'.fired = c.fired) (hregistry : ∀ id ∈ c.registry, id ∈ c'.registry)
    (hwatchers : ∀ w ∈ c'.watchers, w ∈ c.watchers) : c'.Sound where
  numbered := by
    rw [Numbered, hhandles]
    exact hs.numbered
  held := fun id h hh => by
    rw [handle?, hhandles] at hh
    exact (hs.held id h hh).grow hgrow hfired hregistry
  watchers := fun w hw => hhandles ▸ hs.watchers w (hwatchers w hw)

-- Nothing is asked of the handle itself but that it has a token and is known to
-- the registry: it may be one that has just been released or just been derived.
theorem sound_cancelWith {id : Nat} (reason : CancelReason) (hn : c.Numbered)
    (hothers : ∀ j h, j ≠ id → c.handle? j = some h → c.Held h)
    (hself : ∀ h, c.handle? id = some h →
      h.token < c.forest.tokens.length ∧ (c.fired = false → id ∈ c.registry))
    (hwatchers : ∀ w ∈ c.watchers, w.handle ≤ c.handles.length) :
    (c.cancelWith id reason).2.Sound := by
  have hgrow := c.grows_cancelWith id reason
  refine ⟨hn.cancelWith id reason, fun j h' hh' => ?_, by simpa using hwatchers⟩
  rw [handle?_cancelWith] at hh'
  rcases Option.map_eq_some_iff.mp hh' with ⟨h, hh, heq⟩
  by_cases hj : j = id
  · -- The handle itself: it has a reason now and its token is cancelled.
    rw [if_pos hj] at heq
    rw [hj] at hh
    rcases hself h hh with ⟨htoken, hregistered⟩
    have hcancelled := isTokenCancelled_cancelWith reason hh htoken
    rw [← heq]
    refine ⟨Nat.lt_of_lt_of_le htoken hgrow.forest.length_le, fun _ => hcancelled, fun _ => ?_,
      fun _ => hcancelled, fun hf => ?_⟩
    · cases hr : h.reason <;> rfl
    · change h.id ∈ _
      rw [registry_cancelWith, id_of_handle? hh]
      rw [fired_cancelWith] at hf
      exact hregistered hf
  · -- Any other handle is as before, and nothing has been taken back.
    rw [if_neg hj] at heq
    rw [← heq]
    exact (hothers j h hj hh).grow hgrow (fired_cancelWith ..)
      fun _ hid => by rwa [registry_cancelWith]

theorem Sound.cancelWith (hs : c.Sound) (id : Nat) (reason : CancelReason) :
    (c.cancelWith id reason).2.Sound := by
  refine sound_cancelWith reason hs.numbered (fun j h _ hh => hs.held j h hh) (fun h hh => ?_)
    hs.watchers
  have hheld := hs.held id h hh
  exact ⟨hheld.token, fun hf => id_of_handle? hh ▸ hheld.registered hf⟩

theorem Sound.enrolled (hs : c.Sound) (hf : c.fired = false) : c.enrolled.Sound := by
  have hgrow : c.Grows c.enrolled := c.grows_added.trans (.of_eq rfl rfl fun h => h)
  refine ⟨hs.numbered.added, fun j h hh => ?_, fun w hw => ?_⟩
  · change c.added.handle? j = some h at hh
    rw [handle?_added] at hh
    cases hold : c.handle? j with
    | some g =>
        rw [hold, Option.some_or] at hh
        rw [← Option.some.inj hh]
        exact (hs.held j g hold).grow hgrow rfl fun _ hid => List.mem_append_left _ hid
    | none =>
        rw [hold, Option.none_or] at hh
        -- The new handle is alive and has no reason, so only the registry matters.
        rcases Option.ite_some_none_eq_some.mp hh with ⟨_, heq⟩
        rw [← heq]
        refine ⟨?_, by simp, by simp [Handle.isLive], fun hf' => ?_, fun _ => ?_⟩
        · simp [Coordinator.enrolled, added, Forest.make]
        · exact absurd (hf'.symm.trans hf) (by decide)
        · exact List.mem_append_right _ (List.mem_singleton.mpr rfl)
  · have hle := hs.watchers w hw
    simp only [Coordinator.enrolled, added, List.length_append, List.length_singleton]
    omega

theorem Sound.derive (hs : c.Sound) (parent : Nat) (timeout : Option Nat) :
    (c.derive parent timeout).2.Sound := by
  rw [derive_eq]
  cases hf : c.fired with
  | true =>
      -- The new handle is not known to the registry, but cancelled in the same step.
      simp only [if_true]
      refine sound_cancelWith _ hs.numbered.added (fun j h hj hh => ?_) (fun h hh => ?_)
        fun w hw => ?_
      · rw [handle?_added, if_neg (Ne.symm hj), Option.or_none] at hh
        exact (hs.held j h hh).grow c.grows_added rfl fun _ hid => hid
      · rw [handle?_added, hs.numbered.handle?_nextId, Option.none_or, if_pos rfl] at hh
        rw [← Option.some.inj hh]
        refine ⟨by simp [added, Forest.make], fun hf' => ?_⟩
        exact absurd (hf.symm.trans hf') (by decide)
      · have hle := hs.watchers w hw
        simp only [added, List.length_append, List.length_singleton]
        omega
  | false =>
      have he := hs.enrolled hf
      simp only [Bool.false_eq_true, if_false]
      split
      · exact he.cancelWith _ _
      · refine ⟨he.numbered, fun j h hh => ?_, fun w hw => ?_⟩
        · exact (he.held j h hh).grow (.of_eq rfl rfl fun h => h) rfl fun _ hid => hid
        · rcases List.mem_append.mp hw with hw | hw
          · exact he.watchers w hw
          · rw [List.mem_singleton.mp hw]
            simp [Coordinator.enrolled, added, nextId]

/-- A handle stays under control with one clone more or less, as long as it is
    not its last one. -/
theorem Held.clones {h : Handle} (hh : c.Held h) (n : Nat) (hn : 0 < n ∨ h.reason.isSome = true) :
    c.Held { h with clones := n } where
  token := hh.token
  reason := hh.reason
  released := fun hlive => by
    rcases hn with hn | hn
    · simp [Handle.isLive] at hlive
      omega
    · exact hn
  latched := hh.latched
  registered := hh.registered

theorem Sound.clone (hs : c.Sound) (id : Nat) : (c.clone id).Sound := by
  refine ⟨hs.numbered.modifyHandle id _ fun _ => rfl, fun j h' hh' => ?_, fun w hw => ?_⟩
  · rw [Coordinator.clone, handle?_modifyHandle c id j
      (fun h => { h with clones := h.clones + 1 }) fun _ => rfl] at hh'
    rcases Option.map_eq_some_iff.mp hh' with ⟨h, hh, heq⟩
    have hheld : c.Held h' := by
      rw [← heq]
      split
      · exact (hs.held j h hh).clones _ (.inl (Nat.succ_pos _))
      · exact hs.held j h hh
    exact hheld.grow (c.grows_apply (.clone id)) rfl fun _ hid => hid
  · simp only [Coordinator.clone, Coordinator.modifyHandle, List.length_map]
    exact hs.watchers w hw

theorem Sound.drop (hs : c.Sound) (id : Nat) : (c.drop id).Sound := by
  have hgrow : c.Grows (c.dropped id) := c.grows_dropped id
  have hn : (c.dropped id).Numbered := hs.numbered.modifyHandle id _ fun _ => rfl
  have hw : ∀ w ∈ (c.dropped id).watchers, w.handle ≤ (c.dropped id).handles.length := by
    intro w hw
    simp only [dropped, Coordinator.modifyHandle, List.length_map]
    exact hs.watchers w hw
  -- Only the clones of the one handle change.
  have hfind (j : Nat) : (c.dropped id).handle? j =
      (c.handle? j).map fun h => if j = id then { h with clones := h.clones - 1 } else h :=
    handle?_modifyHandle c id j _ fun _ => rfl
  have hothers : ∀ j h, j ≠ id → (c.dropped id).handle? j = some h → (c.dropped id).Held h := by
    intro j h hj hh
    simp only [hfind, if_neg hj, Option.map_id'] at hh
    exact (hs.held j h hh).grow hgrow rfl fun _ hid => hid
  rw [drop_eq]
  split
  · -- The last clone is gone: the handle is not released before it is cancelled.
    refine sound_cancelWith _ hn hothers (fun h hh => ?_) hw
    rw [hfind] at hh
    rcases Option.map_eq_some_iff.mp hh with ⟨g, hg, heq⟩
    have hheld := hs.held id g hg
    rw [if_pos rfl] at heq
    rw [← heq]
    exact ⟨hheld.token, fun hf => id_of_handle? hg ▸ hheld.registered hf⟩
  · next hlast =>
    refine ⟨hn, fun j h hh => ?_, hw⟩
    by_cases hj : j = id
    · -- The clone that is given up is not the last one.
      rw [hj] at hh
      have hclones : 0 < h.clones := by
        rw [hh, Option.any_some, decide_eq_true_eq] at hlast
        omega
      rw [hfind] at hh
      rcases Option.map_eq_some_iff.mp hh with ⟨g, hg, heq⟩
      rw [if_pos rfl] at heq
      rw [← heq] at hclones ⊢
      exact ((hs.held id g hg).clones _ (.inl hclones)).grow hgrow rfl fun _ hid => hid
    · exact hothers j h hj hh

theorem Sound.arm (hs : c.Sound) (id : Nat) : (c.arm id).Sound where
  numbered := hs.numbered
  held := fun j h hh => (hs.held j h hh).grow (.of_eq rfl rfl fun hf => hf) rfl fun _ hid => hid
  watchers := fun w hw => by
    have hhandle : w.handle ∈ (c.arm id).watchers.map (·.handle) := List.mem_map_of_mem hw
    rw [handles_arm] at hhandle
    rcases List.mem_map.mp hhandle with ⟨w', hw', heq⟩
    exact heq ▸ hs.watchers w' hw'

theorem Sound.runWatcher (hs : c.Sound) (id : Nat) : (c.runWatcher id).2.Sound := by
  have hretired : (c.retired id).Sound := hs.grow (.of_eq rfl rfl fun h => h) rfl rfl
    (fun _ hid => hid) fun w hw => (List.mem_filter.mp hw).1
  rcases c.runWatcher_cases id with heq | heq | ⟨reason, heq⟩
  · rw [heq]
    exact hs.arm id
  · rwa [heq]
  · rw [heq]
    exact hretired.cancelWith id reason

end Coordinator

end ChainSync
