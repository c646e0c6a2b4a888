import ChainSync.Proofs.Cancel.Sound

/-!
# Nobody Escapes a Shutdown

A shutdown cancels every operation, whenever it began.

A shutdown is a chain of single cancellations. In the middle of the chain the
latch is closed while handles are still alive, so the coordinator is not sound
there, and the chain is described as a whole: `handle?_cancelAll` says what it
does to every handle, `below_of_cancelAll` which tokens it reaches. At its end
the coordinator is sound again: the handles that were alive have been
cancelled by the chain, and the others had been before.

Everything else follows from soundness and from what no operation undoes. A
handle that is there after the shutdown is cancelled because the coordinator
is sound, whether it was derived before or after; it has the shutdown as its
reason because the chain gave it that reason and no operation takes one away.

## Main definitions

* `Coordinator.cancelAll`, `Coordinator.shutDown`: The chain.

## Theorems

* `Coordinator.Sound.shutDown`: A shutdown reaches every handle.
* `Coordinator.sound_apply`, `Coordinator.sound_run`: Runs keep coordinators
  sound.
* `Coordinator.fired_run`: Only requests close the latch.
* `Coordinator.shutdown_reaches_every_handle`: One shutdown, and its effect on
  every handle of a run.
-/

namespace ChainSync

namespace Coordinator

variable {c : Coordinator}

/-! ## A shutdown as a whole -/

/-- The coordinator after handles have been cancelled one after the other. -/
def cancelAll (c : Coordinator) (ids : List Nat) (reason : CancelReason) : Coordinator :=
  ids.foldl (fun c id => (c.cancelWith id reason).2) c

theorem cancelAll_cons (c : Coordinator) (id : Nat) (ids : List Nat) (reason : CancelReason) :
    c.cancelAll (id :: ids) reason = ((c.cancelWith id reason).2).cancelAll ids reason := rfl

/-- Every handle of the list has a reason afterwards, the others are left alone. -/
theorem handle?_cancelAll (c : Coordinator) (ids : List Nat) (reason : CancelReason) (j : Nat) :
    (c.cancelAll ids reason).handle? j = (c.handle? j).map fun h =>
      if j ∈ ids then { h with reason := h.reason.or (some reason) } else h := by
  induction ids generalizing c with
  | nil => simp [cancelAll]
  | cons id ids ih =>
      rw [cancelAll_cons, ih, handle?_cancelWith, Option.map_map]
      congr 1
      funext h
      -- A handle that is named twice keeps the reason of the first time.
      by_cases hj : j = id
      · by_cases hmem : j ∈ ids
        · cases hr : h.reason <;> simp [hj, hr]
        · simp [hj ▸ hmem, hj]
      · simp [hj]

/-- The tokens of all handles of the list count as cancelled afterwards. -/
theorem isTokenCancelled_cancelAll {ids : List Nat} {id : Nat} {h : Handle}
    (reason : CancelReason) (hid : id ∈ ids) (hh : c.handle? id = some h)
    (ht : h.token < c.forest.tokens.length) :
    (c.cancelAll ids reason).isTokenCancelled h.token = true := by
  induction ids generalizing c h with
  | nil => simp at hid
  | cons first ids ih =>
      rw [cancelAll_cons]
      -- Cancelled by the first step, it stays so; otherwise the rest does it.
      rcases List.mem_cons.mp hid with rfl | hid
      · exact (grows_foldl_cancelWith _ ids reason).isTokenCancelled
          (isTokenCancelled_cancelWith reason hh ht)
      · rcases (c.grows_cancelWith first reason).handle id h hh with ⟨h', hh', htoken, _⟩
        rw [← htoken]
        refine ih hid hh' ?_
        rw [htoken]
        exact Nat.lt_of_lt_of_le ht (c.grows_cancelWith first reason).forest.length_le

/-- Only the tokens of these handles and those below them are reached. -/
theorem below_of_cancelAll {ids : List Nat} {reason : CancelReason} {t : Nat}
    (h : (c.cancelAll ids reason).isTokenCancelled t = true) (hnot : c.isTokenCancelled t = false) :
    ∃ id ∈ ids, ∃ handle, c.handle? id = some handle ∧ c.forest.Below handle.token t := by
  induction ids generalizing c with
  | nil =>
      rw [show c.cancelAll [] reason = c from rfl, hnot] at h
      exact absurd h (by decide)
  | cons first ids ih =>
      rw [cancelAll_cons] at h
      cases hmid : (c.cancelWith first reason).2.isTokenCancelled t with
      | true =>
          rcases below_of_cancelWith hmid hnot with ⟨handle, hh, hbelow⟩
          exact ⟨first, List.mem_cons_self, handle, hh, hbelow⟩
      | false =>
          rcases ih h hmid with ⟨id, hid, handle, hh, hbelow⟩
          -- The handle and the chain below its token are older than the first step.
          rw [handle?_cancelWith] at hh
          rcases Option.map_eq_some_iff.mp hh with ⟨old, hold, heq⟩
          have htoken : handle.token = old.token := by
            rw [← heq]
            split <;> rfl
          exact ⟨id, List.mem_cons_of_mem _ hid, old, hold,
            htoken ▸ below_of_below_cancelWith hbelow⟩

/-- The coordinator after a shutdown. -/
def shutDown (c : Coordinator) : Coordinator :=
  ({ c with fired := true, registry := [] } : Coordinator).cancelAll c.targets .shutdown

theorem fire_eq (c : Coordinator) :
    c.fire = if c.fired then (false, c) else (true, c.shutDown) := rfl

@[simp] theorem fired_cancelAll (c : Coordinator) (ids : List Nat) (reason : CancelReason) :
    (c.cancelAll ids reason).fired = c.fired := by
  induction ids generalizing c with
  | nil => rfl
  | cons id ids ih => rw [cancelAll_cons, ih, fired_cancelWith]

@[simp] theorem watchers_cancelAll (c : Coordinator) (ids : List Nat) (reason : CancelReason) :
    (c.cancelAll ids reason).watchers = c.watchers := by
  induction ids generalizing c with
  | nil => rfl
  | cons id ids ih => rw [cancelAll_cons, ih, watchers_cancelWith]

@[simp] theorem length_cancelAll (c : Coordinator) (ids : List Nat) (reason : CancelReason) :
    (c.cancelAll ids reason).handles.length = c.handles.length := by
  induction ids generalizing c with
  | nil => rfl
  | cons id ids ih => rw [cancelAll_cons, ih, length_cancelWith]

theorem Numbered.cancelAll (hn : c.Numbered) (ids : List Nat) (reason : CancelReason) :
    (c.cancelAll ids reason).Numbered := by
  induction ids generalizing c with
  | nil => exact hn
  | cons id ids ih => exact ih (hn.cancelWith id reason)

theorem grows_shutDown (c : Coordinator) : c.Grows c.shutDown := by
  have hstart : c.Grows { c with fired := true, registry := [] } := .of_eq rfl rfl fun _ => rfl
  exact hstart.trans (grows_foldl_cancelWith _ _ _)

theorem handle?_shutDown (c : Coordinator) (j : Nat) :
    c.shutDown.handle? j = (c.handle? j).map fun h =>
      if j ∈ c.targets then { h with reason := h.reason.or (some .shutdown) } else h :=
  handle?_cancelAll _ _ _ j

-- Until the shutdown the registry knows every handle, so only being alive matters.
theorem Sound.mem_targets (hs : c.Sound) (hf : c.fired = false) {id : Nat} {h : Handle}
    (hh : c.handle? id = some h) : id ∈ c.targets ↔ h.isLive = true := by
  have hregistered : id ∈ c.registry := id_of_handle? hh ▸ (hs.held id h hh).registered hf
  simp [targets, isLive, hh, hregistered]

/-- A shutdown reaches every handle: the live ones are cancelled, and the
    others had been before. -/
theorem Sound.shutDown (hs : c.Sound) (hf : c.fired = false) : c.shutDown.Sound := by
  have hgrow := c.grows_shutDown
  have hn : c.shutDown.Numbered :=
    Numbered.cancelAll (c := { c with fired := true, registry := [] }) hs.numbered _ _
  refine ⟨hn, fun j h' hh' => ?_, fun w hw => ?_⟩
  · rw [handle?_shutDown] at hh'
    rcases Option.map_eq_some_iff.mp hh' with ⟨h, hh, heq⟩
    have hheld := hs.held j h hh
    have hfired : c.shutDown.fired = true := fired_cancelAll _ _ _
    -- A handle that is out of use has been cancelled already.
    have hcancelled : c.shutDown.isTokenCancelled h.token = true := by
      cases hlive : h.isLive with
      | true =>
          exact isTokenCancelled_cancelAll (c := { c with fired := true, registry := [] }) .shutdown
            ((hs.mem_targets hf hh).mpr hlive) hh hheld.token
      | false => exact hgrow.isTokenCancelled (hheld.reason (hheld.released hlive))
    rw [← heq]
    have htoken : h.token < c.shutDown.forest.tokens.length :=
      Nat.lt_of_lt_of_le hheld.token hgrow.forest.length_le
    split
    · refine ⟨htoken, fun _ => hcancelled, fun _ => ?_, fun _ => hcancelled, fun hf' => ?_⟩
      · cases hr : h.reason <;> rfl
      · exact absurd (hfired.symm.trans hf') (by decide)
    · refine ⟨htoken, fun _ => hcancelled, hheld.released, fun _ => hcancelled, fun hf' => ?_⟩
      exact absurd (hfired.symm.trans hf') (by decide)
  · rw [Coordinator.shutDown, watchers_cancelAll] at hw
    rw [Coordinator.shutDown, length_cancelAll]
    exact hs.watchers w hw

theorem Sound.fire (hs : c.Sound) : c.fire.2.Sound := by
  rw [fire_eq]
  cases hf : c.fired with
  | true => exact hs
  | false => exact hs.shutDown hf

/-! ## Runs -/

theorem sound_apply (hs : c.Sound) (op : Op) : (c.apply op).Sound := by
  have hgrow := c.grows_apply op
  cases op with
  | makeToken parent => exact hs.grow hgrow rfl rfl (fun _ hid => hid) fun _ hw => hw
  | derive parent timeout => exact hs.derive parent timeout
  | clone id => exact hs.clone id
  | drop id => exact hs.drop id
  | cancel id => exact hs.cancelWith id _
  | cancelToken t => exact hs.grow hgrow rfl rfl (fun _ hid => hid) fun _ hw => hw
  | fire => exact hs.fire
  | signal =>
      have hcount : Sound { c with signals := c.signals + 1 } :=
        hs.grow (.of_eq rfl rfl fun h => h) rfl rfl (fun _ hid => hid) fun _ hw => hw
      exact hcount.fire
  | moveTo t => exact hs.grow hgrow rfl rfl (fun _ hid => hid) fun _ hw => hw
  | reschedule woken => exact hs.grow hgrow rfl rfl (fun _ hid => hid) fun _ hw => hw
  | turn id => exact hs.runWatcher id

theorem sound_run (hs : c.Sound) (ops : List Op) : (c.run ops).Sound := by
  induction ops generalizing c with
  | nil => exact hs
  | cons op ops ih => exact ih (sound_apply hs op)

theorem sound_empty : Sound {} := by
  refine ⟨rfl, fun id h hh => ?_, fun w hw => ?_⟩
  · exact absurd hh (by simp [handle?])
  · exact absurd hw (by simp)

/-- The latch is closed by a request to shut down, and by nothing else. -/
theorem fired_apply (c : Coordinator) (op : Op) :
    (c.apply op).fired = (c.fired || op.isTrigger) := by
  have hfire (c : Coordinator) : c.fire.2.fired = true := by
    rw [fire_eq]
    cases hf : c.fired with
    | true => exact hf
    | false => exact fired_cancelAll _ _ _
  cases op with
  | derive parent timeout =>
      simp only [apply, derive_eq, Op.isTrigger, Bool.or_false]
      split
      · exact fired_cancelWith _ _ _
      · split
        · exact fired_cancelWith _ _ _
        · rfl
  | drop id =>
      simp only [apply, drop_eq, Op.isTrigger, Bool.or_false]
      split
      · exact fired_cancelWith _ _ _
      · rfl
  | cancel id => simp [apply, cancel, Op.isTrigger]
  | fire => simp [apply, hfire, Op.isTrigger]
  | signal => simp [apply, onSignal, hfire, Op.isTrigger]
  | turn id =>
      simp only [apply, Op.isTrigger, Bool.or_false]
      rcases c.runWatcher_cases id with heq | heq | ⟨reason, heq⟩
      · rw [heq]
        rfl
      · rw [heq]
        rfl
      · rw [heq]
        exact fired_cancelWith _ _ _
  | _ => simp [apply, makeToken, clone, modifyHandle, cancelToken, moveTo, Op.isTrigger]

theorem fired_run (c : Coordinator) (ops : List Op) :
    (c.run ops).fired = (c.fired || ops.any Op.isTrigger) := by
  induction ops generalizing c with
  | nil => simp
  | cons op ops ih => rw [run_cons, ih, fired_apply, List.any_cons, Bool.or_assoc]

theorem apply_trigger (hf : c.fired = false) {op : Op} (hop : op.isTrigger = true) :
    ∃ signals, c.apply op = ({ c with signals } : Coordinator).shutDown := by
  cases op with
  | fire =>
      refine ⟨c.signals, ?_⟩
      rw [apply, fire_eq, hf]
      rfl
  | signal => exact ⟨c.signals + 1, by simp [apply, onSignal, fire_eq, hf]⟩
  | _ => simp [Op.isTrigger] at hop

/-- A handle that is derived after the shutdown is cancelled at once, and
    nobody watches for it. -/
theorem Sound.derive_late (hs : c.Sound) (hf : c.fired = true) (parent : Nat)
    (timeout : Option Nat) :
    let (id, c') := c.derive parent timeout
    c'.state? id = some ⟨id, true, some .shutdown⟩ ∧ c'.watchers = c.watchers ∧
      ∀ w ∈ c'.watchers, w.handle ≠ id := by
  have hnew : c.added.handle? c.nextId =
      some { id := c.nextId, token := c.forest.tokens.length } := by
    rw [handle?_added, hs.numbered.handle?_nextId, Option.none_or, if_pos rfl]
  have hcancelled := isTokenCancelled_cancelWith .shutdown hnew (by simp [added, Forest.make])
  simp only [derive_eq, hf, if_true, watchers_cancelWith]
  refine ⟨?_, rfl, fun w hw => ?_⟩
  · simp only [state?, handle?_cancelWith, hnew, Option.map_some, if_true, hcancelled]
    rfl
  · have hle := hs.watchers w hw
    rw [nextId]
    omega

/-- One request of a run shuts down, and that reaches every handle of the run.
    The first request is the one that is answered with success; later ones
    only count signals. From the first one on every handle derived so far is
    cancelled, those that were in use without a reason of their own for the
    shutdown, and so is every handle derived from then on. Apart from the
    handles in use, only what is below their tokens is cancelled. -/
theorem shutdown_reaches_every_handle (before : List Op) :
    let c := run {} before
    (c.fire.1 = true ↔ ∀ op ∈ before, op.isTrigger = false) ∧
    (c.fire.1 = false → c.fire.2 = c ∧ c.onSignal = { c with signals := c.signals + 1 }) ∧
    (c.fire.1 = true → ∀ trigger after, trigger.isTrigger = true →
      let d := c.run (trigger :: after)
      (∀ h ∈ d.handles, d.isCancelled h.id = true) ∧
      (∀ h ∈ c.handles, h.isLive = true → h.reason = none →
        d.state? h.id = some ⟨h.id, true, some .shutdown⟩) ∧
      (∀ parent timeout,
        let (id, d') := d.derive parent timeout
        d'.state? id = some ⟨id, true, some .shutdown⟩ ∧ d'.watchers = d.watchers ∧
          ∀ w ∈ d'.watchers, w.handle ≠ id) ∧
      ∀ t, (c.apply trigger).isTokenCancelled t = true → c.isTokenCancelled t = false →
        ∃ h ∈ c.handles, h.isLive = true ∧ c.forest.Below h.token t) := by
  intro c
  have hs : c.Sound := sound_run sound_empty before
  have hfire : c.fire.1 = !c.fired := by
    rw [fire_eq]
    cases c.fired <;> rfl
  have hfired : c.fired = before.any Op.isTrigger := fired_run {} before
  rw [hfire]
  refine ⟨?_, fun hlate => ?_, fun hfirst trigger after htrigger => ?_⟩
  · rw [hfired, Bool.not_eq_true', List.any_eq_false]
    simp only [Bool.not_eq_true]
  · have hf : c.fired = true := by simpa using hlate
    exact ⟨by simp [fire_eq, hf], by simp [onSignal, fire_eq, hf]⟩
  have hf : c.fired = false := by simpa using hfirst
  intro d
  have hsound : d.Sound := sound_run hs (trigger :: after)
  have hclosed : d.fired = true := by simp [d, fired_run, fired_apply, htrigger]
  have hcancelled : ∀ h ∈ d.handles, d.isCancelled h.id = true := by
    intro h hh
    have hfind := hsound.numbered.handle? hh
    simpa [isCancelled, hfind] using (hsound.held h.id h hfind).latched hclosed
  rcases apply_trigger hf htrigger with ⟨signals, hdown⟩
  refine ⟨hcancelled, fun h hh hlive hreason => ?_, hsound.derive_late hclosed, fun t ht hnot => ?_⟩
  · -- The shutdown gives the handle its reason, and nothing takes it away.
    have hfind := hs.numbered.handle? hh
    have hmem : h.id ∈ ({ c with signals } : Coordinator).targets :=
      (hs.mem_targets hf hfind).mpr hlive
    have hgiven : (c.apply trigger).handle? h.id = some { h with reason := some .shutdown } := by
      have hsame : ({ c with signals } : Coordinator).handle? h.id = some h := hfind
      rw [hdown, handle?_shutDown, hsame, Option.map_some, if_pos hmem, hreason, Option.none_or]
    rcases (grows_run (c.apply trigger) after).handle _ _ hgiven with ⟨h', hh', _, hkept⟩
    have hlast : d.handle? h.id = some h' := hh'
    have hcancelled' := (hsound.held h.id h' hlast).latched hclosed
    simp only [state?, hlast, Option.map_some, hcancelled', hkept .shutdown rfl]
  · -- The chain starts from tokens and handles that are those of `c`.
    rw [hdown] at ht
    rcases below_of_cancelAll ht hnot with ⟨id, hid, h, hh, hbelow⟩
    have hfind : c.handle? id = some h := hh
    exact ⟨h, List.mem_of_find?_eq_some hfind, (hs.mem_targets hf hfind).mp hid, hbelow⟩

end Coordinator

end ChainSync
