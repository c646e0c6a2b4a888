import ChainSync.Cancel.Settle
import ChainSync.Proofs.Cancel.Forest

/-!
# Coordinator Steps

Runs of a coordinator, operation by operation, and what no operation undoes.

Every operation of a coordinator is one atomic step, and so is one turn of a
watcher. The scheduler decides which watchers run and when; here it may put
any list of them among the woken and run any of them at any time, so whatever
a real one does is covered.

The operations are made of few parts: a token is made or cancelled, a handle
is changed, a handle is added. `handle?_cancelWith` and its like say what each
part does to every handle, as equations. `Grows` is what all of them have in
common: a handle keeps its token and its reason, and what is cancelled stays
so. It holds of every coordinator, whatever its past.

## Main definitions

* `Coordinator.Op`, `Coordinator.apply`, `Coordinator.run`: Operations and runs.
* `Coordinator.Grows`: A coordinator that comes later.

## Theorems

* `Coordinator.handle?_cancelWith`: What a cancellation does to every handle.
* `Coordinator.below_of_cancelWith`: The tokens it reaches.
* `Coordinator.grows_apply`, `Coordinator.grows_run`: Runs only add.
* `Coordinator.settleWithin_eq_run`: Settling is a run.
-/

namespace ChainSync

namespace Coordinator

/-- What can happen to a coordinator. -/
inductive Op where
  | makeToken (parent : Option Nat)
  | derive (parent : Nat) (timeout : Option Nat)
  | clone (id : Nat)
  | drop (id : Nat)
  | cancel (id : Nat)
  | cancelToken (t : Nat)
  | fire
  | signal
  | moveTo (t : Nat)
  /-- The scheduler changes its mind on who is to run. -/
  | reschedule (woken : List Nat)
  /-- The watcher of a handle runs. -/
  | turn (id : Nat)

/-- Whether an operation asks for a shutdown. -/
def Op.isTrigger : Op → Bool
  | .fire => true
  | .signal => true
  | _ => false

/-- The coordinator after an operation. -/
def apply (c : Coordinator) : Op → Coordinator
  | .makeToken parent => (c.makeToken parent).2
  | .derive parent timeout => (c.derive parent timeout).2
  | .clone id => c.clone id
  | .drop id => c.drop id
  | .cancel id => (c.cancel id).2
  | .cancelToken t => c.cancelToken t
  | .fire => c.fire.2
  | .signal => c.onSignal
  | .moveTo t => c.moveTo t
  | .reschedule woken => { c with woken }
  | .turn id => (c.runWatcher id).2

/-- The coordinator after operations, one after the other. -/
def run (c : Coordinator) (ops : List Op) : Coordinator := ops.foldl apply c

@[simp] theorem run_nil (c : Coordinator) : c.run [] = c := rfl

@[simp] theorem run_cons (c : Coordinator) (op : Op) (ops : List Op) :
    c.run (op :: ops) = (c.apply op).run ops := rfl

/-! ## The parts of operations -/

theorem id_of_handle? {c : Coordinator} {id : Nat} {h : Handle} (hh : c.handle? id = some h) :
    h.id = id := by
  have hid := List.find?_some hh
  simpa using hid

theorem handle?_modifyHandle (c : Coordinator) (id j : Nat) (f : Handle → Handle)
    (hf : ∀ h, (f h).id = h.id) :
    (c.modifyHandle id f).handle? j = (c.handle? j).map fun h => if j = id then f h else h := by
  -- Whether a handle is the one that is looked for does not change.
  have hfind : ((fun h : Handle => decide (h.id = j)) ∘ fun h => if h.id = id then f h else h) =
      fun h => decide (h.id = j) := by
    funext h
    simp only [Function.comp_apply]
    split
    · rw [hf]
    · rfl
  rw [handle?, modifyHandle, List.find?_map, hfind]
  change (c.handle? j).map _ = _
  cases hh : c.handle? j with
  | none => rfl
  | some h => rw [Option.map_some, Option.map_some, id_of_handle? hh]

@[simp] theorem handle?_cancelToken (c : Coordinator) (t j : Nat) :
    (c.cancelToken t).handle? j = c.handle? j := rfl

/-- What a cancellation does to every handle: the one that is cancelled has a
    reason from then on. -/
theorem handle?_cancelWith (c : Coordinator) (id j : Nat) (reason : CancelReason) :
    (c.cancelWith id reason).2.handle? j = (c.handle? j).map fun h =>
      if j = id then { h with reason := h.reason.or (some reason) } else h := by
  cases hh : c.handle? id with
  | none =>
      simp only [cancelWith, hh]
      by_cases hj : j = id
      · rw [hj, hh]
        rfl
      · simp only [if_neg hj, Option.map_id']
  | some h =>
      simp only [cancelWith, hh, handle?_cancelToken]
      exact c.handle?_modifyHandle id j _ fun _ => rfl

theorem isTokenCancelled_cancelWith {c : Coordinator} {id : Nat} {h : Handle}
    (reason : CancelReason) (hh : c.handle? id = some h) (ht : h.token < c.forest.tokens.length) :
    (c.cancelWith id reason).2.isTokenCancelled h.token = true := by
  simp only [cancelWith, hh]
  exact c.forest.isCancelled_cancel_self ht

theorem below_of_cancelWith {c : Coordinator} {id t : Nat} {reason : CancelReason}
    (h : (c.cancelWith id reason).2.isTokenCancelled t = true)
    (hnot : c.isTokenCancelled t = false) :
    ∃ handle, c.handle? id = some handle ∧ c.forest.Below handle.token t := by
  cases hh : c.handle? id with
  | none =>
      simp only [cancelWith, hh, hnot, Bool.false_eq_true] at h
  | some handle =>
      simp only [cancelWith, hh] at h
      exact ⟨handle, rfl, c.forest.below_of_isCancelled_cancel h hnot⟩

theorem below_of_below_cancelWith {c : Coordinator} {id top t : Nat} {reason : CancelReason}
    (h : (c.cancelWith id reason).2.forest.Below top t) : c.forest.Below top t := by
  cases hh : c.handle? id with
  | none =>
      simp only [cancelWith, hh] at h
      exact h
  | some handle =>
      simp only [cancelWith, hh] at h
      exact h.of_cancel

/-- The coordinator with one more handle, which has a token of its own. -/
def added (c : Coordinator) : Coordinator :=
  { c with
    forest := (c.forest.make none).2
    handles := c.handles ++ [({ id := c.nextId, token := c.forest.tokens.length } : Handle)] }

/-- The coordinator with one more handle, which a shutdown will cancel. -/
def enrolled (c : Coordinator) : Coordinator :=
  { c.added with registry := c.registry ++ [c.nextId] }

theorem handle?_added (c : Coordinator) (j : Nat) : c.added.handle? j = (c.handle? j).or
    (if c.nextId = j then some { id := c.nextId, token := c.forest.tokens.length } else none) := by
  rw [handle?, added, List.find?_append, List.find?_singleton]
  by_cases hj : c.nextId = j
  · rw [if_pos hj, if_pos (decide_eq_true hj)]
    rfl
  · rw [if_neg hj, if_neg (by simpa using hj)]
    rfl

/-- The three ways in which a handle is derived. -/
theorem derive_eq (c : Coordinator) (parent : Nat) (timeout : Option Nat) :
    c.derive parent timeout = (c.nextId,
      if c.fired then (c.added.cancelWith c.nextId .shutdown).2
      else if c.enrolled.isTokenCancelled parent then
        (c.enrolled.cancelWith c.nextId .parentCancelled).2
      else { c.enrolled with
        watchers := c.watchers ++ [{
          handle := c.nextId, own := c.forest.tokens.length, parent, timeout }]
        woken := c.woken ++ [c.nextId] }) := by
  -- The names for the states in between only have to be read out.
  change (if c.fired then _ else if c.enrolled.isTokenCancelled parent then _ else _) = _
  split
  · rfl
  · split <;> rfl

/-- The coordinator with one clone of a handle less. -/
def dropped (c : Coordinator) (id : Nat) : Coordinator :=
  c.modifyHandle id fun h => { h with clones := h.clones - 1 }

theorem drop_eq (c : Coordinator) (id : Nat) : c.drop id =
    if ((c.dropped id).handle? id).any (·.clones = 0) then
      ((c.dropped id).cancelWith id .released).2
    else c.dropped id := by
  rw [dropped]
  cases hh : (c.modifyHandle id fun h => { h with clones := h.clones - 1 }).handle? id with
  | none => simp [drop, hh]
  | some h => simp [drop, hh]

/-- The coordinator without the watcher of a handle. -/
def retired (c : Coordinator) (id : Nat) : Coordinator :=
  { c with watchers := c.watchers.filter (·.handle ≠ id) }

/-- The watchers with the timer of one of them set belong to the same handles. -/
theorem handles_arm (c : Coordinator) (id : Nat) :
    (c.arm id).watchers.map (·.handle) = c.watchers.map (·.handle) := by
  rw [arm, List.map_map]
  refine List.map_congr_left fun w _ => ?_
  rw [Function.comp_apply]
  split <;> rfl

/-- A watcher with its timer set is one from before, and only the timer of the one is new. -/
theorem mem_arm {c : Coordinator} {id : Nat} {w : Watcher} :
    w ∈ (c.arm id).watchers ↔
      ∃ w' ∈ c.watchers, w = if w'.handle = id then c.armed w' else w' := by
  rw [arm, List.mem_map]
  exact exists_congr fun w' => and_congr_right fun _ => eq_comm

/-- The timer of a watcher makes no difference to the others. -/
theorem retired_arm (c : Coordinator) (id : Nat) : (c.arm id).retired id = c.retired id := by
  rw [retired, retired, arm, List.filter_map]
  have hsame : ((fun w : Watcher => decide (w.handle ≠ id)) ∘
      fun w => if w.handle = id then c.armed w else w) = fun w => decide (w.handle ≠ id) := by
    funext w
    rw [Function.comp_apply]
    split <;> rfl
  rw [hsame]
  congr 1
  refine (List.map_congr_left fun w hw => ?_).trans (List.map_id' _)
  rw [if_neg (by simpa using (List.mem_filter.mp hw).2)]

/-- The three ways in which it ends that a watcher looks around, and why. -/
theorem look_cases (c : Coordinator) (id : Nat) :
    ((c.look id).2 = c ∧ ∀ w, c.watchers.find? (·.handle = id) = some w → c.causeFor w = none) ∨
    (∃ w, c.watchers.find? (·.handle = id) = some w ∧ c.causeFor w = some .own ∧
      (c.look id).2 = c.retired id) ∨
    ∃ w reason, c.watchers.find? (·.handle = id) = some w ∧
      c.causeFor w = some (.cancel reason) ∧
      (c.look id).2 = ((c.retired id).cancelWith id reason).2 := by
  unfold look
  cases hw : c.watchers.find? (·.handle = id) with
  | none => exact .inl ⟨rfl, fun w h => absurd h (by simp)⟩
  | some w =>
      cases hc : c.causeFor w with
      | none =>
          refine .inl ⟨by simp only [hc], fun w' h => ?_⟩
          rw [← Option.some.inj h, hc]
      | some cause =>
          cases cause with
          | own => exact .inr (.inl ⟨w, rfl, hc, by simp only [hc]; rfl⟩)
          | cancel reason => exact .inr (.inr ⟨w, reason, rfl, hc, by simp only [hc]; rfl⟩)

/-- The three ways in which a watcher's turn ends. -/
theorem runWatcher_cases (c : Coordinator) (id : Nat) :
    (c.runWatcher id).2 = c.arm id ∨ (c.runWatcher id).2 = c.retired id ∨
      ∃ reason, (c.runWatcher id).2 = ((c.retired id).cancelWith id reason).2 := by
  rw [← c.retired_arm id]
  rcases (c.arm id).look_cases id with ⟨heq, _⟩ | ⟨_, _, _, heq⟩ | ⟨_, reason, _, _, heq⟩
  · exact .inl heq
  · exact .inr (.inl heq)
  · exact .inr (.inr ⟨reason, heq⟩)

/-! ## What no operation undoes -/

/-- The reason of a handle. -/
def reason? (c : Coordinator) (id : Nat) : Option CancelReason := (c.handle? id).bind (·.reason)

/-- A coordinator that comes later. -/
structure Grows (c c' : Coordinator) : Prop where
  forest : c.forest.Grows c'.forest
  /-- A handle keeps its token, and its reason once it has one. -/
  handle : ∀ id h, c.handle? id = some h → ∃ h', c'.handle? id = some h' ∧ h'.token = h.token ∧
    ∀ reason, h.reason = some reason → h'.reason = some reason
  fired : c.fired = true → c'.fired = true

namespace Grows

variable {c c' c'' : Coordinator}

theorem trans (h : c.Grows c') (h' : c'.Grows c'') : c.Grows c'' := by
  refine ⟨h.forest.trans h'.forest, fun id handle hh => ?_, h'.fired ∘ h.fired⟩
  rcases h.handle id handle hh with ⟨h₁, hh₁, htoken₁, hreason₁⟩
  rcases h'.handle id h₁ hh₁ with ⟨h₂, hh₂, htoken₂, hreason₂⟩
  exact ⟨h₂, hh₂, htoken₂.trans htoken₁, fun r hr => hreason₂ r (hreason₁ r hr)⟩

theorem of_eq (hforest : c'.forest = c.forest) (hhandles : c'.handles = c.handles)
    (hfired : c.fired = true → c'.fired = true) : c.Grows c' := by
  refine ⟨hforest ▸ Forest.Grows.refl c.forest, fun _ h hh => ⟨h, ?_, rfl, fun _ => id⟩, hfired⟩
  rw [handle?, hhandles]
  exact hh

theorem refl (c : Coordinator) : c.Grows c := of_eq rfl rfl id

theorem isTokenCancelled (h : c.Grows c') {t : Nat} (ht : c.isTokenCancelled t = true) :
    c'.isTokenCancelled t = true := h.forest.isCancelled ht

theorem isCancelled (h : c.Grows c') {id : Nat} (hid : c.isCancelled id = true) :
    c'.isCancelled id = true := by
  cases hh : c.handle? id with
  | none => simp [Coordinator.isCancelled, hh] at hid
  | some handle =>
      rcases h.handle id handle hh with ⟨handle', hh', htoken, _⟩
      simp only [Coordinator.isCancelled, hh, hh', Option.map_some, Option.getD_some, htoken]
        at hid ⊢
      exact h.isTokenCancelled hid

theorem reason? (h : c.Grows c') {id : Nat} {reason : CancelReason}
    (hid : c.reason? id = some reason) : c'.reason? id = some reason := by
  rcases Option.bind_eq_some_iff.mp hid with ⟨handle, hh, hreason⟩
  rcases h.handle id handle hh with ⟨handle', hh', _, hkeep⟩
  exact Option.bind_eq_some_iff.mpr ⟨handle', hh', hkeep reason hreason⟩

end Grows

theorem grows_makeToken (c : Coordinator) (parent : Option Nat) :
    c.Grows (c.makeToken parent).2 :=
  ⟨c.forest.grows_make parent, fun _ h hh => ⟨h, hh, rfl, fun _ => id⟩, id⟩

theorem grows_cancelToken (c : Coordinator) (t : Nat) : c.Grows (c.cancelToken t) :=
  ⟨c.forest.grows_cancel t, fun _ h hh => ⟨h, hh, rfl, fun _ => id⟩, id⟩

theorem grows_modifyHandle (c : Coordinator) (id : Nat) (f : Handle → Handle)
    (hid : ∀ h, (f h).id = h.id) (htoken : ∀ h, (f h).token = h.token)
    (hreason : ∀ h reason, h.reason = some reason → (f h).reason = some reason) :
    c.Grows (c.modifyHandle id f) := by
  refine ⟨Forest.Grows.refl _, fun j h hh => ?_, fun hf => hf⟩
  rw [handle?_modifyHandle c id j f hid, hh, Option.map_some]
  by_cases hj : j = id
  · exact ⟨f h, by rw [if_pos hj], htoken h, hreason h⟩
  · exact ⟨h, by rw [if_neg hj], rfl, fun _ hr => hr⟩

theorem grows_cancelWith (c : Coordinator) (id : Nat) (reason : CancelReason) :
    c.Grows (c.cancelWith id reason).2 := by
  cases hh : c.handle? id with
  | none =>
      simp only [cancelWith, hh]
      exact .refl c
  | some h =>
      simp only [cancelWith, hh]
      refine Grows.trans ?_ (grows_cancelToken _ _)
      exact c.grows_modifyHandle id _ (fun _ => rfl) (fun _ => rfl)
        fun h r hr => by rw [hr, Option.some_or]

theorem grows_dropped (c : Coordinator) (id : Nat) : c.Grows (c.dropped id) :=
  c.grows_modifyHandle id _ (fun _ => rfl) (fun _ => rfl) fun _ _ hr => hr

theorem grows_drop (c : Coordinator) (id : Nat) : c.Grows (c.drop id) := by
  rw [drop_eq]
  split
  · exact (c.grows_dropped id).trans (grows_cancelWith _ _ _)
  · exact c.grows_dropped id

theorem grows_added (c : Coordinator) : c.Grows c.added := by
  refine ⟨c.forest.grows_make none, fun j h hh => ⟨h, ?_, rfl, fun _ => id⟩, fun hf => hf⟩
  rw [handle?_added, hh, Option.some_or]

theorem grows_derive (c : Coordinator) (parent : Nat) (timeout : Option Nat) :
    c.Grows (c.derive parent timeout).2 := by
  have henrolled : c.Grows c.enrolled := c.grows_added.trans (.of_eq rfl rfl fun hf => hf)
  rw [derive_eq]
  simp only []
  split
  · exact c.grows_added.trans (grows_cancelWith _ _ _)
  · split
    · exact henrolled.trans (grows_cancelWith _ _ _)
    · exact henrolled.trans (.of_eq rfl rfl fun hf => hf)

theorem grows_foldl_cancelWith (c : Coordinator) (ids : List Nat) (reason : CancelReason) :
    c.Grows (ids.foldl (fun c id => (c.cancelWith id reason).2) c) := by
  induction ids generalizing c with
  | nil => exact .refl c
  | cons id ids ih => exact (c.grows_cancelWith id reason).trans (ih _)

theorem grows_fire (c : Coordinator) : c.Grows c.fire.2 := by
  unfold fire
  split
  · exact .refl c
  · refine Grows.trans ?_ (grows_foldl_cancelWith _ _ _)
    exact .of_eq rfl rfl fun _ => rfl

theorem grows_runWatcher (c : Coordinator) (id : Nat) : c.Grows (c.runWatcher id).2 := by
  have hrest : c.Grows (c.retired id) := .of_eq rfl rfl fun hf => hf
  rcases c.runWatcher_cases id with heq | heq | ⟨reason, heq⟩
  · rw [heq]
    exact .of_eq rfl rfl fun hf => hf
  · rw [heq]
    exact hrest
  · rw [heq]
    exact hrest.trans (grows_cancelWith _ _ _)

theorem grows_apply (c : Coordinator) (op : Op) : c.Grows (c.apply op) := by
  cases op with
  | makeToken parent => exact c.grows_makeToken parent
  | derive parent timeout => exact c.grows_derive parent timeout
  | clone id =>
      exact c.grows_modifyHandle id _ (fun _ => rfl) (fun _ => rfl) fun _ _ hr => hr
  | drop id => exact c.grows_drop id
  | cancel id => exact c.grows_cancelWith id _
  | cancelToken t => exact c.grows_cancelToken t
  | fire => exact c.grows_fire
  | signal =>
      have hcount : c.Grows { c with signals := c.signals + 1 } := .of_eq rfl rfl fun hf => hf
      exact hcount.trans (grows_fire _)
  | moveTo t => exact .of_eq rfl rfl id
  | reschedule woken => exact .of_eq rfl rfl id
  | turn id => exact c.grows_runWatcher id

theorem grows_run (c : Coordinator) (ops : List Op) : c.Grows (c.run ops) := by
  induction ops generalizing c with
  | nil => exact .refl c
  | cons op ops ih => exact (c.grows_apply op).trans (ih _)

/-- Settling is a run in which the scheduler takes one watcher after the other. -/
theorem settleWithin_eq_run (steps : Nat) (c : Coordinator) :
    ∃ ops, (c.settleWithin steps).2 = c.run ops := by
  induction steps generalizing c with
  | zero => exact ⟨[], rfl⟩
  | succ steps ih =>
      unfold settleWithin
      cases hwoken : c.woken with
      | nil => exact ⟨[], rfl⟩
      | cons id woken =>
          -- One turn takes the watcher from the woken ones and runs it.
          rcases ih (({ c with woken } : Coordinator).runWatcher id).2 with ⟨ops, hops⟩
          exact ⟨.reschedule woken :: .turn id :: ops, hops⟩

theorem grows_settle (c : Coordinator) : c.Grows c.settle.2 := by
  rcases settleWithin_eq_run c.turns c with ⟨ops, hops⟩
  rw [settle, hops]
  exact c.grows_run ops

end Coordinator

end ChainSync
