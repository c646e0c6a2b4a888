import ChainSync.Proofs.Cancel.Orderly

/-!
# Lineage

Handles and watchers go back to derivations.

A coordinator keeps no record of how its handles were derived. The token above
one and the time after which it ends are known to its watcher only, and a
watcher that is done is forgotten. What is said of handles is therefore said of
the derivations of a run, and `Lineage` is what connects the two: the handles are
those that were derived, with their tokens, and each watcher is that of a
derivation. When a watcher had its first turn is not known from the derivation. It
is told apart from it, and it never was before the derivation.

The token of a handle is made for it and is below no other one, so it is
cancelled only for itself. Whatever comes from above comes through a watcher.

## Main definitions

* `Coordinator.Lineage`: The invariant.

## Theorems

* `Coordinator.Lineage.eq_of_token`: Tokens tell handles apart.
* `Coordinator.Lineage.isTokenCancelled`: A handle's token is cancelled for itself.
* `Coordinator.Lineage.time_le`: First turns come after derivations.
* `Coordinator.Lineage.cancelWith`, `Coordinator.Lineage.added`,
  `Coordinator.Lineage.arm`: Operations and turns keep the lineage.
-/

namespace ChainSync

namespace Coordinator

variable {c c' : Coordinator} {first : Nat → Option Nat} {ds : List Derivation}

/-- The handles and watchers of a coordinator go back to derivations, where watchers
    have had their first turns at certain times or not yet. -/
structure Lineage (c : Coordinator) (first : Nat → Option Nat) (ds : List Derivation) : Prop where
  numbered : c.Numbered
  handles : c.handles.map (fun h => (h.id, h.token)) = ds.map fun d => (d.id, d.token)
  ordered : c.forest.Ordered
  root : ∀ d ∈ ds, c.forest.Root d.token
  above : ∀ d ∈ ds, d.parent < d.token
  increasing : ds.Pairwise fun d d' => d.token < d'.token
  watchers : ∀ w ∈ c.watchers, ∃ d ∈ ds, w = d.watcher (first d.id)
  past : ∀ d ∈ ds, d.time ≤ c.now
  begun : ∀ id t, first id = some t → ∃ d ∈ ds, d.id = id ∧ d.time ≤ t

namespace Lineage

theorem handle? (hl : c.Lineage first ds) {d : Derivation} (hd : d ∈ ds) :
    ∃ h, c.handle? d.id = some h ∧ h.token = d.token := by
  have hmem : (d.id, d.token) ∈ c.handles.map fun h => (h.id, h.token) := by
    rw [hl.handles]
    exact List.mem_map_of_mem hd
  rcases List.mem_map.mp hmem with ⟨h, hh, heq⟩
  rcases Prod.mk.inj heq with ⟨hid, htoken⟩
  exact ⟨h, hid ▸ hl.numbered.handle? hh, htoken⟩

theorem of_handle? (hl : c.Lineage first ds) {id : Nat} {h : Handle} (hh : c.handle? id = some h) :
    ∃ d ∈ ds, d.id = id ∧ d.token = h.token := by
  have hmem : (h.id, h.token) ∈ ds.map fun d => (d.id, d.token) := by
    rw [← hl.handles]
    exact List.mem_map_of_mem (f := fun h : Handle => (h.id, h.token))
      (List.mem_of_find?_eq_some hh)
  rcases List.mem_map.mp hmem with ⟨d, hd, heq⟩
  rcases Prod.mk.inj heq with ⟨hid, htoken⟩
  exact ⟨d, hd, hid.trans (id_of_handle? hh), htoken⟩

theorem eq_of_token (hl : c.Lineage first ds) {d d' : Derivation} (hd : d ∈ ds) (hd' : d' ∈ ds)
    (h : d.token = d'.token) : d = d' := by
  rcases List.getElem_of_mem hd with ⟨i, hi, rfl⟩
  rcases List.getElem_of_mem hd' with ⟨j, hj, rfl⟩
  have hpair := List.pairwise_iff_getElem.mp hl.increasing
  rcases Nat.lt_trichotomy i j with hij | hij | hij
  · have hlt := hpair i j hi hj hij
    omega
  · simp only [hij]
  · have hlt := hpair j i hj hi hij
    omega

theorem eq_of_id (hl : c.Lineage first ds) {d d' : Derivation} (hd : d ∈ ds) (hd' : d' ∈ ds)
    (h : d.id = d'.id) : d = d' := by
  rcases hl.handle? hd with ⟨g, hg, htoken⟩
  rcases hl.handle? hd' with ⟨g', hg', htoken'⟩
  rw [h, hg'] at hg
  rw [Option.some.inj hg] at htoken'
  exact hl.eq_of_token hd hd' (htoken.symm.trans htoken')

theorem isCancelled (hl : c.Lineage first ds) {d : Derivation} (hd : d ∈ ds) :
    c.isCancelled d.id = c.isTokenCancelled d.token := by
  rcases hl.handle? hd with ⟨h, hh, htoken⟩
  rw [Coordinator.isCancelled, hh, Option.map_some, Option.getD_some, htoken]

/-- A handle's token is cancelled only for itself. -/
theorem isTokenCancelled (hl : c.Lineage first ds) {d : Derivation} (hd : d ∈ ds) :
    c.isTokenCancelled d.token = true ↔ c.forest.Struck d.token :=
  Forest.isCancelled_root hl.ordered (hl.root d hd)

theorem eq_of_watcher (hl : c.Lineage first ds) {w w' : Watcher} (hw : w ∈ c.watchers)
    (hw' : w' ∈ c.watchers) (h : w.handle = w'.handle) : w = w' := by
  rcases hl.watchers w hw with ⟨d, hd, rfl⟩
  rcases hl.watchers w' hw' with ⟨d', hd', rfl⟩
  have hsame : d = d' := hl.eq_of_id hd hd' h
  rw [hsame]

/-- The watcher that is looked for is the only one of its handle. -/
theorem watcher_of_find? (hl : c.Lineage first ds) {id : Nat} {w : Watcher}
    (hw : c.watchers.find? (·.handle = id) = some w) :
    w ∈ c.watchers ∧ w.handle = id ∧ ∀ w' ∈ c.watchers, w'.handle = id → w' = w := by
  have hmem := List.mem_of_find?_eq_some hw
  have hid : w.handle = id := by simpa using List.find?_some hw
  exact ⟨hmem, hid, fun w' hw' hid' => hl.eq_of_watcher hw' hmem (hid'.trans hid.symm)⟩

/-- The time of a handle does not begin before it is derived. -/
theorem time_le (hl : c.Lineage first ds) {d : Derivation} (hd : d ∈ ds) {t : Nat}
    (ht : first d.id = some t) : d.time ≤ t := by
  rcases hl.begun d.id t ht with ⟨d', hd', hid, hle⟩
  exact hl.eq_of_id hd' hd hid ▸ hle

/-- The watcher of the next handle has had no turn. -/
theorem first_nextId (hl : c.Lineage first ds) : first c.nextId = none := by
  cases ht : first c.nextId with
  | none => rfl
  | some t =>
      rcases hl.begun c.nextId t ht with ⟨d, hd, hid, _⟩
      rcases hl.handle? hd with ⟨h, hh, _⟩
      rw [hid, hl.numbered.handle?_nextId] at hh
      exact absurd hh (by simp)

/-- The places a handle refers to are there. -/
theorem lt_length (hl : c.Lineage first ds) {d : Derivation} (hd : d ∈ ds) :
    d.token < c.forest.tokens.length ∧ d.parent < c.forest.tokens.length := by
  have htoken := (hl.root d hd).lt
  exact ⟨htoken, Nat.lt_trans (hl.above d hd) htoken⟩

theorem keep (hl : c.Lineage first ds)
    (hhandles : c'.handles.map (fun h => (h.id, h.token)) =
      c.handles.map fun h => (h.id, h.token))
    (hordered : c'.forest.Ordered) (hroot : ∀ t, c.forest.Root t → c'.forest.Root t)
    (hwatchers : c'.watchers.Sublist c.watchers) (hnow : c.now ≤ c'.now) :
    c'.Lineage first ds where
  numbered := by
    have hids := congrArg (List.map Prod.fst) hhandles
    have hlength := congrArg List.length hhandles
    simp only [List.map_map, List.length_map, Function.comp_def] at hids hlength
    rw [Numbered, hids, hlength]
    exact hl.numbered
  handles := hhandles.trans hl.handles
  ordered := hordered
  root := fun d hd => hroot _ (hl.root d hd)
  above := hl.above
  increasing := hl.increasing
  watchers := fun w hw => hl.watchers w (hwatchers.subset hw)
  past := fun d hd => Nat.le_trans (hl.past d hd) hnow
  begun := hl.begun

theorem of_eq (hl : c.Lineage first ds) (hhandles : c'.handles = c.handles)
    (hforest : c'.forest = c.forest) (hwatchers : c'.watchers.Sublist c.watchers)
    (hnow : c.now ≤ c'.now) : c'.Lineage first ds :=
  hl.keep (by rw [hhandles]) (hforest ▸ hl.ordered) (fun _ => by rw [hforest]; exact id) hwatchers
    hnow

theorem cancelToken (hl : c.Lineage first ds) (t : Nat) : (c.cancelToken t).Lineage first ds :=
  hl.keep rfl (hl.ordered.cancel t) (fun _ hr => hr.cancel t) (List.Sublist.refl _) (Nat.le_refl _)

theorem modifyHandle (hl : c.Lineage first ds) (id : Nat) (f : Handle → Handle)
    (hf : ∀ h, ((f h).id, (f h).token) = (h.id, h.token)) :
    (c.modifyHandle id f).Lineage first ds := by
  refine hl.keep ?_ hl.ordered (fun _ hr => hr) (List.Sublist.refl _) (Nat.le_refl _)
  rw [Coordinator.modifyHandle, List.map_map]
  refine List.map_congr_left fun h _ => ?_
  rw [Function.comp_apply]
  split
  · exact hf h
  · rfl

theorem cancelWith (hl : c.Lineage first ds) (id : Nat) (reason : CancelReason) :
    (c.cancelWith id reason).2.Lineage first ds := by
  unfold Coordinator.cancelWith
  split
  · exact hl
  · let f (h : Handle) : Handle := { h with reason := h.reason.or (some reason) }
    exact (hl.modifyHandle id f fun _ => rfl).cancelToken _

theorem makeToken (hl : c.Lineage first ds) {parent : Option Nat}
    (hparent : ∀ t ∈ parent, t < c.forest.tokens.length) :
    (c.makeToken parent).2.Lineage first ds :=
  hl.keep rfl (hl.ordered.make hparent) (fun _ hr => hr.make parent) (List.Sublist.refl _)
    (Nat.le_refl _)

theorem added (hl : c.Lineage first ds) {parent : Nat} (hparent : parent < c.forest.tokens.length)
    (timeout : Option Nat) : c.added.Lineage first (ds ++ [c.next parent timeout]) where
  numbered := hl.numbered.added
  handles := by
    simp only [Coordinator.added, List.map_append, hl.handles, List.map_cons, List.map_nil, next]
  ordered := hl.ordered.make fun _ h => absurd h (by simp)
  root := by
    intro d hd
    rcases List.mem_append.mp hd with hd | hd
    · exact (hl.root d hd).make none
    · rw [List.mem_singleton.mp hd]
      exact ⟨_, c.forest.getElem?_make_new none, rfl⟩
  above := by
    intro d hd
    rcases List.mem_append.mp hd with hd | hd
    · exact hl.above d hd
    · rw [List.mem_singleton.mp hd]
      exact hparent
  increasing := by
    refine List.pairwise_append.mpr ⟨hl.increasing, List.pairwise_singleton _ _, ?_⟩
    intro d hd d' hd'
    rw [List.mem_singleton.mp hd']
    exact (hl.lt_length hd).1
  watchers := fun w hw => by
    rcases hl.watchers w hw with ⟨d, hd, heq⟩
    exact ⟨d, List.mem_append_left _ hd, heq⟩
  past := by
    intro d hd
    rcases List.mem_append.mp hd with hd | hd
    · exact hl.past d hd
    · rw [List.mem_singleton.mp hd]
      exact Nat.le_refl _
  begun := fun id t ht => by
    rcases hl.begun id t ht with ⟨d, hd, hbegun⟩
    exact ⟨d, List.mem_append_left _ hd, hbegun⟩

theorem watch (hl : c.Lineage first ds) {d : Derivation} (hd : d ∈ ds) (woken : List Nat) :
    Lineage { c with watchers := c.watchers ++ [d.watcher (first d.id)], woken } first ds where
  numbered := hl.numbered
  handles := hl.handles
  ordered := hl.ordered
  root := hl.root
  above := hl.above
  increasing := hl.increasing
  watchers := fun w hw => by
    rcases List.mem_append.mp hw with hw | hw
    · exact hl.watchers w hw
    · exact ⟨d, hd, List.mem_singleton.mp hw⟩
  past := hl.past
  begun := hl.begun

/-- A watcher that sets its timer has its first turn, if it has not had one before. -/
theorem arm (hl : c.Lineage first ds) (id : Nat) :
    (c.arm id).Lineage (c.noted first (.watcher id)) ds where
  numbered := hl.numbered
  handles := hl.handles
  ordered := hl.ordered
  root := hl.root
  above := hl.above
  increasing := hl.increasing
  watchers := fun w hw => by
    rcases mem_arm.mp hw with ⟨w', hw', rfl⟩
    rcases hl.watchers w' hw' with ⟨d, hd, rfl⟩
    exact ⟨d, hd, c.arm_watcher hw' id⟩
  past := hl.past
  begun := fun j t ht => by
    rcases Option.or_eq_some_iff.mp ht with ht | ⟨_, ht⟩
    · exact hl.begun j t ht
    · -- The first turn is now, and the handle was derived before.
      rcases Option.ite_some_none_eq_some.mp ht with ⟨hturn, rfl⟩
      simp only [Step.isTurnOf, Bool.and_eq_true, List.any_eq_true, decide_eq_true_eq] at hturn
      rcases hturn.2 with ⟨w, hw, rfl⟩
      rcases hl.watchers w hw with ⟨d, hd, rfl⟩
      exact ⟨d, hd, rfl, hl.past d hd⟩

end Lineage

end Coordinator

end ChainSync
