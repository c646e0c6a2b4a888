import ChainSync.Proofs.Cancel.Outside

/-!
# Reasons

Which of several reasons a handle is cancelled for.

Everybody who cancels a handle asks for it with a reason, and only the first one that
asks is answered with success. All that an operation or a turn does to handles is in
the requests it makes: apart from those it prepares the state, and no preparation gives
a reason (`cancelEach_requests`). So what a run makes of a handle is said by the list
of all requests that were successful (`grants`). There is one for every handle with a
reason, and no other one.

What a request stands for has to be there when it is made, not only at the end of the
run, since a cause may come up later that would have been as good. Therefore every
reason is led back to the step that gave it (`Justifies`).

A watcher looks at its clock after it has looked at the token above. It waits for no more
than thirty years, which is not the program's doing: it is what is assumed of the timers
(`longestWait`).

## Main definitions

* `Coordinator.Request`, `Coordinator.requests`: Who asks for what in a step.
* `Coordinator.granted`, `Coordinator.grants`: The requests that were successful.
* `Coordinator.Justifies`: What a step has to be for a reason.

## Theorems

* `Coordinator.cancelEach_requests`: A step is its preparation and its requests.
* `Coordinator.mem_grants`, `Coordinator.nodup_grants`: One success for every reason.
* `Coordinator.Recorded.justified`: Requests are only made with a justification.
* `Coordinator.reasons_are_first_and_justified`: All reasons of a run.
-/

namespace ChainSync

namespace Coordinator

variable {c : Coordinator} {past : List Step} {ds : List Derivation}

/-! ## Requests -/

/-- A request to cancel a handle. -/
@[ext]
structure Request where
  handle : Nat
  reason : CancelReason
deriving DecidableEq

/-- Makes requests one after the other, and answers those of them that were the first one
    for their handles. -/
def cancelEach (c : Coordinator) : List Request → List Request × Coordinator
  | [] => ([], c)
  | q :: qs =>
    let (first, c) := c.cancelWith q.handle q.reason
    let (granted, c) := c.cancelEach qs
    (if first then q :: granted else granted, c)

theorem cancelEach_cons (c : Coordinator) (q : Request) (qs : List Request) :
    c.cancelEach (q :: qs) =
      (if (c.cancelWith q.handle q.reason).1 then
          q :: ((c.cancelWith q.handle q.reason).2.cancelEach qs).1
        else ((c.cancelWith q.handle q.reason).2.cancelEach qs).1,
        ((c.cancelWith q.handle q.reason).2.cancelEach qs).2) := rfl

/-- A request gives a reason to no other handle, and no other reason. -/
theorem eq_of_reason?_cancelWith {id j : Nat} {reason r : CancelReason}
    (hnone : c.reason? j = none) (hsome : (c.cancelWith id reason).2.reason? j = some r) :
    j = id ∧ r = reason := by
  rw [reason?] at hnone
  rw [reason?, handle?_cancelWith] at hsome
  cases hh : c.handle? j with
  | none => simp [hh] at hsome
  | some h =>
      have hbare : h.reason = none := by simpa [hh] using hnone
      by_cases hj : j = id
      · rw [hh, Option.map_some, if_pos hj, Option.bind_some, hbare, Option.none_or] at hsome
        exact ⟨hj, (Option.some.inj hsome).symm⟩
      · simp [hh, hj, hbare] at hsome

/-- A request is successful if it is the one that gives the handle its reason. -/
theorem cancelWith_fst (c : Coordinator) (id : Nat) (reason : CancelReason) :
    (c.cancelWith id reason).1 = true ↔
      c.reason? id = none ∧ (c.cancelWith id reason).2.reason? id = some reason := by
  have hanswer : (c.cancelWith id reason).1 = (c.handle? id).any (·.reason.isNone) := by
    unfold cancelWith
    split <;> rename_i hh <;> simp [hh]
  rw [hanswer, reason?, reason?, handle?_cancelWith]
  cases c.handle? id with
  | none => simp
  | some h => cases hr : h.reason <;> simp [hr]

theorem grows_cancelEach (c : Coordinator) (qs : List Request) : c.Grows (c.cancelEach qs).2 := by
  induction qs generalizing c with
  | nil => exact .refl c
  | cons q qs ih => exact (c.grows_cancelWith q.handle q.reason).trans (ih _)

/-- A handle that has no reason later has none before. -/
theorem Grows.reason?_eq_none {c' : Coordinator} (h : c.Grows c') {id : Nat}
    (hid : c'.reason? id = none) : c.reason? id = none := by
  cases hr : c.reason? id with
  | none => rfl
  | some reason => exact absurd (hid.symm.trans (h.reason? hr)) (by simp)

theorem subset_cancelEach (c : Coordinator) (qs : List Request) : (c.cancelEach qs).1 ⊆ qs := by
  induction qs generalizing c with
  | nil => exact List.Subset.refl _
  | cons q qs ih =>
      rw [cancelEach_cons]
      split
      · exact List.cons_subset_cons q (ih _)
      · exact List.subset_cons_of_subset q (ih _)

/-- The successful requests are those that gave a reason to a handle without one. -/
theorem mem_cancelEach (c : Coordinator) (qs : List Request) (q : Request) :
    q ∈ (c.cancelEach qs).1 ↔
      c.reason? q.handle = none ∧ (c.cancelEach qs).2.reason? q.handle = some q.reason := by
  induction qs generalizing c with
  | nil =>
      refine iff_of_false List.not_mem_nil ?_
      rintro ⟨hnone, hsome⟩
      exact absurd (hnone.symm.trans hsome) (by simp)
  | cons p qs ih =>
      have hgrow := c.grows_cancelWith p.handle p.reason
      have hrest := grows_cancelEach (c.cancelWith p.handle p.reason).2 qs
      rw [cancelEach_cons]
      constructor
      · intro hq
        have hlater (h : q ∈ ((c.cancelWith p.handle p.reason).2.cancelEach qs).1) :=
          ((ih _).mp h).imp_left hgrow.reason?_eq_none
        split at hq
        · next hfirst =>
          rcases List.mem_cons.mp hq with rfl | hq
          · exact ((cancelWith_fst ..).mp hfirst).imp_right hrest.reason?
          · exact hlater hq
        · exact hlater hq
      · rintro ⟨hnone, hsome⟩
        cases hmid : (c.cancelWith p.handle p.reason).2.reason? q.handle with
        | none =>
            have hq := (ih _).mpr ⟨hmid, hsome⟩
            split
            · exact List.mem_cons_of_mem p hq
            · exact hq
        | some reason =>
            -- The first request has given the reason, so it is the one in question.
            have hreason := Option.some.inj ((hrest.reason? hmid).symm.trans hsome)
            rcases eq_of_reason?_cancelWith hnone hmid with ⟨hhandle, hgiven⟩
            rw [hhandle] at hnone hmid
            rw [if_pos ((cancelWith_fst ..).mpr ⟨hnone, hgiven ▸ hmid⟩)]
            have heq : q = p := Request.ext hhandle (hreason.symm.trans hgiven)
            exact heq ▸ List.mem_cons_self

/-- At most one request for a handle is successful. -/
theorem nodup_cancelEach (c : Coordinator) (qs : List Request) :
    ((c.cancelEach qs).1.map (·.handle)).Nodup := by
  induction qs generalizing c with
  | nil => exact .nil
  | cons p qs ih =>
      rw [cancelEach_cons]
      split
      · next hfirst =>
        refine List.nodup_cons.mpr ⟨fun hmem => ?_, ih _⟩
        -- A later success would have found the handle without a reason.
        rcases List.mem_map.mp hmem with ⟨q, hq, hhandle⟩
        have hnone := ((mem_cancelEach _ _ q).mp hq).1
        rw [hhandle, ((cancelWith_fst ..).mp hfirst).2] at hnone
        exact absurd hnone (by simp)
      · exact ih _

/-! ## Steps as requests -/

/-- The coordinator with its latch closed and nobody registered. -/
def closed (c : Coordinator) : Coordinator :=
  if c.fired then c else { c with fired := true, registry := [] }

/-- What the watcher of a handle finds, with its timer set. -/
def finding (c : Coordinator) (id : Nat) : Option Watcher.Cause :=
  ((c.arm id).watchers.find? (·.handle = id)).bind c.causeFor

/-- The requests that are made in a step. -/
def requests (c : Coordinator) : Step → List Request
  | .op (.derive parent _) =>
    if c.fired then [⟨c.nextId, .shutdown⟩]
    else if c.enrolled.isTokenCancelled parent then [⟨c.nextId, .parentCancelled⟩]
    else []
  | .op (.drop id) =>
    if ((c.dropped id).handle? id).any (·.clones = 0) then [⟨id, .released⟩] else []
  | .op (.cancel id) => [⟨id, .requested⟩]
  | .op .fire => if c.fired then [] else c.targets.map (⟨·, .shutdown⟩)
  | .op .signal => if c.fired then [] else c.targets.map (⟨·, .shutdown⟩)
  | .watcher id =>
    match c.finding id with
    | some (.cancel reason) => [⟨id, reason⟩]
    | _ => []
  | _ => []

/-- The coordinator when a step makes its requests. -/
def prepared (c : Coordinator) : Step → Coordinator
  | .op (.derive parent timeout) =>
    if c.fired then c.added
    else if c.enrolled.isTokenCancelled parent then c.enrolled
    else { c.enrolled with
      watchers := c.watchers ++ [{
        handle := c.nextId, own := c.forest.tokens.length, parent, timeout }]
      woken := c.woken ++ [c.nextId] }
  | .op (.drop id) => c.dropped id
  | .op (.cancel _) => c
  | .op .fire => c.closed
  | .op .signal => ({ c with signals := c.signals + 1 } : Coordinator).closed
  | .op o => c.apply o
  | .watcher id =>
    let rest : Coordinator := { c with woken := c.woken.erase id }
    if (c.finding id).isSome then rest.retired id else rest.arm id

theorem cancelEach_map (c : Coordinator) (ids : List Nat) (reason : CancelReason) :
    (c.cancelEach (ids.map (⟨·, reason⟩))).2 = c.cancelAll ids reason := by
  induction ids generalizing c with
  | nil => rfl
  | cons id ids ih => exact ih _

/-- A shutdown is a request for every handle that is registered and alive. -/
theorem cancelEach_closed (c : Coordinator) :
    (c.closed.cancelEach (if c.fired then [] else c.targets.map (⟨·, .shutdown⟩))).2 =
      c.fire.2 := by
  rw [fire_eq, closed]
  split
  · rfl
  · exact cancelEach_map _ _ _

/-- A step is its preparation and its requests. -/
theorem cancelEach_requests (c : Coordinator) (s : Step) :
    ((c.prepared s).cancelEach (c.requests s)).2 = c.step s := by
  cases s with
  | watcher id =>
      simp only [prepared, requests, step, finding]
      rcases c.takeTurn_cases id with ⟨heq, hnone⟩ | ⟨w, hw, hcause, heq⟩ |
        ⟨w, reason, hw, hcause, heq⟩
      · have hfinding : ((c.arm id).watchers.find? (·.handle = id)).bind c.causeFor = none := by
          cases hw : (c.arm id).watchers.find? (·.handle = id) with
          | none => rfl
          | some w => exact hnone w hw
        simp only [heq, hfinding]
        rfl
      · simp only [heq, hw, Option.bind_some, hcause]
        rfl
      · simp only [heq, hw, Option.bind_some, hcause]
        rfl
  | op o =>
      cases o with
      | derive parent timeout =>
          simp only [prepared, requests, step, apply, derive_eq]
          split
          · rfl
          · split <;> rfl
      | drop id =>
          simp only [prepared, requests, step, apply, drop_eq]
          split <;> rfl
      | fire => exact cancelEach_closed c
      | signal => exact cancelEach_closed { c with signals := c.signals + 1 }
      | _ => rfl

/-- No preparation gives a reason to a handle, or takes it away. -/
theorem reason?_prepared (c : Coordinator) {s : Step} (hs : s.Possible c) (j : Nat) :
    (c.prepared s).reason? j = c.reason? j := by
  have hmodify (id : Nat) (f : Handle → Handle) (hid : ∀ h, (f h).id = h.id)
      (hreason : ∀ h, (f h).reason = h.reason) :
      (c.modifyHandle id f).reason? j = c.reason? j := by
    rw [reason?, reason?, handle?_modifyHandle c id j f hid]
    cases c.handle? j with
    | none => rfl
    | some h =>
        simp only [Option.map_some, Option.bind_some]
        split
        · exact hreason h
        · rfl
  have hadded : c.added.reason? j = c.reason? j := by
    rw [reason?, reason?, handle?_added]
    cases c.handle? j with
    | none =>
        -- The new handle has no reason yet.
        rw [Option.none_or]
        split <;> rfl
    | some h => rfl
  have hclosed (c : Coordinator) : c.closed.reason? j = c.reason? j := by
    rw [closed]
    split <;> rfl
  cases s with
  | watcher id =>
      simp only [prepared]
      split <;> rfl
  | op o =>
      cases o with
      | derive parent timeout =>
          simp only [prepared]
          split
          · exact hadded
          · split <;> exact hadded
      | clone id => exact hmodify id _ (fun _ => rfl) fun _ => rfl
      | drop id => exact hmodify id _ (fun _ => rfl) fun _ => rfl
      | fire => exact hclosed c
      | signal => exact hclosed _
      | turn id => exact absurd hs fun h => h
      | _ => rfl

/-! ## Successful requests -/

/-- The requests of a step that are successful. -/
def granted (c : Coordinator) (s : Step) : List Request :=
  ((c.prepared s).cancelEach (c.requests s)).1

/-- The requests of a run that are successful. -/
def grants : Coordinator → List Step → List Request
  | _, [] => []
  | c, s :: ss => c.granted s ++ grants (c.step s) ss

theorem mem_granted {s : Step} (hs : s.Possible c) (q : Request) :
    q ∈ c.granted s ↔
      c.reason? q.handle = none ∧ (c.step s).reason? q.handle = some q.reason := by
  rw [granted, mem_cancelEach, reason?_prepared c hs, cancelEach_requests]

/-- The successful requests of a run are those that gave a reason to a handle without
    one. -/
theorem mem_grants {ss : List Step} (ho : c.Orderly ss) (q : Request) :
    q ∈ c.grants ss ↔
      c.reason? q.handle = none ∧ (c.steps ss).reason? q.handle = some q.reason := by
  induction ss generalizing c with
  | nil =>
      refine iff_of_false List.not_mem_nil ?_
      rintro ⟨hnone, hsome⟩
      exact absurd (hnone.symm.trans hsome) (by simp)
  | cons s ss ih =>
      have hgrow := c.grows_step s
      have hrest := grows_steps (c.step s) ss
      rw [grants, List.mem_append, mem_granted ho.1, ih ho.2, steps_cons]
      constructor
      · rintro (⟨hnone, hsome⟩ | ⟨hnone, hsome⟩)
        · exact ⟨hnone, hrest.reason? hsome⟩
        · exact ⟨hgrow.reason?_eq_none hnone, hsome⟩
      · rintro ⟨hnone, hsome⟩
        -- The handle gets its reason now or later.
        cases hmid : (c.step s).reason? q.handle with
        | none => exact .inr ⟨rfl, hsome⟩
        | some reason => exact .inl ⟨hnone, (hrest.reason? hmid).symm.trans hsome⟩

/-- At most one request for a handle is successful in a run. -/
theorem nodup_grants {ss : List Step} (ho : c.Orderly ss) :
    ((c.grants ss).map (·.handle)).Nodup := by
  induction ss generalizing c with
  | nil => exact .nil
  | cons s ss ih =>
      rw [grants, List.map_append]
      refine List.nodup_append.mpr ⟨nodup_cancelEach _ _, ih ho.2, fun id hnow id' hlater => ?_⟩
      rcases List.mem_map.mp hnow with ⟨q, hq, rfl⟩
      rcases List.mem_map.mp hlater with ⟨q', hq', rfl⟩
      intro hsame
      have hsome := ((mem_granted ho.1 q).mp hq).2
      have hnone := ((mem_grants ho.2 q').mp hq').1
      rw [← hsame, hsome] at hnone
      exact absurd hnone (by simp)

/-! ## Justifications -/

/-- What a step has to be, and what has to be there, for a handle to be cancelled with a
    reason. -/
def Justifies (c : Coordinator) (s : Step) (d : Derivation) : CancelReason → Prop
  -- The shutdown, or a derivation after it.
  | .shutdown => c.fired = false ∧ (s = .op .fire ∨ s = .op .signal) ∨
    c.fired = true ∧ c.derivation? s = some d
  -- The handle's derivation or its watcher, with the token above it cancelled.
  | .parentCancelled => c.isTokenCancelled d.parent = true ∧
    (s = .watcher d.id ∨ c.derivation? s = some d)
  -- Its watcher, after its time, with the token above it not cancelled.
  | .deadlineExceeded => s = .watcher d.id ∧ c.isTokenCancelled d.parent = false ∧
    ∃ ms ∈ d.timeout, d.time + min ms longestWait ≤ c.now
  -- Somebody who has a clone of it.
  | .requested => s = .op (.cancel d.id) ∧ c.isLive d.id = true
  -- Whoever drops its last clone.
  | .released => s = .op (.drop d.id) ∧ (c.handle? d.id).map (·.clones) = some 1

/-- What a watcher has found if it cancels its handle. Its time does not count from
    before the derivation. -/
theorem justifies_of_causeFor {d : Derivation} {first : Option Nat} {reason : CancelReason}
    (hfirst : ∀ t ∈ first, d.time ≤ t) (h : c.causeFor (d.watcher first) = some (.cancel reason)) :
    c.Justifies (.watcher d.id) d reason := by
  unfold causeFor at h
  split at h
  · simp at h
  · split at h
    · next hparent =>
      obtain rfl : CancelReason.parentCancelled = reason := by simpa using h
      exact ⟨hparent, .inl rfl⟩
    · next hparent =>
      split at h
      · next hdue =>
        obtain rfl : CancelReason.deadlineExceeded = reason := by simpa using h
        refine ⟨rfl, Bool.eq_false_iff.mpr hparent, ?_⟩
        cases hms : d.timeout with
        | none => cases first <;> simp [Derivation.watcher, Derivation.deadline, hms] at hdue
        | some ms =>
            cases first with
            | none => simp [Derivation.watcher, Derivation.deadline] at hdue
            | some t =>
                have hle := hfirst t rfl
                simp only [Derivation.watcher, Derivation.deadline, hms, Option.bind_some,
                  Option.map_some, Option.getD_some, decide_eq_true_eq] at hdue
                exact ⟨ms, rfl, by omega⟩
      · simp at h

/-- The last clone is the only one. -/
theorem clones_of_dropped {id : Nat} (hlive : c.isLive id = true)
    (hlast : ((c.dropped id).handle? id).any (·.clones = 0) = true) :
    (c.handle? id).map (·.clones) = some 1 := by
  have hless : (c.dropped id).handle? id =
      (c.handle? id).map fun h => { h with clones := h.clones - 1 } := by
    rw [dropped, handle?_modifyHandle]
    · simp only [if_true]
    · exact fun _ => rfl
  rw [hless] at hlast
  cases hh : c.handle? id with
  | none => simp [hh] at hlast
  | some h =>
      simp only [hh, Option.map_some, Option.any_some, decide_eq_true_eq] at hlast
      simp only [isLive, hh, Option.map_some, Option.getD_some, Handle.isLive,
        decide_eq_true_eq] at hlive
      have hone : h.clones = 1 := by omega
      rw [Option.map_some, hone]

/-- No request is made without a justification. -/
theorem Recorded.justified (hr : Recorded past c ds) {s : Step} (hs : s.Possible c) {q : Request}
    (hq : q ∈ c.requests s) :
    ∃ d ∈ ds ++ (c.derivation? s).toList, d.id = q.handle ∧ c.Justifies s d q.reason := by
  have hl := hr.tended.lineage
  -- A handle that somebody has a clone of was derived before.
  have hknown {id : Nat} (hlive : c.isLive id = true) : ∃ d ∈ ds, d.id = id := by
    cases hh : c.handle? id with
    | none => simp [isLive, hh] at hlive
    | some h =>
        rcases hl.of_handle? hh with ⟨d, hd, hid, _⟩
        exact ⟨d, hd, hid⟩
  have hshutdown (hq : q ∈ if c.fired then [] else c.targets.map (⟨·, .shutdown⟩))
      (hs : s = .op .fire ∨ s = .op .signal) :
      ∃ d ∈ ds ++ (c.derivation? s).toList, d.id = q.handle ∧ c.Justifies s d q.reason := by
    cases hf : c.fired with
    | true => simp [hf] at hq
    | false =>
        rw [hf, if_neg Bool.false_ne_true] at hq
        rcases List.mem_map.mp hq with ⟨id, hid, rfl⟩
        rcases hknown (List.mem_filter.mp hid).2 with ⟨d, hd, hid⟩
        exact ⟨d, List.mem_append_left _ hd, hid, .inl ⟨hf, hs⟩⟩
  cases s with
  | watcher id =>
      simp only [requests, finding] at hq
      cases hw : (c.arm id).watchers.find? (·.handle = id) with
      | none => simp [hw] at hq
      | some w =>
          have harmed := hl.arm id
          rcases harmed.watcher_of_find? hw with ⟨hmem, hid, _⟩
          rcases harmed.watchers w hmem with ⟨d, hd, rfl⟩
          obtain rfl : d.id = id := hid
          rw [hw, Option.bind_some] at hq
          split at hq
          · next reason hcause =>
            rw [List.mem_singleton.mp hq]
            exact ⟨d, List.mem_append_left _ hd, rfl,
              justifies_of_causeFor (fun _ => harmed.time_le hd) hcause⟩
          · exact absurd hq List.not_mem_nil
  | op o =>
      cases o with
      | derive parent timeout =>
          refine ⟨c.next parent timeout, List.mem_append_right _ (List.mem_singleton.mpr rfl), ?_⟩
          simp only [requests] at hq
          split at hq
          · next hf =>
            rw [List.mem_singleton.mp hq]
            exact ⟨rfl, .inr ⟨hf, rfl⟩⟩
          · split at hq
            · next hparent =>
              rw [List.mem_singleton.mp hq]
              -- The new token is not the one the handle is derived below.
              have hsame : c.enrolled.isTokenCancelled parent = c.isTokenCancelled parent :=
                Forest.isCancelled_make hl.ordered (fun _ h => absurd h (by simp)) hs
              exact ⟨rfl, hsame.symm.trans hparent, .inr rfl⟩
            · exact absurd hq List.not_mem_nil
      | drop id =>
          have hlive : c.isLive id = true := hs
          simp only [requests] at hq
          split at hq
          · next hlast =>
            rw [List.mem_singleton.mp hq]
            rcases hknown hlive with ⟨d, hd, rfl⟩
            exact ⟨d, List.mem_append_left _ hd, rfl, rfl, clones_of_dropped hlive hlast⟩
          · exact absurd hq List.not_mem_nil
      | cancel id =>
          have hlive : c.isLive id = true := hs
          rw [List.mem_singleton.mp hq]
          rcases hknown hlive with ⟨d, hd, rfl⟩
          exact ⟨d, List.mem_append_left _ hd, rfl, rfl, hlive⟩
      | fire => exact hshutdown hq (.inl rfl)
      | signal => exact hshutdown hq (.inr rfl)
      | _ => exact absurd hq List.not_mem_nil

/-- Every success in a run goes back to a step that gave the handle its reason, and had
    a justification for that when it came. -/
theorem Recorded.justified_grants (hr : Recorded past c ds) {ss : List Step} (ho : c.Orderly ss)
    {q : Request} (hq : q ∈ c.grants ss) :
    ∃ d ∈ ds ++ c.derivations ss, d.id = q.handle ∧ ∃ before s after,
      ss = before ++ s :: after ∧ (c.steps before).reason? q.handle = none ∧
      ((c.steps before).step s).reason? q.handle = some q.reason ∧
      (c.steps before).Justifies s d q.reason := by
  induction ss generalizing c past ds with
  | nil => exact absurd hq List.not_mem_nil
  | cons s ss ih =>
      rcases List.mem_append.mp hq with hq | hq
      · rcases (mem_granted ho.1 q).mp hq with ⟨hnone, hsome⟩
        rcases hr.justified ho.1 (subset_cancelEach _ _ hq) with ⟨d, hd, hid, hjust⟩
        refine ⟨d, ?_, hid, [], s, ss, rfl, hnone, hsome, hjust⟩
        rw [derivations, ← List.append_assoc]
        exact List.mem_append_left _ hd
      · rcases ih (hr.step ho.1) ho.2 hq with
          ⟨d, hd, hid, before, s', after, rfl, hnone, hsome, hjust⟩
        refine ⟨d, ?_, hid, s :: before, s', after, rfl, hnone, hsome, hjust⟩
        rw [derivations, ← List.append_assoc]
        exact hd

/-- In an orderly run every handle has at most one reason for good. It is the one of the
    only request for it that was successful. And it goes back to one step of the run,
    before which the handle had no reason. A shutdown is the reason only for the call
    that shuts down or for a derivation after it, a parent only while the token above
    the handle is cancelled, and a request or a release only for somebody who has a
    clone of the handle or drops the last one. The time is the reason only for a handle
    whose timeout is over, or thirty years of it, and whose watcher finds the token
    above it not cancelled. -/
theorem reasons_are_first_and_justified (past : List Step) (ho : Orderly {} past) :
    let c := steps {} past
    ((grants {} past).map (·.handle)).Nodup ∧
    (∀ id reason, ⟨id, reason⟩ ∈ grants {} past ↔ c.reason? id = some reason) ∧
    (∀ more id reason,
      c.reason? id = some reason → (c.steps more).reason? id = some reason) ∧
    ∀ id reason, c.reason? id = some reason →
      ∃ d ∈ derivations {} past, d.id = id ∧ ∃ before s after,
        past = before ++ s :: after ∧ (steps {} before).reason? id = none ∧
        ((steps {} before).step s).reason? id = some reason ∧
        (steps {} before).Justifies s d reason := by
  intro c
  have hgrants (id : Nat) (reason : CancelReason) :
      ⟨id, reason⟩ ∈ grants {} past ↔ c.reason? id = some reason :=
    (mem_grants ho ⟨id, reason⟩).trans (and_iff_right rfl)
  refine ⟨nodup_grants ho, hgrants, fun more id reason h => (grows_steps c more).reason? h,
    fun id reason h => ?_⟩
  exact recorded_empty.justified_grants ho ((hgrants id reason).mpr h)

/-- A watcher that comes late finds two causes and goes by the first; a request that
    comes later still is not successful. -/
theorem parent_goes_before_time :
    let past : List Step := [.op (.makeToken none), .op (.derive 0 (some 10)), .op (.moveTo 10),
      .op (.cancelToken 0), .watcher 1, .op (.cancel 1)]
    let d : Derivation := ⟨1, 1, 0, some 10, 0⟩
    Orderly {} past ∧ ((grants {} past).map (·.handle)).Nodup ∧
      ⟨1, .parentCancelled⟩ ∈ grants {} past ∧ ∃ before s after,
        past = before ++ s :: after ∧ (steps {} before).reason? 1 = none ∧
        (steps {} before).Justifies s d .parentCancelled := by
  intro past d
  have ho : Orderly {} past := by decide
  have hreason : (steps {} past).reason? 1 = some .parentCancelled := by decide
  have hds : derivations {} past = [d] := by decide
  rcases reasons_are_first_and_justified past ho with ⟨hnodup, hgrants, _, hjust⟩
  rcases hjust 1 .parentCancelled hreason with
    ⟨d', hd', _, before, s, after, hpast, hnone, _, hjustifies⟩
  rw [hds, List.mem_singleton] at hd'
  rw [hd'] at hjustifies
  exact ⟨ho, hnodup, (hgrants 1 _).mpr hreason, before, s, after, hpast, hnone, hjustifies⟩

/-- The time of a handle with a timeout of a millisecond more than thirty years is the
    reason for its end when it is not over yet. -/
theorem time_is_the_reason_too_early :
    let past : List Step := [.op (.makeToken none), .op (.derive 0 (some 946080000001)),
      .watcher 1, .op (.moveTo 946080000000), .watcher 1]
    let c := steps {} past
    Orderly {} past ∧ c.reason? 1 = some .deadlineExceeded ∧
      ∀ d ∈ derivations {} past, ¬∃ ms ∈ d.timeout, d.time + ms ≤ c.now := by
  intro past c
  have hds : derivations {} past = [⟨1, 1, 0, some 946080000001, 0⟩] := by decide
  refine ⟨by decide +kernel, by decide +kernel, fun d hd => ?_⟩
  have hnow : c.now = 946080000000 := by decide +kernel
  rw [hds, List.mem_singleton] at hd
  simp [hd, hnow]

end Coordinator

end ChainSync
