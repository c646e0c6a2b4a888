import ChainSync.Proofs.Cancel.Reasons

/-!
# Census

How many handles a coordinator counts as alive.

A coordinator counts the handles in its registry that have a clone left. Until the
shutdown every handle that is derived is registered, and one that has lost its last
clone never gets another one. So it makes no difference how often dead handles are
taken out of the registry in between, and the count is that of all handles somebody
still holds, cancelled or not (`Counted`).

The shutdown is what ends that. It empties the registry, and from then on nobody is
registered any more. The handles that were in use are still in use, since a handle is
not dropped by being cancelled, but they are not counted.

How many clones there are is said by the history alone: a handle begins with one, and
every time somebody clones or drops it there is one more or one less.

## Main definitions

* `Coordinator.Visit`, `Coordinator.visits`: Steps, and counts that clear the registry.
* `Coordinator.holders`: The clones of a handle.
* `Coordinator.Counted`: The invariant.

## Theorems

* `Coordinator.Counted.step`, `Coordinator.Counted.pruned`: What steps and counts keep.
* `Coordinator.active_handles_until_shutdown`: The count, at any time.
-/

namespace ChainSync

namespace Coordinator

variable {c : Coordinator}

/-! ## Histories -/

/-- A step, or somebody counts the handles that are alive. -/
inductive Visit where
  | step (s : Step)
  | count

/-- The coordinator after a count, which clears the registry of dead handles. -/
def pruned (c : Coordinator) : Coordinator := { c with registry := c.targets }

/-- The coordinator after a visit. -/
def visit (c : Coordinator) : Visit → Coordinator
  | .step s => c.step s
  | .count => c.pruned

/-- The coordinator after visits, one after the other. -/
def visits (c : Coordinator) (vs : List Visit) : Coordinator := vs.foldl visit c

/-- Visits that can come one after the other. -/
def Admits : Coordinator → List Visit → Prop
  | _, [] => True
  | c, .step s :: vs => s.Possible c ∧ Admits (c.step s) vs
  | c, .count :: vs => Admits c.pruned vs

instance decidableAdmits : (c : Coordinator) → (vs : List Visit) → Decidable (c.Admits vs)
  | _, [] => inferInstanceAs (Decidable True)
  | c, .step s :: vs =>
    have : Decidable ((c.step s).Admits vs) := decidableAdmits (c.step s) vs
    inferInstanceAs (Decidable (s.Possible c ∧ (c.step s).Admits vs))
  | c, .count :: vs => decidableAdmits c.pruned vs

namespace Visit

/-- Whether a handle is derived. -/
def isDerivation : Visit → Bool
  | step (.op (.derive _ _)) => true
  | _ => false

/-- Whether a handle gets one more clone. -/
def isClone (id : Nat) : Visit → Bool
  | step (.op (.clone j)) => j = id
  | _ => false

/-- Whether a clone of a handle is dropped. -/
def isDrop (id : Nat) : Visit → Bool
  | step (.op (.drop j)) => j = id
  | _ => false

/-- Whether somebody asks for a shutdown. -/
def isTrigger : Visit → Bool
  | step (.op o) => o.isTrigger
  | _ => false

end Visit

/-- The number of handles that were derived. -/
def derived (vs : List Visit) : Nat := vs.countP Visit.isDerivation

/-- Whether a handle has a clone left that was not dropped. A handle begins with one. -/
def isHeld (vs : List Visit) (id : Nat) : Bool :=
  vs.countP (Visit.isDrop id) < 1 + vs.countP (Visit.isClone id)

/-- The number of derived handles that somebody holds. -/
def held (vs : List Visit) : Nat := (List.range' 1 (derived vs)).countP (isHeld vs)

theorem derived_concat (vs : List Visit) (v : Visit) :
    derived (vs ++ [v]) = derived vs + if v.isDerivation then 1 else 0 := by
  rw [derived, List.countP_append, List.countP_singleton, derived]

/-! ## What requests leave alone -/

/-- The clones of a handle. One that is still to come will begin with one. -/
def holders (c : Coordinator) (id : Nat) : Nat := ((c.handle? id).map (·.clones)).getD 1

/-- Registered and alive are the same handles. -/
structure SameCensus (c c' : Coordinator) : Prop where
  length : c'.handles.length = c.handles.length
  clones : ∀ id, (c'.handle? id).map (·.clones) = (c.handle? id).map (·.clones)
  registry : c'.registry = c.registry
  fired : c'.fired = c.fired
  numbered : c.Numbered → c'.Numbered

namespace SameCensus

variable {c' c'' : Coordinator}

theorem trans (h : SameCensus c c') (h' : SameCensus c' c'') : SameCensus c c'' where
  length := h'.length.trans h.length
  clones := fun id => (h'.clones id).trans (h.clones id)
  registry := h'.registry.trans h.registry
  fired := h'.fired.trans h.fired
  numbered := h'.numbered ∘ h.numbered

theorem of_eq (hhandles : c'.handles = c.handles) (hregistry : c'.registry = c.registry)
    (hfired : c'.fired = c.fired) : SameCensus c c' := by
  refine ⟨by rw [hhandles], fun id => ?_, hregistry, hfired, fun hn => ?_⟩
  · rw [handle?, handle?, hhandles]
  · rwa [Numbered, hhandles]

theorem cancelWith (c : Coordinator) (id : Nat) (reason : CancelReason) :
    SameCensus c (c.cancelWith id reason).2 := by
  refine ⟨length_cancelWith .., fun j => ?_, registry_cancelWith .., fired_cancelWith ..,
    fun hn => hn.cancelWith id reason⟩
  rw [handle?_cancelWith, Option.map_map]
  congr 1
  funext h
  rw [Function.comp_apply]
  split <;> rfl

theorem cancelEach (c : Coordinator) (qs : List Request) : SameCensus c (c.cancelEach qs).2 := by
  induction qs generalizing c with
  | nil => exact of_eq rfl rfl rfl
  | cons q qs ih => exact (cancelWith c q.handle q.reason).trans (ih _)

theorem isLive (h : SameCensus c c') (id : Nat) : c'.isLive id = c.isLive id := by
  have hlive (c : Coordinator) :
      c.isLive id = (((c.handle? id).map (·.clones)).map fun n => decide (0 < n)).getD false := by
    rw [Coordinator.isLive, Option.map_map]
    rfl
  rw [hlive, hlive, h.clones]

end SameCensus

/-! ## Who is counted -/

/-- What a coordinator has counted. Until the shutdown the handles that it would cancel
    are those that are alive, and afterwards nobody is registered. -/
structure Counted (vs : List Visit) (c : Coordinator) : Prop where
  numbered : c.Numbered
  length : c.handles.length = derived vs
  fired : c.fired = vs.any Visit.isTrigger
  holders : ∀ id, c.holders id + vs.countP (Visit.isDrop id) = 1 + vs.countP (Visit.isClone id)
  known : ∀ id ∈ c.registry, id ≤ c.handles.length
  targets : c.fired = false → c.targets = (List.range' 1 c.handles.length).filter c.isLive
  emptied : c.fired = true → c.registry = []

/-- Handles that are no longer alive are not found among those that were. -/
theorem targets_of_le {c' : Coordinator} {ids : List Nat} (h : c.targets = ids.filter c.isLive)
    (hregistry : c'.registry = c.registry ∨ c'.registry = c.targets)
    (hlive : ∀ id, c'.isLive id = true → c.isLive id = true) :
    c'.targets = ids.filter c'.isLive := by
  have htwice (l : List Nat) : (l.filter c.isLive).filter c'.isLive = l.filter c'.isLive := by
    rw [List.filter_filter]
    refine List.filter_congr fun id _ => ?_
    cases hid : c'.isLive id with
    | false => rfl
    | true => rw [hlive id hid, Bool.and_true]
  have hsame : c'.targets = c.targets.filter c'.isLive := by
    rcases hregistry with heq | heq
    · rw [Coordinator.targets, heq, Coordinator.targets, htwice]
    · rw [Coordinator.targets, heq]
  rw [hsame, h, htwice]

section

variable {c' : Coordinator} (hhandles : c'.handles = c.added.handles)
include hhandles

theorem handle?_of_added (id : Nat) : c'.handle? id = (c.handle? id).or
    (if c.nextId = id then some { id := c.nextId, token := c.forest.tokens.length } else none) := by
  rw [handle?, hhandles]
  exact c.handle?_added id

/-- The number of clones of a new handle is the one it was said to begin with. -/
theorem holders_of_added (id : Nat) : c'.holders id = c.holders id := by
  rw [holders, holders, handle?_of_added hhandles]
  cases c.handle? id with
  | some h => rfl
  | none =>
      rw [Option.none_or]
      split <;> rfl

theorem isLive_of_added {id : Nat} (hid : id ≤ c.handles.length) :
    c'.isLive id = c.isLive id := by
  have hne : ¬c.nextId = id := by
    rw [nextId]
    omega
  rw [isLive, isLive, handle?_of_added hhandles, if_neg hne, Option.or_none]

theorem isLive_nextId_of_added (hn : c.Numbered) : c'.isLive c.nextId = true := by
  rw [isLive, handle?_of_added hhandles, hn.handle?_nextId, Option.none_or, if_pos rfl]
  rfl

end

namespace Counted

variable {c' : Coordinator} {vs : List Visit} {v : Visit}

theorem same (h : Counted vs c) (hsame : SameCensus c c') : Counted vs c' where
  numbered := hsame.numbered h.numbered
  length := hsame.length.trans h.length
  fired := hsame.fired.trans h.fired
  holders := fun id => by
    rw [Coordinator.holders, hsame.clones]
    exact h.holders id
  known := by
    rw [hsame.registry, hsame.length]
    exact h.known
  targets := fun hf => by
    rw [hsame.length]
    exact targets_of_le (h.targets (hsame.fired ▸ hf)) (.inl hsame.registry) fun id hid =>
      hsame.isLive id ▸ hid
  emptied := fun hf => hsame.registry.trans (h.emptied (hsame.fired ▸ hf))

/-- A visit that neither derives, clones or drops a handle nor asks for a shutdown. -/
theorem quiet (h : Counted vs c) (hderivation : v.isDerivation = false)
    (hclone : ∀ id, v.isClone id = false) (hdrop : ∀ id, v.isDrop id = false)
    (htrigger : v.isTrigger = false) : Counted (vs ++ [v]) c where
  numbered := h.numbered
  length := by
    rw [h.length, derived_concat, hderivation]
    rfl
  fired := by simp [htrigger, h.fired]
  holders := fun id => by simp [hclone, hdrop, h.holders]
  known := h.known
  targets := h.targets
  emptied := h.emptied

/-- A count changes nothing but that dead handles are forgotten. -/
theorem pruned (h : Counted vs c) : Counted (vs ++ [.count]) c.pruned := by
  have hq : Counted (vs ++ [.count]) c := h.quiet rfl (fun _ => rfl) (fun _ => rfl) rfl
  refine ⟨hq.numbered, hq.length, hq.fired, hq.holders, fun id hid => ?_, fun hf => ?_, fun hf => ?_⟩
  · exact hq.known id (List.mem_filter.mp hid).1
  · exact targets_of_le (hq.targets hf) (.inr rfl) fun _ hid => hid
  · simp only [Coordinator.pruned, Coordinator.targets, hq.emptied hf, List.filter_nil]

/-- A new handle has one clone, and it is registered unless there was a shutdown. -/
theorem derive (h : Counted vs c) (parent : Nat) (timeout : Option Nat)
    (hhandles : c'.handles = c.added.handles) (hfired : c'.fired = c.fired)
    (hregistry : c'.registry = if c.fired then c.registry else c.registry ++ [c.nextId]) :
    Counted (vs ++ [.step (.op (.derive parent timeout))]) c' := by
  have hlength : c'.handles.length = c.nextId := by
    rw [hhandles, Coordinator.added, List.length_append]
    rfl
  refine ⟨?_, ?_, ?_, fun id => ?_, fun id hid => ?_, fun hf => ?_, fun hf => ?_⟩
  · rw [Numbered, hhandles]
    exact h.numbered.added
  · rw [hlength, nextId, h.length, derived_concat]
    rfl
  · rw [hfired, h.fired, List.any_append]
    exact (Bool.or_false _).symm
  · rw [holders_of_added hhandles, List.countP_append, List.countP_append]
    exact h.holders id
  · rw [hlength, nextId]
    rw [hregistry] at hid
    split at hid
    · exact Nat.le_succ_of_le (h.known id hid)
    · rcases List.mem_append.mp hid with hid | hid
      · exact Nat.le_succ_of_le (h.known id hid)
      · rw [List.mem_singleton.mp hid]
        exact Nat.le_refl _
  · rw [hfired] at hf
    -- Whoever is counted goes on being counted, and the new handle is counted as well.
    have hregistered : c.registry.filter c'.isLive = c.targets :=
      List.filter_congr fun id hid => isLive_of_added hhandles (h.known id hid)
    have hids : (List.range' 1 c.handles.length).filter c'.isLive =
        (List.range' 1 c.handles.length).filter c.isLive := by
      refine List.filter_congr fun id hid => isLive_of_added hhandles ?_
      have := List.mem_range'_1.mp hid
      omega
    have hnew : [c.nextId].filter c'.isLive = [c.nextId] := by
      rw [List.filter_cons_of_pos (isLive_nextId_of_added hhandles h.numbered), List.filter_nil]
    have hrange : List.range' 1 c.nextId = List.range' 1 c.handles.length ++ [c.nextId] := by
      rw [nextId, List.range'_1_concat, Nat.add_comm 1]
    rw [Coordinator.targets, hregistry, hf, if_neg Bool.false_ne_true, List.filter_append,
      hregistered, h.targets hf, hlength, hrange, List.filter_append, hids, hnew]
  · rw [hfired] at hf
    rw [hregistry, hf, if_pos rfl, h.emptied hf]

/-- The number of clones of a live handle changes by one. -/
theorem setClones (h : Counted vs c) (id : Nat) (f : Nat → Nat) (hlive : c.isLive id = true)
    (hderivation : v.isDerivation = false) (htrigger : v.isTrigger = false)
    (hown : ∀ n, 0 < n → f n + (if v.isDrop id then 1 else 0) =
      n + if v.isClone id then 1 else 0)
    (hothers : ∀ j, j ≠ id → v.isClone j = false ∧ v.isDrop j = false) :
    Counted (vs ++ [v]) (c.modifyHandle id fun g => { g with clones := f g.clones }) := by
  have hh (j : Nat) : (c.modifyHandle id fun g => { g with clones := f g.clones }).handle? j =
      (c.handle? j).map fun g => if j = id then { g with clones := f g.clones } else g := by
    rw [handle?_modifyHandle]
    exact fun _ => rfl
  have hlength : (c.modifyHandle id fun g => { g with clones := f g.clones }).handles.length =
      c.handles.length := List.length_map _
  -- Only a handle that is alive is cloned or dropped, so no other one comes alive.
  have hfewer (j : Nat)
      (hj : (c.modifyHandle id fun g => { g with clones := f g.clones }).isLive j = true) :
      c.isLive j = true := by
    by_cases hid : j = id
    · exact hid ▸ hlive
    · rw [isLive, hh] at hj
      simpa [isLive, hid] using hj
  refine ⟨h.numbered.modifyHandle id _ fun _ => rfl, ?_, ?_, fun j => ?_, fun j hj => ?_,
    fun hf => ?_, h.emptied⟩
  · rw [hlength, h.length, derived_concat, hderivation]
    rfl
  · have hsame := h.fired
    simp only [List.any_append, List.any_cons, List.any_nil, htrigger, Bool.or_false]
    exact hsame
  · have hbefore := h.holders j
    simp only [List.countP_append, List.countP_singleton]
    by_cases hid : j = id
    · cases hg : c.handle? id with
      | none => simp [isLive, hg] at hlive
      | some g =>
          have hpos : 0 < g.clones := by simpa [isLive, hg, Handle.isLive] using hlive
          have := hown g.clones hpos
          simp only [Coordinator.holders, hh, hid, hg, Option.map_some, Option.getD_some,
            if_true] at hbefore ⊢
          omega
    · rcases hothers j hid with ⟨hclone, hdrop⟩
      simp only [Coordinator.holders, hh, hid, if_false, Option.map_id', hclone, hdrop,
        Bool.false_eq_true] at hbefore ⊢
      exact hbefore
  · rw [hlength]
    exact h.known j hj
  · rw [hlength]
    exact targets_of_le (h.targets hf) (.inl rfl) hfewer

/-- A shutdown empties the registry. -/
theorem closed (h : Counted vs c) {o : Op} (ho : o.isTrigger = true) :
    Counted (vs ++ [.step (.op o)]) c.closed := by
  have hkeeps (id : Nat) : (Visit.step (.op o)).isClone id = false ∧
      (Visit.step (.op o)).isDrop id = false ∧ (Visit.step (.op o)).isDerivation = false := by
    cases o with
    | fire => exact ⟨rfl, rfl, rfl⟩
    | signal => exact ⟨rfl, rfl, rfl⟩
    | _ => exact absurd ho Bool.false_ne_true
  have hhandles : c.closed.handles = c.handles := by
    rw [Coordinator.closed]
    split <;> rfl
  have hfired : c.closed.fired = true := by
    rw [Coordinator.closed]
    split
    · assumption
    · rfl
  have hregistry : c.closed.registry = [] := by
    rw [Coordinator.closed]
    split
    · next hf => exact h.emptied hf
    · rfl
  refine ⟨?_, ?_, ?_, fun id => ?_, fun id hid => ?_, fun hf => ?_, fun _ => hregistry⟩
  · rw [Numbered, hhandles]
    exact h.numbered
  · rw [hhandles, h.length, derived_concat, (hkeeps 0).2.2]
    rfl
  · rw [hfired, List.any_append]
    exact (Bool.or_eq_true_iff.mpr (.inr ((Bool.or_false _).trans ho))).symm
  · rw [Coordinator.holders, handle?, hhandles, List.countP_append, List.countP_append,
      List.countP_singleton, List.countP_singleton, (hkeeps id).1, (hkeeps id).2.1]
    exact h.holders id
  · rw [hregistry] at hid
    exact absurd hid List.not_mem_nil
  · exact absurd (hfired.symm.trans hf) (by simp)

/-- What a step keeps. What it asks of handles makes no difference to who is counted. -/
theorem step (h : Counted vs c) {s : Step} (hs : s.Possible c) :
    Counted (vs ++ [.step s]) (c.step s) := by
  rw [← cancelEach_requests]
  refine same ?_ (SameCensus.cancelEach _ _)
  have hquiet {c' : Coordinator} (hsame : SameCensus c c')
      (hderivation : (Visit.step s).isDerivation = false)
      (hclone : ∀ id, (Visit.step s).isClone id = false)
      (hdrop : ∀ id, (Visit.step s).isDrop id = false)
      (htrigger : (Visit.step s).isTrigger = false) : Counted (vs ++ [.step s]) c' :=
    (h.quiet hderivation hclone hdrop htrigger).same hsame
  cases s with
  | watcher id =>
      refine hquiet ?_ rfl (fun _ => rfl) (fun _ => rfl) rfl
      simp only [prepared]
      split
      · exact .of_eq rfl rfl rfl
      · exact .of_eq rfl rfl rfl
  | op o =>
      cases o with
      | derive parent timeout =>
          have hprepared : (c.prepared (.op (.derive parent timeout))).handles = c.added.handles ∧
              (c.prepared (.op (.derive parent timeout))).fired = c.fired ∧
              (c.prepared (.op (.derive parent timeout))).registry =
                if c.fired then c.registry else c.registry ++ [c.nextId] := by
            simp only [prepared]
            split
            · exact ⟨rfl, rfl, rfl⟩
            · split <;> exact ⟨rfl, rfl, rfl⟩
          exact h.derive parent timeout hprepared.1 hprepared.2.1 hprepared.2.2
      | clone id =>
          refine h.setClones id (· + 1) hs rfl rfl (fun n _ => ?_) fun j hj => ?_
          · simp [Visit.isClone, Visit.isDrop]
          · simp [Visit.isClone, Visit.isDrop, Ne.symm hj]
      | drop id =>
          refine h.setClones id (· - 1) hs rfl rfl (fun n hn => ?_) fun j hj => ?_
          · simp only [Visit.isClone, Visit.isDrop, decide_true, if_true, Bool.false_eq_true,
              if_false]
            omega
          · simp [Visit.isClone, Visit.isDrop, Ne.symm hj]
      | fire => exact h.closed rfl
      | signal =>
          have hcount : Counted vs { c with signals := c.signals + 1 } :=
            h.same (.of_eq rfl rfl rfl)
          exact hcount.closed rfl
      | turn id => exact absurd hs fun h => h
      | reschedule woken => exact absurd hs fun h => h
      | makeToken parent => exact hquiet (.of_eq rfl rfl rfl) rfl (fun _ => rfl) (fun _ => rfl) rfl
      | cancel id => exact hquiet (.of_eq rfl rfl rfl) rfl (fun _ => rfl) (fun _ => rfl) rfl
      | cancelToken t => exact hquiet (.of_eq rfl rfl rfl) rfl (fun _ => rfl) (fun _ => rfl) rfl
      | moveTo t => exact hquiet (.of_eq rfl rfl rfl) rfl (fun _ => rfl) (fun _ => rfl) rfl

theorem visits (h : Counted vs c) {more : List Visit} (ha : c.Admits more) :
    Counted (vs ++ more) (c.visits more) := by
  induction more generalizing c vs with
  | nil => rwa [List.append_nil]
  | cons v more ih =>
      rw [← List.singleton_append, ← List.append_assoc]
      cases v with
      | step s => exact ih (h.step ha.1) ha.2
      | count => exact ih h.pruned ha

/-- A handle of the coordinator is alive if the history says that it is held. -/
theorem isLive_eq (h : Counted vs c) {id : Nat} (hid : id ∈ c.handles.map (·.id)) :
    c.isLive id = isHeld vs id := by
  rcases List.mem_map.mp hid with ⟨g, hg, rfl⟩
  have hbefore := h.holders g.id
  have hfind := h.numbered.handle? hg
  simp only [Coordinator.holders, hfind, Option.map_some, Option.getD_some] at hbefore
  simp only [isLive, hfind, Option.map_some, Option.getD_some, Handle.isLive, isHeld]
  rw [decide_eq_decide]
  omega

end Counted

theorem counted_empty : Counted [] {} where
  numbered := rfl
  length := rfl
  fired := rfl
  holders := fun _ => rfl
  known := fun _ hid => absurd hid List.not_mem_nil
  targets := fun _ => rfl
  emptied := fun _ => rfl

/-- Until somebody asks for a shutdown, a coordinator counts all handles that somebody
    holds, in every state and whatever was done before, counts included. From then on it
    counts none, although those who hold one still do. -/
theorem active_handles_until_shutdown (vs : List Visit) (ha : Admits {} vs) :
    let c := visits {} vs
    c.handles.countP (·.isLive) = held vs ∧
    c.activeHandles = (if vs.any Visit.isTrigger then 0 else held vs) ∧
    (c.activeHandles = held vs ↔ vs.any Visit.isTrigger = false ∨ held vs = 0) := by
  intro c
  have h : Counted vs c := counted_empty.visits ha
  have hids : c.handles.map (·.id) = List.range' 1 (derived vs) := by
    rw [h.numbered, h.length]
  have hlive : (List.range' 1 (derived vs)).countP c.isLive = held vs := by
    refine List.countP_congr fun id hid => ?_
    rw [h.isLive_eq (hids ▸ hid)]
  have hcount : c.activeHandles = if vs.any Visit.isTrigger then 0 else held vs := by
    rw [← h.fired, activeHandles]
    cases hf : c.fired with
    | true => rw [targets, h.emptied hf, List.filter_nil, if_pos rfl, List.length_nil]
    | false =>
        rw [h.targets hf, h.length, ← List.countP_eq_length_filter, hlive,
          if_neg Bool.false_ne_true]
  refine ⟨?_, hcount, ?_⟩
  · rw [← hlive, ← hids, List.countP_map]
    refine List.countP_congr fun g hg => ?_
    rw [Function.comp_apply, isLive, h.numbered.handle? hg]
    rfl
  · rw [hcount]
    cases vs.any Visit.isTrigger with
    | true => simp [eq_comm]
    | false => simp

/-- A handle that is still held is not counted any more after a shutdown. -/
theorem held_handle_is_not_counted :
    let vs : List Visit := [.step (.op (.makeToken none)), .step (.op (.derive 0 none)),
      .step (.op (.clone 1)), .step (.op (.drop 1)), .count, .step (.op .fire)]
    let c := visits {} vs
    Admits {} vs ∧ held vs = 1 ∧ c.handles.countP (·.isLive) = 1 ∧ c.activeHandles = 0 := by
  intro vs c
  have ha : Admits {} vs := by decide
  have hheld : held vs = 1 := by decide
  rcases active_handles_until_shutdown vs ha with ⟨hlive, hcount, _⟩
  exact ⟨ha, hheld, hlive.trans hheld, hcount⟩

end Coordinator

end ChainSync
