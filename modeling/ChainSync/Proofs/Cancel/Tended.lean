import ChainSync.Proofs.Cancel.Lineage

/-!
# Tended Handles

What holds between the turns of an orderly run.

In the middle of settling a handle may be alive although the token above it has
been cancelled; its watcher has not had its turn yet. So an invariant cannot
speak of causes and cancellations only. It has to say who will act on a cause:
every handle that is not cancelled still has its watcher (`Watched`), and every
watcher that has a cause to act on has been woken (`Awake`). The opposite
direction is a matter of records: a reason is only ever given with grounds, and
a token is cancelled without one only if somebody cancelled that very token
(`Accounted`).

A cancellation keeps all of this, whoever asks for it, and so does every other
part that operations are made of. In two places a handle is without its watcher
for a moment (`Unattended`): when it has just been derived, and when its watcher has
found a cause.

## Main definitions

* `Coordinator.Watched`, `Coordinator.Awake`, `Coordinator.Accounted`: The
  invariants.
* `Coordinator.Grounds`: What a reason stands for.
* `Coordinator.Tended`: All of them, with the lineage.
* `Coordinator.Unattended`: All but the watcher of one handle.

## Theorems

* `Coordinator.Tended.cancelWith`, `Coordinator.Tended.derive`,
  `Coordinator.Tended.takeTurn`, …: What operations and turns keep.
-/

namespace ChainSync

namespace Coordinator

variable {c c' : Coordinator} {past past' : List Step} {first first' : Nat → Option Nat}
  {ds : List Derivation}

/-! ## Handles have their watchers -/

/-- Every handle that is not cancelled has its watcher. -/
def Watched (c : Coordinator) (first : Nat → Option Nat) (ds : List Derivation) : Prop :=
  ∀ d ∈ ds, c.isTokenCancelled d.token = false → d.watcher (first d.id) ∈ c.watchers

/-- What is not cancelled was not before. -/
theorem Grows.isTokenCancelled_false (h : c.Grows c') {t : Nat}
    (ht : c'.isTokenCancelled t = false) : c.isTokenCancelled t = false := by
  cases hc : c.isTokenCancelled t with
  | false => rfl
  | true => exact ht ▸ (h.isTokenCancelled hc).symm

theorem Watched.keep (hw : c.Watched first ds) (hgrow : c.Grows c')
    (heq : c'.watchers = c.watchers) : c'.Watched first ds := by
  intro d hd hnot
  rw [heq]
  exact hw d hd (hgrow.isTokenCancelled_false hnot)

/-! ## Watchers with a cause are woken -/

theorem causeFor_isSome (c : Coordinator) (w : Watcher) :
    (c.causeFor w).isSome = true ↔ c.isTokenCancelled w.own = true ∨
      c.isTokenCancelled w.parent = true ∨ ∃ t ∈ w.deadline, t ≤ c.now := by
  unfold causeFor
  split
  · next h => simp [h]
  · next h =>
    split
    · next h' => simp [h']
    · next h' =>
      split
      · next h'' =>
        cases hd : w.deadline with
        | none => simp [hd] at h''
        | some t =>
          refine iff_of_true rfl (.inr (.inr ⟨t, rfl, ?_⟩))
          simpa [hd] using h''
      · next h'' =>
        cases hd : w.deadline with
        | none => simp [h, h']
        | some t => simpa [hd, h, h'] using h''

/-- Every watcher that has something to do has been woken. Until its first turn it has to
    look around and set its timer. -/
def Awake (c : Coordinator) (first : Nat → Option Nat) : Prop :=
  ∀ w ∈ c.watchers, first w.handle = none ∨ (c.causeFor w).isSome = true → w.handle ∈ c.woken

namespace Awake

theorem keep (ha : c.Awake first) (hwatchers : ∀ w ∈ c'.watchers, w ∈ c.watchers)
    (hcause : ∀ w ∈ c'.watchers, (c'.causeFor w).isSome = true → (c.causeFor w).isSome = true)
    (hwoken : ∀ id ∈ c.woken, id ∈ c'.woken) : c'.Awake first :=
  fun w hw hc => hwoken _ (ha w (hwatchers w hw) (hc.imp_right (hcause w hw)))

/-- A cancelled token wakes the watchers it is the first cause for. -/
theorem cancelToken (ha : c.Awake first) (t : Nat) : (c.cancelToken t).Awake first := by
  intro w hw hcause
  by_cases hwoken : w.handle ∈ c.woken
  · exact List.mem_append_left _ hwoken
  refine List.mem_append_right _ (List.mem_map_of_mem (List.mem_filter.mpr ⟨hw, ?_⟩))
  have hnot := fun h => hwoken (ha w hw (.inr ((causeFor_isSome c w).mpr h)))
  have hown : c.forest.isCancelled w.own = false :=
    Bool.eq_false_iff.mpr fun h => hnot (.inl h)
  have hparent : c.forest.isCancelled w.parent = false :=
    Bool.eq_false_iff.mpr fun h => hnot (.inr (.inl h))
  -- Time has not moved, so the cause is one of the two tokens.
  have hcause := hcause.resolve_left fun hfirst => hwoken (ha w hw (.inl hfirst))
  rcases (causeFor_isSome _ w).mp hcause with h | h | h
  · have h' : (c.forest.cancel t).isCancelled w.own = true := h
    simp [h', hown, hwoken]
  · have h' : (c.forest.cancel t).isCancelled w.parent = true := h
    simp [h', hparent, hwoken]
  · exact absurd (.inr (.inr h)) hnot

theorem cancelWith (ha : c.Awake first) (id : Nat) (reason : CancelReason) :
    (c.cancelWith id reason).2.Awake first := by
  unfold Coordinator.cancelWith
  split
  · exact ha
  · refine cancelToken ?_ _
    exact ha.keep (fun _ hw => hw) (fun _ _ hc => hc) fun _ hid => hid

theorem makeToken (ha : c.Awake first) (hl : c.Lineage first ds) {parent : Option Nat}
    (hparent : ∀ t ∈ parent, t < c.forest.tokens.length) : (c.makeToken parent).2.Awake first := by
  refine ha.keep (fun _ hw => hw) (fun w hw hc => ?_) fun _ hid => hid
  -- Nobody waits for the new token.
  rcases hl.watchers w hw with ⟨d, hd, rfl⟩
  have hown : (d.watcher (first d.id)).own < c.forest.tokens.length := (hl.lt_length hd).1
  have habove : (d.watcher (first d.id)).parent < c.forest.tokens.length := (hl.lt_length hd).2
  have hsame {t : Nat} (ht : t < c.forest.tokens.length) :
      (c.makeToken parent).2.isTokenCancelled t = c.isTokenCancelled t :=
    Forest.isCancelled_make hl.ordered hparent ht
  rw [causeFor_isSome, hsame hown, hsame habove] at hc
  exact (causeFor_isSome c _).mpr hc

theorem mem_expired {w : Watcher} (hw : w ∈ c.watchers) {t : Nat} (hd : t ∈ w.deadline)
    (ht : t ≤ c.now) : w.handle ∈ c.expired := by
  refine List.mem_map.mpr ⟨(t, w.handle), List.mem_mergeSort.mpr ?_, rfl⟩
  refine List.mem_filterMap.mpr ⟨w, hw, ?_⟩
  simp [Option.mem_def.mp hd, ht]

theorem moveTo (ha : c.Awake first) (t : Nat) : (c.moveTo t).Awake first := by
  intro w hw hcause
  by_cases hwoken : w.handle ∈ c.woken
  · exact List.mem_append_left _ hwoken
  -- A cause that is not the time has been there before.
  have hnot := fun h => hwoken (ha w hw (.inr ((causeFor_isSome c w).mpr h)))
  have hcause := hcause.resolve_left fun hfirst => hwoken (ha w hw (.inl hfirst))
  rcases (causeFor_isSome _ w).mp hcause with h | h | ⟨u, hu, hle⟩
  · exact absurd (.inl h) hnot
  · exact absurd (.inr (.inl h)) hnot
  · refine List.mem_append_right _ (List.mem_filter.mpr ⟨?_, by simpa using hwoken⟩)
    exact mem_expired (c := { c with now := max c.now t }) hw hu hle

end Awake

/-! ## Reasons have grounds -/

/-- What a reason of a handle stands for. -/
def Grounds (past : List Step) (first : Nat → Option Nat) (c : Coordinator) (d : Derivation)
    (h : Handle) : CancelReason → Prop
  | .shutdown => c.fired = true
  | .parentCancelled => c.isTokenCancelled d.parent = true
  | .deadlineExceeded => ∃ t ∈ d.deadline (first d.id), t ≤ c.now
  | .requested => .op (.cancel d.id) ∈ past
  | .released => h.isLive = false

theorem own_of_causeFor {w : Watcher} (h : c.causeFor w = some .own) :
    c.isTokenCancelled w.own = true := by
  unfold causeFor at h
  split at h
  · assumption
  · split at h
    · simp at h
    · split at h <;> simp at h

/-- A watcher cancels its handle only with grounds. -/
theorem grounds_of_causeFor {d : Derivation} {h : Handle} {r : CancelReason}
    (hc : c.causeFor (d.watcher (first d.id)) = some (.cancel r)) : Grounds past first c d h r := by
  unfold causeFor at hc
  split at hc
  · simp at hc
  · split at hc
    · next hparent =>
      simp only [Option.some.injEq, Watcher.Cause.cancel.injEq] at hc
      rw [← hc]
      exact hparent
    · split at hc
      · next hdue =>
        simp only [Option.some.injEq, Watcher.Cause.cancel.injEq] at hc
        rw [← hc]
        cases hd : d.deadline (first d.id) with
        | none => simp [Derivation.watcher, hd] at hdue
        | some t => exact ⟨t, hd, by simpa [Derivation.watcher, hd] using hdue⟩
      · simp at hc

/-- Whoever has had his first turn keeps the time of it. -/
theorem Derivation.deadline_mono (d : Derivation)
    (hfirst : ∀ id t, first id = some t → first' id = some t) {t : Nat}
    (ht : t ∈ d.deadline (first d.id)) : t ∈ d.deadline (first' d.id) := by
  rcases Option.bind_eq_some_iff.mp ht with ⟨u, hu, ht⟩
  exact Option.bind_eq_some_iff.mpr ⟨u, hfirst d.id u hu, ht⟩

theorem Grounds.mono {d : Derivation} {h h' : Handle} {r : CancelReason} (hgrow : c.Grows c')
    (hnow : c.now ≤ c'.now) (hpast : ∀ s ∈ past, s ∈ past')
    (hlive : h.isLive = false → h'.isLive = false) (hg : Grounds past first c d h r) :
    Grounds past' first c' d h' r := by
  cases r with
  | shutdown => exact hgrow.fired hg
  | parentCancelled => exact hgrow.isTokenCancelled hg
  | deadlineExceeded =>
      rcases hg with ⟨t, ht, hle⟩
      exact ⟨t, ht, Nat.le_trans hle hnow⟩
  | requested => exact hpast _ hg
  | released => exact hlive hg

/-- Reasons have grounds, and a token is cancelled without a reason only if
    somebody cancelled that token. -/
structure Accounted (past : List Step) (first : Nat → Option Nat) (c : Coordinator)
    (ds : List Derivation) : Prop where
  reason : ∀ d ∈ ds, ∀ h, c.handle? d.id = some h → ∀ r, h.reason = some r →
    Grounds past first c d h r
  bare : ∀ d ∈ ds, ∀ h, c.handle? d.id = some h → h.reason = none → c.forest.Struck d.token →
    .op (.cancelToken d.token) ∈ past
  plain : ∀ t, c.forest.Struck t → (∃ d ∈ ds, d.token = t) ∨ .op (.cancelToken t) ∈ past

namespace Accounted

theorem keep (ha : Accounted past first c ds) (hgrow : c.Grows c') (hnow : c.now ≤ c'.now)
    (hpast : ∀ s ∈ past, s ∈ past')
    (hhandle : ∀ id h', c'.handle? id = some h' → ∃ h, c.handle? id = some h ∧
      h'.reason = h.reason ∧ (h.isLive = false → h'.isLive = false))
    (hstruck : ∀ t, c'.forest.Struck t → c.forest.Struck t) : Accounted past' first c' ds where
  reason := fun d hd h' hh' r hr => by
    rcases hhandle _ h' hh' with ⟨h, hh, hreason, hlive⟩
    exact (ha.reason d hd h hh r (hreason ▸ hr)).mono hgrow hnow hpast hlive
  bare := fun d hd h' hh' hr hs => by
    rcases hhandle _ h' hh' with ⟨h, hh, hreason, _⟩
    exact hpast _ (ha.bare d hd h hh (hreason ▸ hr) (hstruck _ hs))
  plain := fun t ht => (ha.plain t (hstruck t ht)).imp_right (hpast _)

/-- First turns that come later make no difference to reasons from before. -/
theorem later (ha : Accounted past first c ds)
    (hfirst : ∀ id t, first id = some t → first' id = some t) : Accounted past first' c ds where
  reason := fun d hd h hh r hr => by
    have hgrounds := ha.reason d hd h hh r hr
    cases r with
    | deadlineExceeded =>
        rcases hgrounds with ⟨t, ht, hle⟩
        exact ⟨t, d.deadline_mono hfirst ht, hle⟩
    | _ => exact hgrounds
  bare := ha.bare
  plain := ha.plain

theorem of_eq (ha : Accounted past first c ds) (hforest : c'.forest = c.forest)
    (hhandles : c'.handles = c.handles) (hfired : c.fired = true → c'.fired = true)
    (hnow : c.now ≤ c'.now) (hpast : ∀ s ∈ past, s ∈ past') : Accounted past' first c' ds := by
  refine ha.keep (.of_eq hforest hhandles hfired) hnow hpast (fun id h' hh' => ?_) fun t ht => ?_
  · rw [Coordinator.handle?, hhandles] at hh'
    exact ⟨h', hh', rfl, fun hlive => hlive⟩
  · rwa [hforest] at ht

theorem cancelToken (ha : Accounted past first c ds) {t : Nat} (ht : .op (.cancelToken t) ∈ past) :
    Accounted past first (c.cancelToken t) ds where
  reason := fun d hd h hh r hr =>
    (ha.reason d hd h hh r hr).mono (c.grows_cancelToken t) (Nat.le_refl _) (fun _ hs => hs) id
  bare := fun d hd h hh hr hs => by
    rcases (c.forest.struck_cancel t d.token).mp hs with hs | ⟨heq, _⟩
    · exact ha.bare d hd h hh hr hs
    · rwa [heq]
  plain := fun s hs => by
    rcases (c.forest.struck_cancel t s).mp hs with hs | ⟨heq, _⟩
    · exact ha.plain s hs
    · rw [heq]
      exact .inr ht

theorem struck_cancelWith {id t : Nat} {reason : CancelReason}
    (ht : (c.cancelWith id reason).2.forest.Struck t) :
    c.forest.Struck t ∨ ∃ h, c.handle? id = some h ∧ t = h.token := by
  cases hh : c.handle? id with
  | none =>
      simp only [Coordinator.cancelWith, hh] at ht
      exact .inl ht
  | some h =>
      simp only [Coordinator.cancelWith, hh] at ht
      exact ((c.forest.struck_cancel h.token t).mp ht).imp_right fun heq => ⟨h, rfl, heq.1⟩

/-- A cancellation is accounted for by the grounds of its reason. -/
theorem cancelWith (ha : Accounted past first c ds) (hl : c.Lineage first ds) (id : Nat)
    (reason : CancelReason)
    (hg : ∀ d ∈ ds, d.id = id → ∀ h, c.handle? id = some h → Grounds past first c d h reason) :
    Accounted past first (c.cancelWith id reason).2 ds := by
  have hgrow := c.grows_cancelWith id reason
  have hnow : c.now ≤ (c.cancelWith id reason).2.now := Nat.le_of_eq (now_cancelWith ..).symm
  refine ⟨fun d hd h' hh' r hr => ?_, fun d hd h' hh' hr hs => ?_, fun t ht => ?_⟩
  · rw [handle?_cancelWith] at hh'
    rcases Option.map_eq_some_iff.mp hh' with ⟨h, hh, heq⟩
    -- A handle out of use stays so.
    have hlive : h.isLive = false → h'.isLive = false := by
      rw [← heq]
      split <;> exact fun hlive => hlive
    have hgrounds : Grounds past first c d h r := by
      by_cases hid : d.id = id
      · -- The reason is the one from before, if there was one.
        rw [if_pos hid] at heq
        cases hbefore : h.reason with
        | some r' =>
            rw [← heq, hbefore, Option.some_or] at hr
            exact ha.reason d hd h hh r (hbefore.trans hr)
        | none =>
            rw [← heq, hbefore, Option.none_or] at hr
            exact Option.some.inj hr ▸ hg d hd hid h (hid ▸ hh)
      · rw [if_neg hid] at heq
        exact ha.reason d hd h hh r (heq ▸ hr)
    exact hgrounds.mono hgrow hnow (fun _ hs => hs) hlive
  · rw [handle?_cancelWith] at hh'
    rcases Option.map_eq_some_iff.mp hh' with ⟨h, hh, heq⟩
    by_cases hid : d.id = id
    · -- The handle has a reason now.
      rw [if_pos hid] at heq
      rw [← heq] at hr
      cases hbefore : h.reason <;> simp [hbefore] at hr
    · rw [if_neg hid] at heq
      rcases struck_cancelWith hs with hs | ⟨g, hg', htoken⟩
      · exact ha.bare d hd h hh (heq ▸ hr) hs
      · -- Tokens tell handles apart, so it is no other handle that was called off.
        rcases hl.of_handle? hg' with ⟨d', hd', hid', htoken'⟩
        have hsame := hl.eq_of_token hd hd' (htoken.trans htoken'.symm)
        exact absurd (hsame ▸ hid') hid
  · rcases struck_cancelWith ht with ht | ⟨h, hh, htoken⟩
    · exact ha.plain t ht
    · rcases hl.of_handle? hh with ⟨d, hd, _, htoken'⟩
      exact .inl ⟨d, hd, htoken'.trans htoken.symm⟩

/-- A new handle has neither a reason nor a cancelled token. -/
theorem added (ha : Accounted past first c ds) (hl : c.Lineage first ds) (parent : Nat)
    (timeout : Option Nat) : Accounted past first c.added (ds ++ [c.next parent timeout]) := by
  -- The handles from before are as they were, and the new one is untouched.
  have hold {d : Derivation} {h : Handle} (hd : d ∈ ds) (hh : c.added.handle? d.id = some h) :
      c.handle? d.id = some h := by
    rcases hl.handle? hd with ⟨g, hg, _⟩
    rw [handle?_added, hg, Option.some_or] at hh
    exact hg.trans hh
  have hnew {h : Handle} (hh : c.added.handle? c.nextId = some h) :
      h = { id := c.nextId, token := c.forest.tokens.length } := by
    rw [handle?_added, hl.numbered.handle?_nextId, Option.none_or, if_pos rfl] at hh
    exact (Option.some.inj hh).symm
  refine ⟨fun d hd h hh r hr => ?_, fun d hd h hh hr hs => ?_, fun t ht => ?_⟩
  · rcases List.mem_append.mp hd with hd | hd
    · exact (ha.reason d hd h (hold hd hh) r hr).mono c.grows_added (Nat.le_refl _)
        (fun _ hs => hs) id
    · rw [List.mem_singleton.mp hd] at hh
      rw [hnew hh] at hr
      exact absurd hr (by simp only [reduceCtorEq, not_false_eq_true])
  · rcases List.mem_append.mp hd with hd | hd
    · exact ha.bare d hd h (hold hd hh) hr ((c.forest.struck_make none _).mp hs)
    · rw [List.mem_singleton.mp hd] at hs
      have hlt := ((c.forest.struck_make none _).mp hs).lt
      exact absurd hlt (Nat.lt_irrefl _)
  · refine (ha.plain t ((c.forest.struck_make none t).mp ht)).imp_left ?_
    rintro ⟨d, hd, htoken⟩
    exact ⟨d, List.mem_append_left _ hd, htoken⟩

end Accounted

/-! ## All together -/

/-- What holds between the turns of an orderly run. -/
structure Tended (past : List Step) (first : Nat → Option Nat) (c : Coordinator)
    (ds : List Derivation) : Prop where
  lineage : c.Lineage first ds
  watched : c.Watched first ds
  awake : c.Awake first
  accounted : Accounted past first c ds

namespace Tended

theorem mono (ht : Tended past first c ds) (hpast : ∀ s ∈ past, s ∈ past') :
    Tended past' first c ds :=
  ⟨ht.lineage, ht.watched, ht.awake,
    ht.accounted.of_eq rfl rfl (fun hf => hf) (Nat.le_refl _) hpast⟩

theorem cancelWith (ht : Tended past first c ds) (id : Nat) (reason : CancelReason)
    (hg : ∀ d ∈ ds, d.id = id → ∀ h, c.handle? id = some h → Grounds past first c d h reason) :
    Tended past first (c.cancelWith id reason).2 ds where
  lineage := ht.lineage.cancelWith id reason
  watched := ht.watched.keep (c.grows_cancelWith id reason) (watchers_cancelWith ..)
  awake := ht.awake.cancelWith id reason
  accounted := ht.accounted.cancelWith ht.lineage id reason hg

theorem cancelToken (ht : Tended past first c ds) {t : Nat} (hpast : .op (.cancelToken t) ∈ past) :
    Tended past first (c.cancelToken t) ds where
  lineage := ht.lineage.cancelToken t
  watched := ht.watched.keep (c.grows_cancelToken t) rfl
  awake := ht.awake.cancelToken t
  accounted := ht.accounted.cancelToken hpast

theorem makeToken (ht : Tended past first c ds) {parent : Option Nat}
    (hparent : ∀ t ∈ parent, t < c.forest.tokens.length) :
    Tended past first (c.makeToken parent).2 ds where
  lineage := ht.lineage.makeToken hparent
  watched := ht.watched.keep (c.grows_makeToken parent) rfl
  awake := ht.awake.makeToken ht.lineage hparent
  accounted := ht.accounted.keep (c.grows_makeToken parent) (Nat.le_refl _) (fun _ hs => hs)
    (fun _ h hh => ⟨h, hh, rfl, id⟩) fun t hs => (c.forest.struck_make parent t).mp hs

/-- The number of clones matters only where it says that a handle is gone. -/
theorem setClones (ht : Tended past first c ds) (id : Nat) (f : Nat → Nat)
    (hf : ∀ h, c.handle? id = some h → h.isLive = false → f h.clones = 0) :
    Tended past first (c.modifyHandle id fun h => { h with clones := f h.clones }) ds := by
  have hgrow : c.Grows (c.modifyHandle id fun h => { h with clones := f h.clones }) :=
    c.grows_modifyHandle id _ (fun _ => rfl) (fun _ => rfl) fun _ _ hr => hr
  refine ⟨ht.lineage.modifyHandle id _ fun _ => rfl, ht.watched.keep hgrow rfl,
    ht.awake.keep (fun _ hw => hw) (fun _ _ hc => hc) fun _ hid => hid, ?_⟩
  refine ht.accounted.keep hgrow (Nat.le_refl _) (fun _ hs => hs) (fun j h' hh' => ?_)
    fun _ hs => hs
  rw [handle?_modifyHandle c id j (fun h => { h with clones := f h.clones }) fun _ => rfl] at hh'
  rcases Option.map_eq_some_iff.mp hh' with ⟨h, hh, heq⟩
  rw [← heq]
  refine ⟨h, hh, by split <;> rfl, fun hlive => ?_⟩
  by_cases hj : j = id
  · rw [if_pos hj, Handle.isLive, hf h (hj ▸ hh) hlive]
    rfl
  · rwa [if_neg hj]

theorem drop (ht : Tended past first c ds) (id : Nat) : Tended past first (c.drop id) ds := by
  have hdropped : Tended past first (c.dropped id) ds :=
    ht.setClones id (· - 1) fun h _ hlive => by
      simp only [Handle.isLive, decide_eq_false_iff_not] at hlive
      omega
  rw [drop_eq]
  split
  · next hlast =>
    -- The handle that is released has no clone left.
    refine hdropped.cancelWith id .released fun d _ _ h hh => ?_
    simp only [hh, Option.any_some, decide_eq_true_eq] at hlast
    simp [Grounds, Handle.isLive, hlast]
  · exact hdropped

theorem moveTo (ht : Tended past first c ds) (t : Nat) : Tended past first (c.moveTo t) ds where
  lineage := ht.lineage.of_eq rfl rfl (List.Sublist.refl _) (Nat.le_max_left _ _)
  watched := ht.watched.keep (c.grows_apply (.moveTo t)) rfl
  awake := ht.awake.moveTo t
  accounted := ht.accounted.of_eq rfl rfl (fun hf => hf) (Nat.le_max_left _ _) fun _ hs => hs

theorem cancelAll (ht : Tended past first c ds) (hf : c.fired = true) (ids : List Nat) :
    Tended past first (c.cancelAll ids .shutdown) ds := by
  induction ids generalizing c with
  | nil => exact ht
  | cons id ids ih =>
      refine ih (ht.cancelWith id .shutdown fun _ _ _ _ _ => hf) ?_
      rw [fired_cancelWith]
      exact hf

/-- The signals that came in are only counted. -/
theorem count (ht : Tended past first c ds) (signals : Nat) :
    Tended past first { c with signals } ds where
  lineage := ht.lineage.of_eq rfl rfl (List.Sublist.refl _) (Nat.le_refl _)
  watched := ht.watched.keep (.of_eq rfl rfl fun hf => hf) rfl
  awake := ht.awake.keep (fun _ hw => hw) (fun _ _ hc => hc) fun _ hid => hid
  accounted := ht.accounted.of_eq rfl rfl (fun hf => hf) (Nat.le_refl _) fun _ hs => hs

theorem fire (ht : Tended past first c ds) : Tended past first c.fire.2 ds := by
  rw [fire_eq]
  split
  · exact ht
  · have hstart : Tended past first { c with fired := true, registry := [] } ds :=
      ⟨ht.lineage.of_eq rfl rfl (List.Sublist.refl _) (Nat.le_refl _),
        ht.watched.keep (.of_eq rfl rfl fun _ => rfl) rfl,
        ht.awake.keep (fun _ hw => hw) (fun _ _ hc => hc) fun _ hid => hid,
        ht.accounted.of_eq rfl rfl (fun _ => rfl) (Nat.le_refl _) fun _ hs => hs⟩
    exact hstart.cancelAll rfl _

end Tended

/-! ## Handles without a watcher -/

/-- All of it, but that a handle may be without its watcher for the moment. -/
structure Unattended (past : List Step) (first : Nat → Option Nat) (c : Coordinator)
    (ds : List Derivation) (id : Nat) : Prop where
  lineage : c.Lineage first ds
  watched : ∀ d ∈ ds, d.id ≠ id → c.isTokenCancelled d.token = false →
    d.watcher (first d.id) ∈ c.watchers
  awake : c.Awake first
  accounted : Accounted past first c ds

namespace Unattended

variable {id : Nat}

/-- A handle that is cancelled needs no watcher. -/
theorem tended (hu : Unattended past first c ds id)
    (hdone : ∀ d ∈ ds, d.id = id → c.isTokenCancelled d.token = true) : Tended past first c ds where
  lineage := hu.lineage
  watched := fun d hd hnot =>
    hu.watched d hd (fun h => Bool.false_ne_true (hnot.symm.trans (hdone d hd h))) hnot
  awake := hu.awake
  accounted := hu.accounted

theorem cancelWith (hu : Unattended past first c ds id) (reason : CancelReason)
    (hg : ∀ d ∈ ds, d.id = id → ∀ h, c.handle? id = some h → Grounds past first c d h reason) :
    Tended past first (c.cancelWith id reason).2 ds := by
  have hgrow := c.grows_cancelWith id reason
  have hcancelled : Unattended past first (c.cancelWith id reason).2 ds id :=
    ⟨hu.lineage.cancelWith id reason,
      fun d hd hid hnot => by
        rw [watchers_cancelWith]
        exact hu.watched d hd hid (hgrow.isTokenCancelled_false hnot),
      hu.awake.cancelWith id reason, hu.accounted.cancelWith hu.lineage id reason hg⟩
  refine hcancelled.tended fun d hd hid => ?_
  rcases hu.lineage.handle? hd with ⟨h, hh, htoken⟩
  rw [← htoken]
  refine isTokenCancelled_cancelWith reason (hid ▸ hh) ?_
  rw [htoken]
  exact (hu.lineage.lt_length hd).1

/-- A new handle is unattended. -/
theorem added (ht : Tended past first c ds) {parent : Nat}
    (hparent : parent < c.forest.tokens.length) (timeout : Option Nat) :
    Unattended past first c.added (ds ++ [c.next parent timeout]) c.nextId where
  lineage := ht.lineage.added hparent timeout
  watched := fun d hd hid hnot => by
    rcases List.mem_append.mp hd with hd | hd
    · exact ht.watched d hd (c.grows_added.isTokenCancelled_false hnot)
    · rw [List.mem_singleton.mp hd] at hid
      exact absurd rfl hid
  awake := by
    have hmake : (c.makeToken none).2.Awake first :=
      ht.awake.makeToken ht.lineage fun _ h => absurd h (by simp)
    exact hmake
  accounted := ht.accounted.added ht.lineage parent timeout

theorem enrolled (hu : Unattended past first c.added ds c.nextId) :
    Unattended past first c.enrolled ds c.nextId where
  lineage := hu.lineage.of_eq rfl rfl (List.Sublist.refl _) (Nat.le_refl _)
  watched := hu.watched
  awake := hu.awake.keep (fun _ hw => hw) (fun _ _ hc => hc) fun _ hid => hid
  accounted := hu.accounted.of_eq rfl rfl (fun hf => hf) (Nat.le_refl _) fun _ hs => hs

/-- A handle that gets its watcher is attended to; the watcher is to look around
    once. -/
theorem watch {d : Derivation} (hu : Unattended past first c ds d.id) (hd : d ∈ ds) :
    Tended past first
      { c with watchers := c.watchers ++ [d.watcher (first d.id)], woken := c.woken ++ [d.id] }
      ds := by
  refine ⟨?_, fun x hx hnot => ?_, fun w hw hcause => ?_,
    hu.accounted.of_eq rfl rfl (fun hf => hf) (Nat.le_refl _) fun _ hs => hs⟩
  · exact hu.lineage.watch hd _
  · by_cases hid : x.id = d.id
    · rw [hu.lineage.eq_of_id hx hd hid]
      exact List.mem_append_right _ (List.mem_singleton.mpr rfl)
    · exact List.mem_append_left _ (hu.watched x hx hid hnot)
  · rcases List.mem_append.mp hw with hw | hw
    · exact List.mem_append_left _ (hu.awake w hw hcause)
    · rw [List.mem_singleton.mp hw]
      exact List.mem_append_right _ (List.mem_singleton.mpr rfl)

/-- So is a handle whose watcher has come to its end. -/
theorem retired (ht : Tended past first c ds) (id : Nat) :
    Unattended past first (({ c with woken := c.woken.erase id } : Coordinator).retired id) ds
      id where
  lineage := ht.lineage.of_eq rfl rfl List.filter_sublist (Nat.le_refl _)
  watched := fun d hd hid hnot => by
    have hother : (d.watcher (first d.id)).handle ≠ id := hid
    exact List.mem_filter.mpr ⟨ht.watched d hd hnot, by simpa using hother⟩
  awake := fun w hw hcause => by
    rcases List.mem_filter.mp hw with ⟨hw, hother⟩
    exact (List.mem_erase_of_ne (by simpa using hother)).mpr (ht.awake w hw hcause)
  accounted := ht.accounted.of_eq rfl rfl (fun hf => hf) (Nat.le_refl _) fun _ hs => hs

end Unattended

namespace Tended

theorem derive (ht : Tended past first c ds) {parent : Nat}
    (hparent : parent < c.forest.tokens.length) (timeout : Option Nat) :
    Tended past first (c.derive parent timeout).2 (ds ++ [c.next parent timeout]) := by
  have hadded := Unattended.added ht hparent timeout
  have hlast : c.next parent timeout ∈ ds ++ [c.next parent timeout] :=
    List.mem_append_right _ (List.mem_singleton.mpr rfl)
  rw [derive_eq]
  simp only []
  split
  · next hf => exact hadded.cancelWith .shutdown fun _ _ _ _ _ => hf
  · split
    · next hcancelled =>
      refine hadded.enrolled.cancelWith .parentCancelled fun d hd hid _ _ => ?_
      rw [hadded.lineage.eq_of_id hd hlast hid]
      exact hcancelled
    · have hwatch := hadded.enrolled.watch hlast
      -- The new watcher has had no turn, so its timer is not set.
      rw [show first (c.next parent timeout).id = none from ht.lineage.first_nextId] at hwatch
      exact hwatch

/-- A watcher that is awake may set its timer. -/
theorem arm (ht : Tended past first c ds) {id : Nat} (hid : id ∈ c.woken) :
    Tended past (c.noted first (.watcher id)) (c.arm id) ds where
  lineage := ht.lineage.arm id
  watched := fun d hd hnot => by
    have hw := ht.watched d hd hnot
    exact mem_arm.mpr ⟨_, hw, (c.arm_watcher hw id).symm⟩
  awake := fun w hw hcalled => by
    rcases mem_arm.mp hw with ⟨w', hw', rfl⟩
    by_cases hother : w'.handle = id
    · rw [if_pos hother]
      exact (show (c.armed w').handle = id from hother) ▸ hid
    · rw [if_neg hother] at hcalled ⊢
      rw [c.noted_of_ne first hother] at hcalled
      exact ht.awake w' hw' hcalled
  accounted := (ht.accounted.later fun _ _ => c.noted_of_some _).of_eq rfl rfl (fun hf => hf)
    (Nat.le_refl _) fun _ hs => hs

/-- A watcher that has had its turn without a cause goes on waiting, and so do
    the others. -/
theorem rest (ht : Tended past first c ds) {id : Nat}
    (hnone : ∀ w, c.watchers.find? (·.handle = id) = some w →
      first id ≠ none ∧ c.causeFor w = none) :
    Tended past first { c with woken := c.woken.erase id } ds where
  lineage := ht.lineage.of_eq rfl rfl (List.Sublist.refl _) (Nat.le_refl _)
  watched := ht.watched.keep (.of_eq rfl rfl fun hf => hf) rfl
  awake := fun w hw hcause => by
    by_cases hid : w.handle = id
    · cases hfind : c.watchers.find? (·.handle = id) with
      | none => exact absurd hid (by simpa using List.find?_eq_none.mp hfind w hw)
      | some w' =>
          -- It is the one that has just looked around.
          rcases hnone w' hfind with ⟨hbegun, hnone⟩
          have hcause := hcause.resolve_left fun h => hbegun (hid ▸ h)
          rw [(ht.lineage.watcher_of_find? hfind).2.2 w hw hid] at hcause
          exact absurd hcause (Option.not_isSome_iff_eq_none.mpr hnone)
    · exact (List.mem_erase_of_ne hid).mpr (ht.awake w hw hcause)
  accounted := ht.accounted.of_eq rfl rfl (fun hf => hf) (Nat.le_refl _) fun _ hs => hs

/-- A watcher's turn ends it if it has found a cause, and only then. -/
theorem takeTurn (ht : Tended past first c ds) {id : Nat} (hid : id ∈ c.woken) :
    Tended past (c.noted first (.watcher id)) (c.takeTurn id) ds := by
  have harmed := ht.arm hid
  have hretired := Unattended.retired harmed id
  -- The watcher that has the turn is that of the handle's derivation.
  have hown {w : Watcher} (hw : (c.arm id).watchers.find? (·.handle = id) = some w)
      {d : Derivation} (hd : d ∈ ds) (hid : d.id = id) :
      w = d.watcher (c.noted first (.watcher id) d.id) := by
    rcases harmed.lineage.watcher_of_find? hw with ⟨hmem, hhandle, _⟩
    rcases harmed.lineage.watchers w hmem with ⟨d', hd', rfl⟩
    have hsame : d' = d := harmed.lineage.eq_of_id hd' hd (Eq.trans hhandle hid.symm)
    rw [hsame]
  rcases c.takeTurn_cases id with ⟨heq, hnone⟩ | ⟨w, hw, hcause, heq⟩ | ⟨w, reason, hw, hcause, heq⟩
  · rw [heq]
    refine harmed.rest fun w hw => ⟨?_, hnone w hw⟩
    -- It has had a turn now.
    have hhandle : id ∈ c.watchers.map (·.handle) := by
      rw [← c.handles_arm id]
      exact List.mem_map.mpr ⟨w, List.mem_of_find?_eq_some hw, by simpa using List.find?_some hw⟩
    rcases List.mem_map.mp hhandle with ⟨w', hw', hid'⟩
    have hnoted := c.noted_of_mem first hw'
    rw [hid'] at hnoted
    rw [hnoted]
    cases first id <;> simp
  · rw [heq, ← retired_arm]
    refine hretired.tended fun d hd hid => ?_
    rw [hown hw hd hid] at hcause
    exact own_of_causeFor hcause
  · rw [heq, ← retired_arm]
    refine hretired.cancelWith reason fun d hd hid h _ => ?_
    rw [hown hw hd hid] at hcause
    have hgrounds : Grounds past (c.noted first (.watcher id)) c d h reason :=
      grounds_of_causeFor hcause
    exact hgrounds.mono (.of_eq rfl rfl fun hf => hf) (Nat.le_refl _) (fun _ hs => hs)
      fun hlive => hlive

end Tended

end Coordinator

end ChainSync
