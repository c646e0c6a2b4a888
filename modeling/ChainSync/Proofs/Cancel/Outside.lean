import ChainSync.Proofs.Cancel.Reach

/-!
# Operations Left Alone

What becomes of operations that nobody calls off.

The clock moves, a shutdown is asked for, and watchers have their turns: that much
may happen to operations from outside (`Passes`), in any order and any number of
times. As long as nobody cancels one of them and all of them are in use
(`Undisturbed`), a cancellation can be told by its error. It is for a shutdown, for the
operation's own time, or for the token above.

An operation below another one is cancelled for the other's token only after a turn of
a watcher. So if watchers have no turns for a while, what is cancelled in that time is
cancelled for a shutdown. Whether they do is therefore a parameter of `Passes`.

## Main definitions

* `Coordinator.Passes`: What may come from outside.
* `Coordinator.Undisturbed`: Operations that nobody calls off.

## Theorems

* `Coordinator.Passes.cancelled`: What is cancelled without a turn of a watcher.
* `Coordinator.Undisturbed.passes`, `Coordinator.Undisturbed.derive`: Operations go on
  undisturbed.
* `Coordinator.Undisturbed.cancellation`: What an error says.
* `Coordinator.passes_settle`: Settling comes from outside.
-/

namespace ChainSync

namespace Coordinator

variable {c c' c'' : Coordinator} {turns : Bool} {first : Nat → Option Nat} {ds : List Derivation}

/-! ## From outside -/

/-- A step that may come from outside, where the turns of watchers may be left out. -/
def Step.IsOuter (turns : Bool) : Step → Prop
  | .op (.moveTo _) => True
  | .op .fire => True
  | .op .signal => True
  | .op _ => False
  | .watcher _ => turns = true

/-- Orderly steps from outside lead from one coordinator to the other. -/
def Passes (turns : Bool) (c c' : Coordinator) : Prop :=
  ∃ ss, c.Orderly ss ∧ (∀ s ∈ ss, s.IsOuter turns) ∧ c' = c.steps ss

theorem now_cancelAll (c : Coordinator) (ids : List Nat) (reason : CancelReason) :
    (c.cancelAll ids reason).now = c.now := by
  induction ids generalizing c with
  | nil => rfl
  | cons id ids ih => rw [cancelAll_cons, ih, now_cancelWith]

theorem now_fire (c : Coordinator) : c.fire.2.now = c.now := by
  rw [fire_eq]
  split
  · rfl
  · exact now_cancelAll _ _ _

theorem orderly_append {ss ss' : List Step} :
    c.Orderly (ss ++ ss') ↔ c.Orderly ss ∧ (c.steps ss).Orderly ss' := by
  induction ss generalizing c with
  | nil => simp [Orderly]
  | cons s ss ih => simp only [List.cons_append, Orderly, steps_cons, ih, and_assoc]

namespace Passes

theorem refl (c : Coordinator) : c.Passes turns c :=
  ⟨[], trivial, fun _ hs => absurd hs List.not_mem_nil, rfl⟩

theorem trans (h : c.Passes turns c') (h' : c'.Passes turns c'') : c.Passes turns c'' := by
  rcases h with ⟨ss, ho, hall, rfl⟩
  rcases h' with ⟨ss', ho', hall', rfl⟩
  refine ⟨ss ++ ss', orderly_append.mpr ⟨ho, ho'⟩, fun s hs => ?_, ?_⟩
  · exact (List.mem_append.mp hs).elim (hall s) (hall' s)
  · exact (c.steps_append ss ss').symm

theorem step {s : Step} (hs : s.Possible c) (houter : s.IsOuter turns) :
    c.Passes turns (c.step s) :=
  ⟨[s], ⟨hs, trivial⟩, fun _ hs' => List.mem_singleton.mp hs' ▸ houter, rfl⟩

theorem mono (h : c.Passes turns c') : c.Passes true c' := by
  rcases h with ⟨ss, ho, hall, rfl⟩
  refine ⟨ss, ho, fun s hs => ?_, rfl⟩
  have houter := hall s hs
  cases s with
  | op o => cases o <;> exact houter
  | watcher id => rfl

/-- What every step from outside keeps. -/
theorem keeps {P : Coordinator → Prop}
    (hstep : ∀ c s, s.Possible c → s.IsOuter turns → P c → P (c.step s)) (h : c.Passes turns c')
    (hc : P c) : P c' := by
  rcases h with ⟨ss, ho, hall, rfl⟩
  induction ss generalizing c with
  | nil => exact hc
  | cons s ss ih =>
      rcases List.forall_mem_cons.mp hall with ⟨hs, hss⟩
      exact ih (hstep c s ho.1 hs hc) ho.2 hss

theorem grows (h : c.Passes turns c') : c.Grows c' := by
  rcases h with ⟨ss, _, _, rfl⟩
  exact c.grows_steps ss

theorem now_le (h : c.Passes turns c') : c.now ≤ c'.now := by
  refine h.keeps (P := fun c' => c.now ≤ c'.now) (fun c₁ s _ houter hle => ?_) (Nat.le_refl _)
  refine Nat.le_trans hle ?_
  cases s with
  | watcher id => exact Nat.le_of_eq (Aside.takeTurn c₁ id id).now.symm
  | op o =>
      cases o with
      | moveTo t => exact Nat.le_max_left _ _
      | fire => exact Nat.le_of_eq (now_fire c₁).symm
      | signal => exact Nat.le_of_eq (now_fire { c₁ with signals := c₁.signals + 1 }).symm
      | _ => exact absurd houter fun h => h

/-- Without a turn of a watcher it takes a shutdown to cancel anything. -/
theorem cancelled (h : c.Passes false c') {t : Nat} (ht : c'.isTokenCancelled t = true) :
    c.isTokenCancelled t = true ∨ c'.fired = true := by
  refine h.keeps (P := fun c' => c'.isTokenCancelled t = true →
    c.isTokenCancelled t = true ∨ c'.fired = true) (fun c₁ s _ houter ih ht => ?_) .inl ht
  cases s with
  | watcher id => exact absurd houter Bool.false_ne_true
  | op o =>
      cases o with
      | moveTo u => exact ih ht
      | fire => exact .inr ((fired_apply c₁ .fire).trans (Bool.or_true _))
      | signal => exact .inr ((fired_apply c₁ .signal).trans (Bool.or_true _))
      | _ => exact absurd houter fun h => h

end Passes

/-! ## Undisturbed operations -/

@[simp] theorem isLive_cancelWith (c : Coordinator) (id j : Nat) (reason : CancelReason) :
    (c.cancelWith id reason).2.isLive j = c.isLive j :=
  (Aside.cancelWith c (j + 1) id reason).live j (Nat.ne_of_lt (Nat.lt_succ_self j))

theorem isLive_cancelAll (c : Coordinator) (ids : List Nat) (reason : CancelReason) (j : Nat) :
    (c.cancelAll ids reason).isLive j = c.isLive j := by
  induction ids generalizing c with
  | nil => rfl
  | cons id ids ih => rw [cancelAll_cons, ih, isLive_cancelWith]

theorem isLive_fire (c : Coordinator) (j : Nat) : c.fire.2.isLive j = c.isLive j := by
  rw [fire_eq]
  split
  · rfl
  · exact isLive_cancelAll _ _ _ j

theorem isLive_step {s : Step} (houter : s.IsOuter turns) (j : Nat) :
    (c.step s).isLive j = c.isLive j := by
  cases s with
  | watcher id => exact (Aside.takeTurn c (j + 1) id).live j (Nat.ne_of_lt (Nat.lt_succ_self j))
  | op o =>
      cases o with
      | moveTo t => rfl
      | fire => exact isLive_fire c j
      | signal => exact isLive_fire { c with signals := c.signals + 1 } j
      | _ => exact absurd houter fun h => h

/-- A step that cancels nothing on request. -/
def Step.IsMild : Step → Prop
  | .op (.cancel _) => False
  | .op (.cancelToken _) => False
  | _ => True

theorem Step.IsOuter.isMild {s : Step} (h : s.IsOuter turns) : s.IsMild := by
  cases s with
  | watcher id => trivial
  | op o => cases o <;> first | exact h | trivial

/-- Operations that are all in use, and that nobody has called off. -/
structure Undisturbed (c : Coordinator) (ds : List Derivation) : Prop where
  recorded : ∃ past, Recorded past c ds ∧ ∀ s ∈ past, s.IsMild
  live : ∀ d ∈ ds, c.isLive d.id = true

namespace Undisturbed

theorem step (h : c.Undisturbed ds) {s : Step} (hs : s.Possible c) (hmild : s.IsMild)
    (hlive : ∀ d ∈ ds ++ (c.derivation? s).toList, (c.step s).isLive d.id = true) :
    (c.step s).Undisturbed (ds ++ (c.derivation? s).toList) := by
  rcases h.recorded with ⟨past, hr, hpast⟩
  refine ⟨⟨past ++ [s], hr.step hs, fun s' hs' => ?_⟩, hlive⟩
  exact (List.mem_append.mp hs').elim (hpast s') fun heq => List.mem_singleton.mp heq ▸ hmild

theorem passes (h : c.Undisturbed ds) (hpasses : c.Passes turns c') : c'.Undisturbed ds := by
  refine hpasses.keeps (P := (Undisturbed · ds)) (fun c s hs houter hc => ?_) h
  have hnone : c.derivation? s = none := by
    cases s with
    | watcher id => rfl
    | op o => cases o <;> first | rfl | exact absurd houter fun h => h
  have hstep := hc.step hs houter.isMild
  rw [hnone, Option.toList_none, List.append_nil] at hstep
  exact hstep fun d hd => (isLive_step houter d.id).trans (hc.live d hd)

/-- One more operation below a token. -/
theorem derive (h : c.Undisturbed ds) {parent : Nat} (hparent : parent < c.forest.tokens.length)
    (timeout : Option Nat) :
    (c.derive parent timeout).2.Undisturbed (ds ++ [c.next parent timeout]) := by
  rcases h.recorded with ⟨past, hr, _⟩
  -- The new handle is in use, and it has an id of its own.
  have hadded : ∀ d ∈ ds ++ [c.next parent timeout], c.added.isLive d.id = true := by
    intro d hd
    rcases List.mem_append.mp hd with hd | hd
    · rcases hr.tended.lineage.handle? hd with ⟨g, hg, _⟩
      have hlive := h.live d hd
      rw [isLive, hg] at hlive
      rw [isLive, handle?_added, hg, Option.some_or]
      exact hlive
    · have hid : d.id = c.nextId := by
        rw [List.mem_singleton.mp hd]
        rfl
      rw [hid, isLive, handle?_added, hr.sound.numbered.handle?_nextId, Option.none_or, if_pos rfl]
      rfl
  have hstep := h.step (s := .op (.derive parent timeout)) hparent trivial
  refine hstep fun d hd => ?_
  change (c.derive parent timeout).2.isLive d.id = true
  rw [derive_eq]
  simp only []
  split
  · rw [isLive_cancelWith]
    exact hadded d hd
  · split
    · rw [isLive_cancelWith]
      exact hadded d hd
    · exact hadded d hd

/-- The first token is that of no operation and below no other one. -/
theorem isTokenCancelled_zero (h : c.Undisturbed ds) : c.isTokenCancelled 0 = false := by
  rcases h.recorded with ⟨past, hr, hmild⟩
  have hlineage := hr.tended.lineage
  cases ht : c.isTokenCancelled 0 with
  | false => rfl
  | true =>
      rcases Forest.struck_or_parent hlineage.ordered ht with hstruck | ⟨token, p, hget, hp, _⟩
      · rcases hr.tended.accounted.plain 0 hstruck with ⟨d, hd, htoken⟩ | hmem
        · have habove := hlineage.above d hd
          omega
        · exact absurd (hmild _ hmem) fun h => h
      · exact absurd (hlineage.ordered 0 p token hget hp) (Nat.not_lt_zero p)

/-- What the error of a cancelled operation says. -/
theorem cancellation (h : c.Undisturbed ds) {d : Derivation} (hd : d ∈ ds) {err : SyncError}
    (herr : c.cancellation d.id = some err) :
    err.code = .cancelled ∧ (c.fired = true ∨ c.isTokenCancelled d.parent = true) ∨
      err.code = .deadlineExceeded ∧ ∃ ms ∈ d.timeout, d.time + min ms longestWait ≤ c.now := by
  rcases h.recorded with ⟨past, hr, hmild⟩
  have hlineage := hr.tended.lineage
  rcases hlineage.handle? hd with ⟨g, hg, htoken⟩
  unfold Coordinator.cancellation at herr
  split at herr
  · next hcancelled =>
    rw [hlineage.isCancelled hd] at hcancelled
    have hstruck := (hlineage.isTokenCancelled hd).mp hcancelled
    have hlive := h.live d hd
    rw [isLive, hg] at hlive
    cases hreason : g.reason with
    | none => exact absurd (hmild _ (hr.tended.accounted.bare d hd g hg hreason hstruck)) fun h => h
    | some r =>
        -- A request or a handle out of use could be the reason only for one that is disturbed.
        have hgrounds := hr.tended.accounted.reason d hd g hg r hreason
        rw [hg, Option.bind_some, Handle.error, hreason, Option.map_some, Option.getD_some] at herr
        rw [← Option.some.inj herr]
        cases r with
        | shutdown => exact .inl ⟨rfl, .inl hgrounds⟩
        | parentCancelled => exact .inl ⟨rfl, .inr hgrounds⟩
        | deadlineExceeded =>
            rcases (d.exists_deadline c.now).mp hgrounds with ⟨ms, hms, t, ht, hle⟩
            have hbegun := hlineage.time_le hd ht
            exact .inr ⟨rfl, ms, hms, by omega⟩
        | requested => exact absurd (hmild _ hgrounds) fun h => h
        | released =>
            have hdead : g.isLive = false := hgrounds
            simp [hdead] at hlive
  · exact absurd herr (by simp only [reduceCtorEq, not_false_eq_true])

end Undisturbed

theorem now_derive (c : Coordinator) (parent : Nat) (timeout : Option Nat) :
    (c.derive parent timeout).2.now = c.now := by
  rw [derive_eq]
  simp only []
  split
  · exact now_cancelWith ..
  · split
    · exact now_cancelWith ..
    · rfl

/-- Deriving an operation cancels nothing that has been there before. -/
theorem isTokenCancelled_derive (hl : c.Lineage first ds) (parent : Nat)
    (timeout : Option Nat) {t : Nat} (ht : t < c.forest.tokens.length) :
    (c.derive parent timeout).2.isTokenCancelled t = c.isTokenCancelled t := by
  have hnone : ∀ p ∈ (none : Option Nat), p < c.forest.tokens.length :=
    fun _ hp => absurd hp (by simp)
  have hadded : c.added.isTokenCancelled t = c.isTokenCancelled t :=
    Forest.isCancelled_make hl.ordered hnone ht
  -- The new token is above none of the others.
  have hcancelled (c₁ : Coordinator) (reason : CancelReason) (hforest : c₁.forest = c.added.forest)
      (hhandles : c₁.handles = c.added.handles) :
      (c₁.cancelWith c.nextId reason).2.isTokenCancelled t = c.isTokenCancelled t := by
    have hsame : c₁.isTokenCancelled t = c.isTokenCancelled t := by
      rw [← hadded, isTokenCancelled, isTokenCancelled, hforest]
    cases hbefore : c.isTokenCancelled t with
    | true => exact (grows_cancelWith c₁ _ _).isTokenCancelled (hsame.trans hbefore)
    | false =>
        cases hafter : (c₁.cancelWith c.nextId reason).2.isTokenCancelled t with
        | false => rfl
        | true =>
            rcases below_of_cancelWith hafter (hsame.trans hbefore) with ⟨g, hg, hbelow⟩
            rw [handle?, hhandles] at hg
            change c.added.handle? c.nextId = some g at hg
            rw [handle?_added, hl.numbered.handle?_nextId, Option.none_or, if_pos rfl] at hg
            rw [hforest] at hbelow
            have hle : g.token ≤ t := hbelow.le (hl.ordered.make hnone)
            rw [← Option.some.inj hg] at hle
            exact absurd ht (Nat.not_lt.mpr hle)
  rw [derive_eq]
  simp only []
  split
  · exact hcancelled c.added _ rfl rfl
  · split
    · exact hcancelled c.enrolled _ rfl rfl
    · exact hadded

/-! ## Time that passes -/

theorem passes_settle (c : Coordinator) : c.Passes true c.settle.2 := by
  rcases c.settle_orderly with ⟨ids, ho, heq, _⟩
  refine ⟨ids.map .watcher, ho, fun s hs => ?_, heq⟩
  rcases List.mem_map.mp hs with ⟨id, _, rfl⟩
  rfl

theorem passes_moveTo (c : Coordinator) (t : Nat) : c.Passes turns (c.moveTo t) :=
  .step (s := .op (.moveTo t)) trivial trivial

end Coordinator

end ChainSync
