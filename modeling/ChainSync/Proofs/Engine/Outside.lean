import ChainSync.Proofs.Cancel.Outside
import ChainSync.Proofs.Engine.Moves
import ChainSync.Proofs.Routine.Surely

/-!
# An Engine and the World Outside

What may happen to an engine that has one piece of work.

From outside come the clock, a shutdown and the turns of watchers; the session and the
slot are left to the work (`Outside`). A wait of the work is `attended` if its operations
are undisturbed at that time. Then the clock cannot get stuck: every move of it ends the
wait or a watcher, and no watcher comes back. So a routine that comes to its end under
this rule does so when the engine runs it (`run_of_surely`).

The waits of an engine do not depend on what the work is. The lemmas on `sleep` and
`untilStopped` speak of any condition that is kept from outside.

## Main definitions

* `Coordinator.Thins`: Watchers that come to their end.
* `Engine.Outside`: A step from outside.
* `Engine.attended`: Waits with undisturbed operations.

## Theorems

* `Engine.idle_reaches`: Time passes up to the time that is waited for.
* `Engine.run_of_surely`: A routine comes to its end when it is run.
* `Engine.surely_sleep`, `Engine.surely_untilStopped`: Waits.
-/

namespace ChainSync

namespace Coordinator

/-! ## Watchers that come to their end -/

/-- The watchers that are left are some of those from before. Their timers may have been
    set in the meantime, but one that had been set before goes off at the same time. -/
structure Thins (c c' : Coordinator) : Prop where
  handles : (c'.watchers.map (·.handle)).Sublist (c.watchers.map (·.handle))
  timer : ∀ w' ∈ c'.watchers, ∃ w ∈ c.watchers, w.handle = w'.handle ∧
    ∀ t, w.deadline = some t → w'.deadline = some t

namespace Thins

variable {c c' c'' : Coordinator}

theorem of_sublist (h : c'.watchers.Sublist c.watchers) : c.Thins c' :=
  ⟨h.map _, fun w hw => ⟨w, h.subset hw, rfl, fun _ ht => ht⟩⟩

theorem trans (h : c.Thins c') (h' : c'.Thins c'') : c.Thins c'' := by
  refine ⟨h'.handles.trans h.handles, fun w'' hw'' => ?_⟩
  rcases h'.timer w'' hw'' with ⟨w', hw', hhandle', htimer'⟩
  rcases h.timer w' hw' with ⟨w, hw, hhandle, htimer⟩
  exact ⟨w, hw, hhandle.trans hhandle', fun t ht => htimer' t (htimer t ht)⟩

theorem arm (c : Coordinator) (id : Nat) : c.Thins (c.arm id) := by
  refine ⟨c.handles_arm id ▸ List.Sublist.refl _, fun w' hw' => ?_⟩
  rcases mem_arm.mp hw' with ⟨w, hw, rfl⟩
  refine ⟨w, hw, by split <;> rfl, fun t ht => ?_⟩
  split
  · rw [armed, ht, Option.some_or]
  · exact ht

theorem takeTurn (c : Coordinator) (id : Nat) : c.Thins (c.takeTurn id) := by
  rcases c.takeTurn_cases id with ⟨heq, _⟩ | ⟨w, _, _, heq⟩ | ⟨w, reason, _, _, heq⟩
  · rw [heq]
    have harmed := arm { c with woken := c.woken.erase id } id
    exact ⟨harmed.handles, harmed.timer⟩
  · rw [heq]
    exact of_sublist List.filter_sublist
  · rw [heq]
    refine of_sublist ?_
    rw [watchers_cancelWith]
    exact List.filter_sublist

theorem turns (c : Coordinator) (ids : List Nat) : c.Thins (c.steps (ids.map .watcher)) := by
  induction ids generalizing c with
  | nil => exact of_sublist (List.Sublist.refl _)
  | cons id ids ih => exact (takeTurn c id).trans (ih (c.takeTurn id))

theorem settle (c : Coordinator) : c.Thins c.settle.2 := by
  rcases c.settle_orderly with ⟨ids, _, heq, _⟩
  rw [heq]
  exact turns c ids

theorem length_le (h : c.Thins c') : c'.watchers.length ≤ c.watchers.length := by
  simpa using h.handles.length_le

end Thins

theorem now_settle (c : Coordinator) : c.settle.2.now = c.now := by
  rcases c.settle_orderly with ⟨ids, _, heq, _⟩
  rw [heq]
  exact (Aside.turns c 0 ids).now

/-- The earlier one of two is one of the two. -/
theorem earlier_cases {s t : Option Nat} {u : Nat} (h : earlier s t = some u) :
    s = some u ∨ t = some u := by
  cases s with
  | none => exact .inr h
  | some s =>
      cases t with
      | none => exact .inl h
      | some t =>
          have hmin : min s t = u := Option.some.inj h
          rcases Nat.le_total s t with hle | hle
          · exact .inl (congrArg some ((Nat.min_eq_left hle).symm.trans hmin))
          · exact .inr (congrArg some ((Nat.min_eq_right hle).symm.trans hmin))

theorem mem_of_nextDeadline {c : Coordinator} {t : Nat} (h : c.nextDeadline = some t) :
    ∃ w ∈ c.watchers, w.deadline = some t := by
  -- The time that the fold begins with is there as well.
  have hfold (ws : List Watcher) (first : Option Nat)
      (h : ws.foldl (fun t w => earlier t w.deadline) first = some t) :
      first = some t ∨ ∃ w ∈ ws, w.deadline = some t := by
    induction ws generalizing first with
    | nil => exact .inl h
    | cons w ws ih =>
        rcases ih _ h with hfirst | ⟨w', hw', hd⟩
        · exact (earlier_cases hfirst).imp_right fun hd => ⟨w, List.mem_cons_self, hd⟩
        · exact .inr ⟨w', List.mem_cons_of_mem _ hw', hd⟩
  rcases hfold c.watchers none h with hnone | hw
  · exact absurd hnone (by simp only [reduceCtorEq, not_false_eq_true])
  · exact hw

/-- Moving the clock to a watcher's time ends that watcher. -/
theorem length_watchers_lt {c : Coordinator} {ds : List Derivation} (hu : c.Undisturbed ds)
    {w : Watcher} (hw : w ∈ c.watchers) {t : Nat} (ht : w.deadline = some t) :
    (c.moveTo t).settle.2.watchers.length < c.watchers.length := by
  have hmoved : c.Thins (c.moveTo t) := .of_sublist (List.Sublist.refl c.watchers)
  have hthins := hmoved.trans (.settle (c.moveTo t))
  have hmove : c.Passes true (c.moveTo t) := passes_moveTo c t
  have hafter := hu.passes (hmove.trans (c.moveTo t).passes_settle)
  rcases hu.recorded with ⟨_, hbefore, _⟩
  rcases hafter.recorded with ⟨_, hr, _⟩
  refine Nat.lt_of_le_of_ne hthins.length_le fun heq => ?_
  -- The watcher of the handle would be left, with its timer as it was.
  have hleft : w.handle ∈ (c.moveTo t).settle.2.watchers.map (·.handle) := by
    rw [hthins.handles.eq_of_length (by simpa using heq)]
    exact List.mem_map_of_mem hw
  rcases List.mem_map.mp hleft with ⟨w', hw', hhandle'⟩
  rcases hthins.timer w' hw' with ⟨v, hv, hhandle, htimer⟩
  have hsame : v = w :=
    hbefore.tended.lineage.eq_of_watcher hv hw (hhandle.trans hhandle')
  have ht' : t ∈ w'.deadline := htimer t (hsame ▸ ht)
  have hdue : t ≤ (c.moveTo t).settle.2.now := by
    rw [now_settle]
    exact Nat.le_max_right _ _
  -- But a watcher that is left has no cause, since nobody is woken any more.
  have hwoken := hr.tended.awake w' hw'
    (.inr ((causeFor_isSome _ w').mpr (.inr (.inr ⟨t, ht', hdue⟩))))
  rcases (c.moveTo t).settle_orderly with ⟨_, _, _, hnone⟩
  rw [hnone] at hwoken
  exact absurd hwoken List.not_mem_nil

end Coordinator

namespace Engine

open Routine

variable {χ : Type} {turns : Bool}

/-! ## Steps from outside -/

/-- A step from outside, which leaves the session, the slot and the part of whoever uses
    the engine alone. -/
structure Outside (turns : Bool) (e e' : Engine χ) : Prop where
  coordinator : e.coordinator.Passes turns e'.coordinator
  controller : e'.controller = e.controller
  own : e'.own = e.own
  slot : e'.slot = e.slot

namespace Outside

variable {e e' e'' : Engine χ}

theorem refl (e : Engine χ) : e.Outside turns e := ⟨.refl _, rfl, rfl, rfl⟩

theorem trans (h : e.Outside turns e') (h' : e'.Outside turns e'') : e.Outside turns e'' :=
  ⟨h.coordinator.trans h'.coordinator, h'.controller.trans h.controller, h'.own.trans h.own,
    h'.slot.trans h.slot⟩

theorem mono (h : e.Outside turns e') : e.Outside true e' :=
  ⟨h.coordinator.mono, h.controller, h.own, h.slot⟩

end Outside

theorem outside_settle (e : Engine χ) : e.Outside true e.settle :=
  ⟨e.coordinator.passes_settle, rfl, rfl, rfl⟩

theorem outside_moveTo (e : Engine χ) (t : Nat) : e.Outside turns (e.moveTo t) :=
  ⟨Coordinator.passes_moveTo _ t, rfl, rfl, rfl⟩

theorem outside_allowance (e : Engine χ) (n : Nat) : e.Outside turns { e with allowance := n } :=
  ⟨.refl _, rfl, rfl, rfl⟩

theorem outside_spans (e : Engine χ) (spans : List Span) : e.Outside turns { e with spans } :=
  ⟨.refl _, rfl, rfl, rfl⟩

theorem outside_note (e : Engine χ) (lines : List Line) : e.Outside turns (e.note lines) :=
  ⟨.refl _, rfl, rfl, rfl⟩

/-! ## Time -/

theorem outside_idleWithin (ready : Engine χ → Bool) (timer : Option Nat) (moves : Nat)
    (e : Engine χ) : e.Outside true (idleWithin ready timer moves e).2 := by
  induction moves generalizing e with
  | zero => exact .refl e
  | succ moves ih =>
      unfold idleWithin
      simp only []
      split
      · exact e.outside_settle
      · split
        · exact e.outside_settle
        · exact e.outside_settle.trans ((outside_moveTo _ _).trans (ih _))

/-- Once the time has come there is nothing more to wait for. -/
theorem idleWithin_of_due (ready : Engine χ → Bool) {t : Nat} (moves : Nat) {e : Engine χ}
    (hdue : t ≤ e.now) : t ≤ (idleWithin ready (some t) (moves + 1) e).2.now := by
  have hsettled : t ≤ e.settle.now :=
    Nat.le_trans hdue (Nat.le_of_eq e.coordinator.now_settle.symm)
  unfold idleWithin
  simp only [Option.map_some, Option.getD_some, decide_eq_true hsettled, Bool.or_true, if_true]
  exact hsettled

theorem idleWithin_reaches (ready : Engine χ → Bool) (t moves : Nat) (e : Engine χ)
    {ds : List Coordinator.Derivation} (hu : e.coordinator.Undisturbed ds)
    (hmoves : e.settle.coordinator.watchers.length + 2 ≤ moves) :
    ready (idleWithin ready (some t) moves e).2 = true ∨
      t ≤ (idleWithin ready (some t) moves e).2.now := by
  induction moves generalizing e with
  | zero => exact absurd hmoves (Nat.not_succ_le_zero _)
  | succ moves ih =>
      have hsettled := hu.passes e.outside_settle.coordinator
      -- The clock may move to the time that is waited for, and then there is a move left.
      have hlast : t ≤ (idleWithin ready (some t) moves (e.settle.moveTo t)).2.now := by
        obtain ⟨n, rfl⟩ : ∃ n, moves = n + 1 := ⟨moves - 1, by omega⟩
        exact idleWithin_of_due ready n (Nat.le_max_right _ _)
      unfold idleWithin
      simp only [Option.map_some, Option.getD_some]
      split
      · next hgo => simpa using hgo
      · cases hnext : e.settle.coordinator.nextDeadline with
        | none => exact .inr hlast
        | some u =>
            simp only [Coordinator.earlier]
            rcases Nat.le_total t u with hle | hle
            · rw [Nat.min_eq_left hle]
              exact .inr hlast
            · -- Or it moves to the time of a watcher, which comes to its end.
              rw [Nat.min_eq_right hle]
              rcases Coordinator.mem_of_nextDeadline hnext with ⟨w, hw, hd⟩
              have hlt := Coordinator.length_watchers_lt hsettled hw hd
              have hmove : e.settle.Outside true (e.settle.moveTo u) := outside_moveTo _ u
              refine ih _ (hsettled.passes hmove.coordinator) ?_
              change (e.settle.coordinator.moveTo u).settle.2.watchers.length + 2 ≤ moves
              omega

/-- Time passes until the state is as wanted or the time has come. -/
theorem idle_reaches (e : Engine χ) {ds : List Coordinator.Derivation}
    (hu : e.coordinator.Undisturbed ds) (ready : Engine χ → Bool) (t : Nat) :
    ready (e.idle ready (some t)).2 = true ∨ t ≤ (e.idle ready (some t)).2.now := by
  refine idleWithin_reaches ready t _ e hu ?_
  exact Nat.add_le_add_right (Coordinator.Thins.settle e.coordinator).length_le 2

/-! ## Runs -/

/-- Others run while the work waits, and the operations are undisturbed at that time. -/
def attended : WaitRule (Engine χ) := fun e _ K =>
  (∃ ds, e.coordinator.Undisturbed ds) ∧ ∀ e₁, e.Outside true e₁ → K e₁

theorem isMono_attended : (attended : WaitRule (Engine χ)).IsMono :=
  fun _ _ _ _ hK h => ⟨h.1, fun e₁ he₁ => hK e₁ (h.2 e₁ he₁)⟩

theorem isStable_attended : (attended : WaitRule (Engine χ)).IsStable (Outside turns) := by
  rintro e e₁ abandon K hout ⟨⟨ds, hu⟩, h⟩
  exact ⟨⟨ds, hu.passes hout.coordinator⟩, fun e₂ he₂ => h e₂ (hout.mono.trans he₂)⟩

/-- A routine that comes to its end among others does so when the engine runs it. -/
theorem run_of_surely {α : Type} {Q : α → Engine χ → Prop} {r : Routine (Engine χ) α}
    {e : Engine χ} (h : r.Surely (Outside turns) attended Q e) :
    ∃ a e', run none r e = (some a, e') ∧ Q a e' := by
  induction r generalizing e with
  | done a => exact ⟨a, e, rfl, h⟩
  | act change next ih => exact ih _ (h e (.refl e))
  | wait ready timer abandon next ih =>
      rcases h with ⟨htimer, ⟨ds, hu⟩, hnext⟩
      obtain ⟨t, rfl⟩ := Option.isSome_iff_exists.mp htimer
      have hout : e.Outside true (e.idle ready (some t)).2 := outside_idleWithin ..
      have hgo : (ready (e.idle ready (some t)).2 ||
          decide (t ≤ (e.idle ready (some t)).2.now)) = true := by
        simpa using e.idle_reaches hu ready t
      have hrun : run none (wait ready (some t) abandon next) e =
          run none next (e.idle ready (some t)).2.beginTurn := if_pos hgo
      rw [hrun]
      exact ih (hnext _ (hout.trans (outside_allowance _ _)))

theorem runsAmong_outside_of_run {α : Type} {limit : Option Nat} {r : Routine (Engine χ) α}
    {e e' : Engine χ} {a : α} (h : run limit r e = (some a, e')) :
    r.RunsAmong now (Outside true) e a e' :=
  runsAmong_of_idle .refl (fun _ ready timer => outside_idleWithin ready timer _ _)
    (fun e => outside_allowance e turnLength) h

/-- The spans of the work matter to nobody. -/
theorem surely_within {α : Type} {rule : WaitRule (Engine χ)} (hmono : rule.IsMono)
    (hstable : rule.IsStable (Outside turns)) {Q : α → Engine χ → Prop}
    (hQ : ∀ a (e e' : Engine χ), e.Outside turns e' → Q a e → Q a e') {span : Span}
    {r : Routine (Engine χ) α} {e : Engine χ} (h : r.Surely (Outside turns) rule Q e) :
    (within span r).Surely (Outside turns) rule Q e := by
  unfold within
  have htrans (e e' e'' : Engine χ) : e.Outside turns e' → e'.Outside turns e'' →
      e.Outside turns e'' := Outside.trans
  refine Surely.around htrans hmono hstable hQ ?_ ?_ h
  · exact fun e => outside_spans e _
  · exact fun e => outside_spans e _

/-! ## Waits -/

section

variable {rule : WaitRule (Engine χ)} {kind : (Engine χ → Engine χ) → Prop} {I : Engine χ → Prop}
  (h : Upholds (Outside turns) rule kind I) (hkind : kind id)
include h hkind

theorem surely_giveWayIfSpent {K : Unit → Engine χ → Prop} {e : Engine χ} (hI : I e)
    (hK : ∀ e, I e → K () e) : giveWayIfSpent.Surely (Outside turns) rule K e := by
  intro e₁ he₁
  have hI₁ := h.between he₁ hI
  change Surely (Outside turns) rule K (if e₁.allowance = 0 then giveWay else done ()) e₁
  split
  · exact ⟨rfl, h.waits hkind hI₁ hK⟩
  · exact hK e₁ hI₁

theorem surely_await {ready : Engine χ → Bool} {t : Nat} {K : Unit → Engine χ → Prop}
    {e : Engine χ} (hI : I e) (hK : ∀ e, I e → K () e) :
    (await ready (some t)).Surely (Outside turns) rule K e := by
  have hspend (e : Engine χ) (hI : I e) :
      (Routine.update fun e : Engine χ => { e with allowance := e.allowance - 1 }).Surely
        (Outside turns) rule K e :=
    fun e₁ he₁ => hK _ (h.between (he₁.trans (outside_allowance e₁ _)) hI)
  change (Routine.bind _ _).Surely (Outside turns) rule K e
  rw [surely_bind]
  refine surely_giveWayIfSpent h hkind hI fun e hI => ?_
  intro e₁ he₁
  have hI₁ := h.between he₁ hI
  cases hready : ready e₁ || ((some t).map (decide <| · ≤ e₁.now)).getD false with
  | true =>
      simp only [hready]
      exact hspend e₁ hI₁
  | false =>
      simp only [hready]
      exact ⟨rfl, h.waits hkind hI₁ hspend⟩

theorem surely_sleep {ms : Nat} {K : Unit → Engine χ → Prop} {e : Engine χ} (hI : I e)
    (hK : ∀ e, I e → K () e) : (sleep ms).Surely (Outside turns) rule K e :=
  fun _ he₁ => surely_await h hkind (h.between he₁ hI) hK

/-- Work that is done unless its operation has to stop. -/
theorem surely_untilStopped {α : Type} {handle : Nat} {work : Routine (Engine χ) α}
    {Q : Except SyncError α → Engine χ → Prop} {e : Engine χ} (hI : I e)
    (hgone : ∀ e reason, I e → stopReason handle e = some reason → Q (.error reason) e)
    (hwork : ∀ e, I e → stopReason handle e = none → work.Surely (Outside turns)
      (rule.givenUp (Outside turns) (stopReason handle) fun reason => Q (.error reason))
      (fun a => Q (.ok a)) e) :
    (untilStopped handle work).Surely (Outside turns) rule Q e := by
  intro e₁ he₁
  have hI₁ := h.between he₁ hI
  cases hstop : stopReason handle e₁ with
  | some reason =>
      simp only [hstop]
      exact hgone e₁ reason hI₁ hstop
  | none =>
      simp only [hstop]
      change (Routine.bind giveWayIfSpent _).Surely (Outside turns) rule Q e₁
      rw [surely_bind]
      refine surely_giveWayIfSpent (K := fun _ => (work.unlessStopped (stopReason handle)).Surely
        (Outside turns) rule Q) h hkind hI₁ fun e hI => surely_unlessStopped fun e₂ he₂ => ?_
      have hI₂ := h.between he₂ hI
      cases hstop₂ : stopReason handle e₂ with
      | some reason => exact hgone e₂ reason hI₂ hstop₂
      | none => exact hwork e₂ hI₂ hstop₂

end

end Engine

end ChainSync
