import ChainSync.Engine.Clock
import ChainSync.Proofs.Cancel.Steps
import ChainSync.Proofs.Controller.Calls
import ChainSync.Proofs.Routine.Among

/-!
# Moves of an Engine

What everybody may do to an engine while a session goes on.

Workers, drivers, watchers and the clock all change the one engine they share.
As long as nobody begins another session, they have two things in common: the
controller only gets calls of that session, and no cancelled operation
revives. `Moves` says so, and the rest of the engine is left open. The
theorems below show of each operation that it is a move, so a run among them
is one among `Moves`.

## Main definitions

* `Engine.Moves`: A step of anybody.

## Theorems

* `Engine.moves_report`, `Engine.moves_conclude`, `Engine.moves_apply`: The operations.
* `Engine.moves_idle`: Time that passes.
* `Engine.does_untilStopped`, `Engine.does_within`: Routines that only make moves.
* `Engine.runsAmong_of_run`: A routine that the engine runs to its end.
-/

namespace ChainSync

namespace Engine

variable {χ : Type}

/-- A step of anybody, which begins no session and revives no operation. -/
structure Moves (e e' : Engine χ) : Prop where
  calls : ∃ calls, e.controller.StaysOn calls ∧ e'.controller = e.controller.run calls
  cancelled : ∀ id, e.coordinator.isCancelled id = true → e'.coordinator.isCancelled id = true

namespace Moves

variable {e e' e'' : Engine χ}

theorem trans (h : e.Moves e') (h' : e'.Moves e'') : e.Moves e'' := by
  rcases h.calls with ⟨calls, hstay, hrun⟩
  rcases h'.calls with ⟨calls', hstay', hrun'⟩
  rw [hrun] at hstay' hrun'
  refine ⟨⟨calls ++ calls', Controller.staysOn_append.mpr ⟨hstay, hstay'⟩, ?_⟩,
    fun id hid => h'.cancelled id (h.cancelled id hid)⟩
  rw [hrun', Controller.run_append]

/-- A step that leaves the controller alone. -/
theorem of_grows (hcontroller : e'.controller = e.controller)
    (hgrows : e.coordinator.Grows e'.coordinator) : e.Moves e' :=
  ⟨⟨[], trivial, hcontroller⟩, fun _ hid => hgrows.isCancelled hid⟩

/-- A step that leaves the operations alone. -/
theorem of_call (call : Controller.Call) (hstay : e.controller.begins call = false)
    (hcontroller : e'.controller = e.controller.after call)
    (hcoordinator : e'.coordinator = e.coordinator) : e.Moves e' :=
  ⟨⟨[call], ⟨hstay, trivial⟩, hcontroller⟩, fun _ hid => hcoordinator ▸ hid⟩

/-- A step that leaves both alone. -/
theorem of_eq (hcontroller : e'.controller = e.controller)
    (hcoordinator : e'.coordinator = e.coordinator) : e.Moves e' :=
  of_grows hcontroller (hcoordinator ▸ .refl _)

theorem refl (e : Engine χ) : e.Moves e := of_eq rfl rfl

end Moves

/-! ## The operations -/

theorem moves_note (e : Engine χ) (lines : List Line) : e.Moves (e.note lines) := .of_eq rfl rfl

theorem moves_report (e : Engine χ) (r : Report) : e.Moves (e.report r).2 := by
  cases hreport : e.controller.report r e.instant with
  | ok c =>
      refine .of_call (.report r e.instant) rfl ?_ ?_
      · simp only [report, Controller.after, hreport]
      · simp only [report, hreport, tick, note]
  | error err =>
      refine .of_eq ?_ ?_
      · simp only [report, hreport, tick, note]
      · simp only [report, hreport, tick, note]

theorem moves_conclude (e : Engine χ) (error : Option SyncError) :
    e.Moves (e.conclude error).2 :=
  .of_call (.conclude error e.instant) rfl rfl rfl

/-- Whatever is done to handles and tokens. -/
theorem moves_apply (e : Engine χ) (op : Coordinator.Op) :
    e.Moves { e with coordinator := e.coordinator.apply op } :=
  .of_grows rfl (e.coordinator.grows_apply op)

/-! ## Time -/

theorem moves_settle (e : Engine χ) : e.Moves e.settle := .of_grows rfl e.coordinator.grows_settle

theorem moves_moveTo (e : Engine χ) (t : Nat) : e.Moves (e.moveTo t) :=
  e.moves_apply (.moveTo t)

theorem moves_beginTurn (e : Engine χ) : e.Moves e.beginTurn := .of_eq rfl rfl

theorem moves_idle (e : Engine χ) (ready : Engine χ → Bool) (timer : Option Nat) :
    e.Moves (e.idle ready timer).2 := by
  unfold idle
  -- How often the clock may move makes no difference to what the moves are.
  generalize e.coordinator.watchers.length + 2 = moves
  induction moves generalizing e with
  | zero => exact .refl e
  | succ moves ih =>
      unfold idleWithin
      simp only []
      split
      · exact e.moves_settle
      · split
        · exact e.moves_settle
        · exact e.moves_settle.trans ((moves_moveTo _ _).trans (ih _))

/-! ## Routines -/

theorem does_ask {α : Type} (f : Engine χ → α) : (Routine.ask f).Does Moves :=
  ⟨Moves.refl, fun _ => trivial⟩

theorem does_pause (ready : Engine χ → Bool) (timer : Option Nat) :
    (Routine.pause ready timer).Does Moves := ⟨Moves.refl, trivial⟩

theorem does_giveWayIfSpent : (giveWayIfSpent : Routine (Engine χ) Unit).Does Moves := by
  refine (does_ask _).bind fun n => ?_
  split
  · exact does_pause _ _
  · trivial

theorem does_untilStopped {α : Type} (handle : Nat) {work : Routine (Engine χ) α}
    (hwork : work.Does Moves) : (untilStopped handle work).Does Moves := by
  refine (does_ask _).bind fun reason => ?_
  cases reason with
  | some reason => trivial
  | none =>
      -- Being stopped at a wait leaves the engine to the work's own clean-up.
      exact does_giveWayIfSpent.bind fun _ => hwork.unlessStopped Moves.refl

theorem within_bind {α β : Type} (span : Span) (r : Routine (Engine χ) α)
    (f : α → Routine (Engine χ) β) :
    within span (r.bind f) = (within span r).bind fun a => within span (f a) :=
  Routine.around_bind _ _ r f

-- The spans of others are noticed by nobody else.
theorem does_within {α : Type} (span : Span) {r : Routine (Engine χ) α} (hr : r.Does Moves) :
    (within span r).Does Moves := by
  refine Routine.Does.around (P := Moves) Moves.trans ?_ ?_ hr
  · exact fun e => .of_eq rfl rfl
  · exact fun e => .of_eq rfl rfl

theorem runsAmong_of_within {α : Type} {span : Span} {r : Routine (Engine χ) α}
    {e e' : Engine χ} {a : α} (h : (within span r).RunsAmong now Moves e a e') :
    ∃ e₁, r.RunsAmong now Moves e a e₁ ∧ e₁.Moves e' := by
  refine Routine.runsAmong_of_around (P := Moves) Moves.refl Moves.trans ?_ ?_ (.refl e) h
  · exact fun e => .of_eq rfl rfl
  · exact fun e => .of_eq rfl rfl

/-- A routine that the engine runs to its end runs among others who do what the engine does
    while it waits. -/
theorem runsAmong_of_idle {α : Type} {others : Engine χ → Engine χ → Prop}
    (hrefl : ∀ e, others e e) (hidle : ∀ e ready timer, others e (idle e ready timer).2)
    (hturn : ∀ e, others e (beginTurn e)) {limit : Option Nat} {r : Routine (Engine χ) α}
    {e e' : Engine χ} {a : α} (h : run limit r e = (some a, e')) :
    r.RunsAmong now others e a e' := by
  induction r generalizing e with
  | done b =>
      rcases Prod.mk.inj h with ⟨hb, he⟩
      exact ⟨Option.some.inj hb, he⟩
  | act change next ih => exact ⟨e, hrefl e, ih _ h⟩
  | wait ready timer abandon next ih =>
      unfold run at h
      simp only [] at h
      split at h
      · next hgo => exact ⟨_, _, hidle e _ _, hgo, hturn _, ih h⟩
      · exact absurd (Prod.mk.inj h).1 (by simp only [reduceCtorEq, not_false_eq_true])

/-- These others only let time pass. -/
theorem runsAmong_of_run {α : Type} {limit : Option Nat} {r : Routine (Engine χ) α}
    {e e' : Engine χ} {a : α} (h : run limit r e = (some a, e')) :
    r.RunsAmong now Moves e a e' :=
  runsAmong_of_idle .refl (fun e _ _ => e.moves_idle _ _) moves_beginTurn h

end Engine

end ChainSync
