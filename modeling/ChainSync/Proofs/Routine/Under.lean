import ChainSync.Proofs.Routine.Among

/-!
# Routines under a Condition

What a routine does as long as a condition holds.

`Does` asks of every change that it keeps to a relation, wherever it is made. Some
routines are well-behaved only while somebody holds something. `Under` asks it of the
changes that are made while the condition holds, and follows only the answers they
give then. So a branch that is never taken under the condition does not count.

`Relates` compares two routines in the same way. They make the same kinds of changes,
one by one; in states that are alike these give the same answers and lead to states
that are alike, and they wait for the same. What one of them does differently is then
seen by nobody who cannot tell such states apart.

## Main definitions

* `Routine.Under`: What all changes under a condition have in common.
* `Routine.Relates`: Two routines that cannot be told apart under a condition.

## Theorems

* `Routine.Under.bind`, `Routine.Under.guarded`, …: Routines that are put together.
* `Routine.Relates.bind`, `Routine.Relates.guarded`, …: The same for two of them.
-/

namespace ChainSync

namespace Routine

variable {σ α β ε : Type} {P : σ → Prop} {R : σ → σ → Prop}

/-! ## One routine -/

/-- All changes of a routine keep to `R` where `P` holds, and so does giving it up. -/
def Under (P : σ → Prop) (R : σ → σ → Prop) : Routine σ α → Prop
  | done _ => True
  | act run next => ∀ s, P s → R s (run s).2 ∧ (next (run s).1).Under P R
  | wait _ _ abandon next => (∀ s, P s → R s (abandon s)) ∧ next.Under P R

theorem Under.mono {R' : σ → σ → Prop} (hR : ∀ s t, P s → R s t → R' s t) {r : Routine σ α}
    (hr : r.Under P R) : r.Under P R' := by
  induction r with
  | done a => trivial
  | act run next ih => exact fun s hs => ⟨hR _ _ hs (hr s hs).1, ih _ (hr s hs).2⟩
  | wait ready timer abandon next ih => exact ⟨fun s hs => hR _ _ hs (hr.1 s hs), ih hr.2⟩

theorem Under.bind {r : Routine σ α} {f : α → Routine σ β} (hr : r.Under P R)
    (hf : ∀ a, (f a).Under P R) : (r.bind f).Under P R := by
  induction r with
  | done a => exact hf a
  | act run next ih => exact fun s hs => ⟨(hr s hs).1, ih _ (hr s hs).2⟩
  | wait ready timer abandon next ih => exact ⟨hr.1, ih hr.2⟩

theorem under_perform {run : σ → α × σ} (h : ∀ s, P s → R s (run s).2) :
    (perform run).Under P R := fun s hs => ⟨h s hs, trivial⟩

theorem under_update {f : σ → σ} (h : ∀ s, P s → R s (f s)) : (update f).Under P R :=
  fun s hs => ⟨h s hs, trivial⟩

theorem under_ask (hrefl : ∀ s, R s s) (f : σ → α) : (ask f).Under P R :=
  fun s _ => ⟨hrefl s, trivial⟩

theorem under_pause (hrefl : ∀ s, R s s) (ready : σ → Bool) (timer : Option Nat) :
    (pause ready timer).Under P R := ⟨fun s _ => hrefl s, trivial⟩

theorem Under.guarded (hrefl : ∀ s, R s s) {stop : σ → Option ε} {r : Routine σ α}
    (hr : r.Under P R) : (r.guarded stop).Under P R := by
  induction r with
  | done a => trivial
  | act run next ih => exact fun s hs => ⟨(hr s hs).1, ih _ (hr s hs).2⟩
  | wait ready timer abandon next ih =>
      refine ⟨hr.1, fun s hs => ?_⟩
      cases hstop : stop s with
      | some reason =>
          simp only [hstop]
          exact ⟨hr.1 s hs, trivial⟩
      | none =>
          simp only [hstop]
          exact ⟨hrefl s, ih hr.2⟩

theorem Under.unlessStopped (hrefl : ∀ s, R s s) {stop : σ → Option ε} {r : Routine σ α}
    (hr : r.Under P R) : (r.unlessStopped stop).Under P R := by
  refine fun s _ => ⟨hrefl s, ?_⟩
  cases hstop : stop s with
  | some reason =>
      simp only [hstop]
      trivial
  | none =>
      simp only [hstop]
      exact hr.guarded hrefl

/-- Wrapping does no harm if the wrapping does none. -/
theorem Under.around {enter leave : σ → σ} (hP : ∀ s, P s → P (enter s))
    (hR : ∀ s t, P s → R (enter s) t → R s (leave t)) {r : Routine σ α}
    (hr : r.Under P R) : (r.around enter leave).Under P R := by
  induction r with
  | done a => trivial
  | act run next ih =>
      intro s hs
      rcases hr (enter s) (hP s hs) with ⟨hrun, hnext⟩
      exact ⟨hR s _ hs hrun, ih _ hnext⟩
  | wait ready timer abandon next ih => exact ⟨hr.1, ih hr.2⟩

/-! ## Two routines -/

/-- Two routines that cannot be told apart by states that `R` relates, as long as `P`
    holds of the states of the first. -/
inductive Relates (P : σ → Prop) (R : σ → σ → Prop) : Routine σ α → Routine σ α → Prop where
  | done (a : α) : Relates P R (done a) (done a)
  | act {β : Type} {run run' : σ → β × σ} {next next' : β → Routine σ α}
    (hrun : ∀ s t, P s → R s t → (run s).1 = (run' t).1 ∧ R (run s).2 (run' t).2)
    (hnext : ∀ s, P s → Relates P R (next (run s).1) (next' (run s).1)) :
    Relates P R (act run next) (act run' next')
  | wait {ready ready' : σ → Bool} {timer : Option Nat} {abandon abandon' : σ → σ}
    {next next' : Routine σ α} (hready : ∀ s t, R s t → ready s = ready' t)
    (habandon : ∀ s t, P s → R s t → R (abandon s) (abandon' t))
    (hnext : Relates P R next next') :
    Relates P R (wait ready timer abandon next) (wait ready' timer abandon' next')

theorem Relates.bind {r r' : Routine σ α} {f f' : α → Routine σ β} (hr : Relates P R r r')
    (hf : ∀ a, Relates P R (f a) (f' a)) : Relates P R (r.bind f) (r'.bind f') := by
  induction hr with
  | done a => exact hf a
  | act hrun _ ih => exact .act hrun ih
  | wait hready habandon _ ih => exact .wait hready habandon ih

theorem relates_perform {run run' : σ → α × σ}
    (h : ∀ s t, P s → R s t → (run s).1 = (run' t).1 ∧ R (run s).2 (run' t).2) :
    Relates P R (perform run) (perform run') := .act h fun _ _ => .done _

theorem relates_update {f f' : σ → σ} (h : ∀ s t, P s → R s t → R (f s) (f' t)) :
    Relates P R (update f) (update f') :=
  relates_perform fun s t hs hR => ⟨rfl, h s t hs hR⟩

theorem relates_ask {f : σ → α} (h : ∀ s t, R s t → f s = f t) :
    Relates P R (ask f) (ask f) := relates_perform fun s t _ hR => ⟨h s t hR, hR⟩

theorem relates_pause {ready : σ → Bool} (h : ∀ s t, R s t → ready s = ready t)
    (timer : Option Nat) : Relates P R (pause ready timer) (pause ready timer) :=
  .wait h (fun _ _ _ hR => hR) (.done ())

theorem Relates.guarded {stop : σ → Option ε} (hstop : ∀ s t, R s t → stop s = stop t)
    {r r' : Routine σ α} (hr : Relates P R r r') :
    Relates P R (r.guarded stop) (r'.guarded stop) := by
  induction hr with
  | done a => exact .done _
  | act hrun _ ih => exact .act hrun ih
  | wait hready habandon _ ih =>
      refine .wait (fun s t hR => ?_) habandon (.act (fun s t hs hR => ?_) fun s hs => ?_)
      · rw [hstop s t hR, hready s t hR]
      · rw [← hstop s t hR]
        cases stop s with
        | some reason => exact ⟨rfl, habandon s t hs hR⟩
        | none => exact ⟨rfl, hR⟩
      · cases stop s with
        | some reason => exact .done _
        | none => exact ih

theorem Relates.unlessStopped {stop : σ → Option ε} (hstop : ∀ s t, R s t → stop s = stop t)
    {r r' : Routine σ α} (hr : Relates P R r r') :
    Relates P R (r.unlessStopped stop) (r'.unlessStopped stop) := by
  refine .act (fun s t _ hR => ⟨hstop s t hR, hR⟩) fun s _ => ?_
  cases stop s with
  | some reason => exact .done _
  | none => exact hr.guarded hstop

theorem Relates.around {enter leave : σ → σ} (hP : ∀ s, P s → P (enter s))
    (henter : ∀ s t, R s t → R (enter s) (enter t))
    (hleave : ∀ s t, R s t → R (leave s) (leave t)) {r r' : Routine σ α}
    (hr : Relates P R r r') : Relates P R (r.around enter leave) (r'.around enter leave) := by
  induction hr with
  | done a => exact .done a
  | act hrun _ ih =>
      refine .act (fun s t hs hR => ?_) fun s hs => ih _ (hP s hs)
      rcases hrun _ _ (hP s hs) (henter s t hR) with ⟨hanswer, hR'⟩
      exact ⟨hanswer, hleave _ _ hR'⟩
  | wait hready habandon _ ih => exact .wait hready habandon ih

theorem Relates.ensuring {cleanup : σ → σ} (hcleanup : ∀ s t, R s t → R (cleanup s) (cleanup t))
    {r r' : Routine σ α} (hr : Relates P R r r') :
    Relates P R (r.ensuring cleanup) (r'.ensuring cleanup) := by
  induction hr with
  | done a => exact .act (fun s t _ hR => ⟨rfl, hcleanup s t hR⟩) fun _ _ => .done a
  | act hrun _ ih => exact .act hrun ih
  | wait hready habandon _ ih =>
      exact .wait hready (fun s t hs hR => hcleanup _ _ (habandon s t hs hR)) ih

end Routine

end ChainSync
