import ChainSync.Proofs.Routine.Tape

/-!
# Routines That Show Others

A routine on more state that does what another one does on less.

A tape is added to a state in order to say something of a routine that does not write on
it. What is said then has to be true of that routine, and so the one with the tape must
not do anything else. `Shows` compares the two trees. They make the same changes to what
both of them see, give the same answers and wait for the same, but for changes that only
the one with more state makes and the other could not see (`aside`).

`Relates` would not do for this, since it asks for the same state on both sides and for
trees of the same shape. Here it is the states that differ, and a note on the tape is one
more change. So a run of the routine with more state is followed change by change, and
where it has made a note the other routine has let others go first.

## Main definitions

* `Routine.Shows`: A routine that shows another one.

## Theorems

* `Routine.Shows.bind`, `Routine.Shows.guarded`, …: Routines that are put together.
* `Routine.shows_lift`: A routine that runs on a part of the state.
* `Routine.Shows.runsAmong`: A run of the one is a run of the other.
-/

namespace ChainSync

namespace Routine

variable {σ τ α β ε : Type}

/-- A routine that does on the part of its state that `get` sees what another routine does,
    and nothing else that could be seen there. -/
inductive Shows (get : σ → τ) : Routine σ α → Routine τ α → Prop where
  | done (a : α) : Shows get (done a) (done a)
  /-- A change that cannot be seen. -/
  | aside {β : Type} {run : σ → β × σ} {next : β → Routine σ α} {q : Routine τ α}
    (hrun : ∀ s, get (run s).2 = get s) (hnext : ∀ b, Shows get (next b) q) :
    Shows get (act run next) q
  | act {β : Type} {run : σ → β × σ} {run' : τ → β × τ} {next : β → Routine σ α}
    {next' : β → Routine τ α} (hrun : ∀ s, run' (get s) = ((run s).1, get (run s).2))
    (hnext : ∀ b, Shows get (next b) (next' b)) : Shows get (act run next) (act run' next')
  | wait {ready : σ → Bool} {ready' : τ → Bool} {timer : Option Nat} {abandon : σ → σ}
    {abandon' : τ → τ} {next : Routine σ α} {next' : Routine τ α}
    (hready : ∀ s, ready' (get s) = ready s)
    (habandon : ∀ s, get (abandon s) = abandon' (get s)) (hnext : Shows get next next') :
    Shows get (wait ready timer abandon next) (wait ready' timer abandon' next')

variable {get : σ → τ} {r : Routine σ α} {q : Routine τ α}

/-! ## Routines that are put together -/

theorem Shows.bind {f : α → Routine σ β} {g : α → Routine τ β} (h : Shows get r q)
    (hf : ∀ a, Shows get (f a) (g a)) : Shows get (r.bind f) (q.bind g) := by
  induction h with
  | done a => exact hf a
  | aside hrun _ ih => exact .aside hrun ih
  | act hrun _ ih => exact .act hrun ih
  | wait hready habandon _ ih => exact .wait hready habandon ih

/-- What follows makes changes that cannot be seen, and hands the answer on. -/
theorem Shows.bind_aside {f : α → Routine σ α} (h : Shows get r q)
    (hf : ∀ a, Shows get (f a) (Routine.done a)) : Shows get (r.bind f) q := by
  induction h with
  | done a => exact hf a
  | aside hrun _ ih => exact .aside hrun ih
  | act hrun _ ih => exact .act hrun ih
  | wait hready habandon _ ih => exact .wait hready habandon ih

theorem shows_perform {run : σ → α × σ} {run' : τ → α × τ}
    (h : ∀ s, run' (get s) = ((run s).1, get (run s).2)) :
    Shows get (perform run) (perform run') := .act h .done

theorem shows_update {f : σ → σ} {f' : τ → τ} (h : ∀ s, f' (get s) = get (f s)) :
    Shows get (update f) (update f') := shows_perform fun s => congrArg (((), ·)) (h s)

theorem shows_ask {f : σ → α} {f' : τ → α} (h : ∀ s, f' (get s) = f s) :
    Shows get (ask f) (ask f') := shows_perform fun s => congrArg ((·, get s)) (h s)

section

variable {stop : σ → Option ε} {stop' : τ → Option ε} (hstop : ∀ s, stop' (get s) = stop s)
include hstop

theorem Shows.guarded (h : Shows get r q) : Shows get (r.guarded stop) (q.guarded stop') := by
  induction h with
  | done a => exact .done _
  | aside hrun _ ih => exact .aside hrun ih
  | act hrun _ ih => exact .act hrun ih
  | wait hready habandon _ ih =>
      refine .wait (fun s => ?_) habandon (.act (fun s => ?_) fun reason => ?_)
      · rw [hstop, hready]
      · rw [hstop]
        cases stop s with
        | some reason => exact congrArg ((some reason, ·)) (habandon s).symm
        | none => rfl
      · cases reason with
        | some reason => exact .done _
        | none => exact ih

theorem Shows.unlessStopped (h : Shows get r q) :
    Shows get (r.unlessStopped stop) (q.unlessStopped stop') := by
  refine .act (fun s => congrArg ((·, get s)) (hstop s)) fun reason => ?_
  cases reason with
  | some reason => exact .done _
  | none => exact h.guarded hstop

end

/-- A change that cannot be seen is not seen either when it is wrapped, as long as leaving
    takes back what entering does. -/
theorem Shows.around {enter leave : σ → σ} {enter' leave' : τ → τ}
    (henter : ∀ s, get (enter s) = enter' (get s)) (hleave : ∀ s, get (leave s) = leave' (get s))
    (hback : ∀ t, leave' (enter' t) = t) (h : Shows get r q) :
    Shows get (r.around enter leave) (q.around enter' leave') := by
  induction h with
  | done a => exact .done a
  | aside hrun _ ih => exact .aside (fun s => by rw [hleave, hrun, henter, hback]) ih
  | act hrun _ ih =>
      refine .act (fun s => ?_) ih
      simp only [← henter, hrun, hleave]
  | wait hready habandon _ ih => exact .wait hready habandon ih

theorem Shows.ensuring {cleanup : σ → σ} {cleanup' : τ → τ}
    (hcleanup : ∀ s, get (cleanup s) = cleanup' (get s)) (h : Shows get r q) :
    Shows get (r.ensuring cleanup) (q.ensuring cleanup') := by
  induction h with
  | done a => exact .act (fun s => congrArg (((), ·)) (hcleanup s).symm) fun _ => .done a
  | aside hrun _ ih => exact .aside hrun ih
  | act hrun _ ih => exact .act hrun ih
  | wait hready habandon _ ih =>
      exact .wait hready (fun s => (hcleanup _).trans (congrArg cleanup' (habandon s))) ih

/-- A routine that runs on a part of the state shows itself. -/
theorem shows_lift {put : τ → σ → σ} (hput : ∀ t s, get (put t s) = t) (q : Routine τ α) :
    Shows get (q.lift get put) q := by
  induction q with
  | done a => exact .done a
  | act run next ih => exact .act (fun s => by rw [hput]) ih
  | wait ready timer abandon next ih => exact .wait (fun _ => rfl) (fun s => hput _ s) ih

/-! ## Runs -/

section

variable {now : σ → Nat} {now' : τ → Nat} (hnow : ∀ s, now' (get s) = now s)
  {others : σ → σ → Prop} {others' : τ → τ → Prop} (hrefl : ∀ t, others' t t)
  (htrans : ∀ {t u v}, others' t u → others' u v → others' t v)
  (hothers : ∀ s s', others s s' → others' (get s) (get s'))
include hnow hrefl htrans hothers

/-- A run of a routine that shows another one is a run of that one. Changes that cannot be
    seen are steps of the others at most, so there may be some before the run and after it. -/
theorem Shows.runsAmong (h : Shows get r q) {t : τ} {s s' : σ} {a : α} (ht : others' t (get s))
    (hrun : r.RunsAmong now others s a s') :
    ∃ t', q.RunsAmong now' others' t a t' ∧ others' t' (get s') := by
  induction h generalizing t s with
  | done b =>
      rcases hrun with ⟨rfl, rfl⟩
      exact ⟨t, ⟨rfl, rfl⟩, ht⟩
  | aside hunseen _ ih =>
      rcases hrun with ⟨s₁, h₁, hrun⟩
      refine ih _ ?_ hrun
      rw [hunseen]
      exact htrans ht (hothers s s₁ h₁)
  | act hsame _ ih =>
      rcases hrun with ⟨s₁, h₁, hrun⟩
      rcases ih _ (hrefl _) hrun with ⟨t', hrun', ht'⟩
      refine ⟨t', ⟨get s₁, htrans ht (hothers s s₁ h₁), ?_⟩, ht'⟩
      rw [hsame]
      exact hrun'
  | wait hready habandon _ ih =>
      rcases hrun with ⟨s₁, s₂, h₁, hgo, h₂, hrun⟩
      rcases ih (hrefl _) hrun with ⟨t', hrun', ht'⟩
      refine ⟨t', ⟨get s₁, get s₂, htrans ht (hothers s s₁ h₁), ?_, hothers s₁ s₂ h₂, hrun'⟩, ht'⟩
      simpa only [canGoOn, isReady, isDue, hready, hnow] using hgo

end

end Routine

end ChainSync
