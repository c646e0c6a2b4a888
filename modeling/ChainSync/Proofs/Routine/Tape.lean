import ChainSync.Proofs.Routine.Among

/-!
# Tapes

What a routine writes down while others change the state as well.

Some part of the state is a tape that entries are only added to, and that nobody
else writes on. Then what a routine has written by its end does not depend on what
the others do. `Writes` follows the tree of a routine with the entries written so
far, from one change to the next, down to a condition on all entries and the answer
at every end. Changes may write what they like, as long as the rest of the routine
copes with it.

A routine that may be given up ends at one of its waits. So `Writes` also keeps a
condition on the entries that are there at a wait, and giving the routine up turns
that one into a condition on its answer.

A scanner knows nothing of a tape. `lift` lets a routine run on a part of a state,
where it cannot reach the rest.

## Main definitions

* `Routine.lift`: A routine on a part of the state.
* `Routine.Writes`: What a routine writes.

## Theorems

* `Routine.Writes.bind`, `Routine.Writes.guarded`, `Routine.Writes.around`, …: What
  routines that are put together write.
* `Routine.Writes.run`: What is on the tape after a run among others.
-/

namespace ChainSync

namespace Routine

/-! ## A part of the state -/

section

variable {σ τ α : Type}

/-- A routine on a part of the state. -/
def lift (get : σ → τ) (put : τ → σ → σ) : Routine τ α → Routine σ α
  | done a => done a
  | act run next =>
    act (fun s => let (b, t) := run (get s); (b, put t s)) fun b => (next b).lift get put
  | wait ready timer abandon next =>
    wait (fun s => ready (get s)) timer (fun s => put (abandon (get s)) s) (next.lift get put)

/-- What all changes of a routine keep to on the part, seen from the whole state. -/
theorem Does.lift {P : τ → τ → Prop} {P' : σ → σ → Prop} {get : σ → τ} {put : τ → σ → σ}
    (hput : ∀ s t, P (get s) t → P' s (put t s)) {r : Routine τ α} (hr : r.Does P) :
    (r.lift get put).Does P' := by
  induction r with
  | done a => trivial
  | act run next ih => exact ⟨fun s => hput s _ (hr.1 (get s)), fun b => ih b (hr.2 b)⟩
  | wait ready timer abandon next ih => exact ⟨fun s => hput s _ (hr.1 (get s)), ih hr.2⟩

end

/-! ## What a routine writes -/

variable {σ α β ε κ : Type}

/-- With some entries written before, a routine writes so that `Q` holds of all
    entries and the answer at its end, and `S` of the entries at each of its waits. -/
def Writes (tape : σ → List κ) (Q : List κ → α → Prop) (S : List κ → Prop) :
    Routine σ α → List κ → Prop
  | done a, w => Q w a
  | act run next, w =>
    ∀ s, ∃ entries, tape (run s).2 = tape s ++ entries ∧
      (next (run s).1).Writes tape Q S (w ++ entries)
  | wait _ _ abandon next, w =>
    (∀ s, tape (abandon s) = tape s) ∧ S w ∧ next.Writes tape Q S w

section

variable {tape : σ → List κ} {Q : List κ → α → Prop} {S : List κ → Prop} {w : List κ}

theorem Writes.mono {Q' : List κ → α → Prop} {S' : List κ → Prop}
    (hQ : ∀ w a, Q w a → Q' w a) (hS : ∀ w, S w → S' w) {r : Routine σ α}
    (hr : r.Writes tape Q S w) : r.Writes tape Q' S' w := by
  induction r generalizing w with
  | done a => exact hQ w a hr
  | act run next ih =>
      intro s
      rcases hr s with ⟨entries, htape, h⟩
      exact ⟨entries, htape, ih _ h⟩
  | wait ready timer abandon next ih => exact ⟨hr.1, hS w hr.2.1, ih hr.2.2⟩

theorem Writes.bind {P : List κ → β → Prop} {r : Routine σ α} {f : α → Routine σ β}
    (hr : r.Writes tape Q S w) (hf : ∀ w a, Q w a → (f a).Writes tape P S w) :
    (r.bind f).Writes tape P S w := by
  induction r generalizing w with
  | done a => exact hf w a hr
  | act run next ih =>
      intro s
      rcases hr s with ⟨entries, htape, h⟩
      exact ⟨entries, htape, ih _ h⟩
  | wait ready timer abandon next ih => exact ⟨hr.1, hr.2.1, ih hr.2.2⟩

/-- A change that writes nothing. -/
theorem writes_update {f : σ → σ} {Q : List κ → Unit → Prop} (hf : ∀ s, tape (f s) = tape s)
    (hQ : Q w ()) : (update f).Writes tape Q S w :=
  fun s => ⟨[], by rw [List.append_nil]; exact hf s, by rwa [List.append_nil]⟩

/-- Looking at the state writes nothing. -/
theorem writes_ask {f : σ → α} (hQ : ∀ s, Q w (f s)) : (ask f).Writes tape Q S w :=
  fun s => ⟨[], (List.append_nil _).symm, by rw [List.append_nil]; exact hQ s⟩

/-- A routine that is given up at a wait has written what was there at the wait. -/
theorem Writes.guarded {Q' : List κ → Except ε α → Prop} {stop : σ → Option ε}
    (hok : ∀ w a, Q w a → Q' w (.ok a)) (hstop : ∀ w e, S w → Q' w (.error e))
    {r : Routine σ α} (hr : r.Writes tape Q S w) : (r.guarded stop).Writes tape Q' S w := by
  induction r generalizing w with
  | done a => exact hok w a hr
  | act run next ih =>
      intro s
      rcases hr s with ⟨entries, htape, h⟩
      exact ⟨entries, htape, ih _ h⟩
  | wait ready timer abandon next ih =>
      rcases hr with ⟨habandon, hwait, hnext⟩
      refine ⟨habandon, hwait, fun s => ⟨[], ?_, ?_⟩⟩
      · simp only [List.append_nil]
        split
        · exact habandon s
        · rfl
      · simp only [List.append_nil]
        cases stop s with
        | some e => exact hstop w e hwait
        | none => exact ih hnext

/-- One that is not even begun has written nothing. -/
theorem Writes.unlessStopped {Q' : List κ → Except ε α → Prop} {stop : σ → Option ε}
    (hok : ∀ w a, Q w a → Q' w (.ok a)) (hstop : ∀ w e, S w → Q' w (.error e))
    (hnone : ∀ e, Q' w (.error e)) {r : Routine σ α} (hr : r.Writes tape Q S w) :
    (r.unlessStopped stop).Writes tape Q' S w := by
  refine fun s => ⟨[], (List.append_nil _).symm, ?_⟩
  rw [List.append_nil]
  cases hs : stop s with
  | some e =>
      simp only [hs]
      exact hnone e
  | none =>
      simp only [hs]
      exact hr.guarded hok hstop

theorem Writes.around {enter leave : σ → σ} (henter : ∀ s, tape (enter s) = tape s)
    (hleave : ∀ s, tape (leave s) = tape s) {r : Routine σ α} (hr : r.Writes tape Q S w) :
    (r.around enter leave).Writes tape Q S w := by
  induction r generalizing w with
  | done a => exact hr
  | act run next ih =>
      intro s
      rcases hr (enter s) with ⟨entries, htape, h⟩
      refine ⟨entries, ?_, ih _ h⟩
      rw [henter] at htape
      exact (hleave _).trans htape
  | wait ready timer abandon next ih => exact ⟨hr.1, hr.2.1, ih hr.2.2⟩

theorem Writes.ensuring {cleanup : σ → σ} (hcleanup : ∀ s, tape (cleanup s) = tape s)
    {r : Routine σ α} (hr : r.Writes tape Q S w) : (r.ensuring cleanup).Writes tape Q S w := by
  induction r generalizing w with
  | done a =>
      refine fun s => ⟨[], ?_, ?_⟩
      · rw [List.append_nil]
        exact hcleanup s
      · rw [List.append_nil]
        exact hr
  | act run next ih =>
      intro s
      rcases hr s with ⟨entries, htape, h⟩
      exact ⟨entries, htape, ih _ h⟩
  | wait ready timer abandon next ih =>
      exact ⟨fun s => (hcleanup _).trans (hr.1 s), hr.2.1, ih hr.2.2⟩

/-- A routine that cannot reach the tape writes nothing. -/
theorem writes_lift {τ : Type} {get : σ → τ} {put : τ → σ → σ}
    (hput : ∀ t s, tape (put t s) = tape s) (hQ : ∀ a, Q w a) (hS : S w) (r : Routine τ α) :
    (r.lift get put).Writes tape Q S w := by
  induction r with
  | done a => exact hQ a
  | act run next ih =>
      refine fun s => ⟨[], ?_, ?_⟩
      · rw [List.append_nil]
        exact hput _ s
      · rw [List.append_nil]
        exact ih _
  | wait ready timer abandon next ih => exact ⟨fun s => hput _ s, hS, ih⟩

/-- What is on the tape after a run, among others who leave the tape alone. -/
theorem Writes.run {now : σ → Nat} {others : σ → σ → Prop}
    (hothers : ∀ s s', others s s' → tape s' = tape s) {r : Routine σ α}
    (hr : r.Writes tape Q S w) {s s' : σ} {a : α} (h : r.RunsAmong now others s a s') :
    ∃ entries, tape s' = tape s ++ entries ∧ Q (w ++ entries) a := by
  induction r generalizing w s with
  | done b =>
      rcases h with ⟨rfl, rfl⟩
      exact ⟨[], (List.append_nil _).symm, by rwa [List.append_nil]⟩
  | act run next ih =>
      rcases h with ⟨s₁, h₁, h⟩
      rcases hr s₁ with ⟨entries, htape, hnext⟩
      rcases ih _ hnext h with ⟨entries', htape', hQ⟩
      refine ⟨entries ++ entries', ?_, by rwa [← List.append_assoc]⟩
      rw [htape', htape, hothers s s₁ h₁, List.append_assoc]
  | wait ready timer abandon next ih =>
      rcases h with ⟨s₁, s₂, h₁, _, h₂, h⟩
      rcases ih hr.2.2 h with ⟨entries, htape, hQ⟩
      exact ⟨entries, by rw [htape, hothers s₁ s₂ h₂, hothers s s₁ h₁], hQ⟩

end

end Routine

end ChainSync
