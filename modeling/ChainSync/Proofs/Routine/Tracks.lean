import ChainSync.Proofs.Routine.Tape
import ChainSync.Proofs.Routine.Under

/-!
# Tracking a Part of the State

What a routine does to a part of the state that is left to it.

`Under` knows of a state that a condition holds, and the condition is the same for all
changes. That is not enough for a change that is right only because of the changes
before it. But if nobody else changes some part of the state, a routine finds that part
as it has left it. So `Tracks` follows the part from one change to the next: it is known
what it is before a change, and the change says what it is afterwards.

Two more things are asked of a routine on the way. All changes keep to a relation of the
whole state, and what is true of the part is said for the end and for being given up.

## Main definitions

* `Routine.Tracks`: What a routine does, with a part of the state left to it.

## Theorems

* `Routine.Tracks.bind`, `Routine.Tracks.guarded`, …: Routines that are put together.
* `Routine.Under.tracks_lift`: A routine on another part of the state.
-/

namespace ChainSync

namespace Routine

variable {σ α β ε κ : Type}

/-- With a part that is `k` at first and nobody else changes, all changes of a routine
    keep to `R`, and so does giving it up. `Q` holds of the part and the answer at the
    end, and `S` of the part when the routine has been given up. -/
def Tracks (part : σ → κ) (R : σ → σ → Prop) (Q : κ → α → Prop) (S : κ → Prop) :
    Routine σ α → κ → Prop
  | done a, k => Q k a
  | act run next, k => ∀ s, part s = k →
    R s (run s).2 ∧ (next (run s).1).Tracks part R Q S (part (run s).2)
  | wait _ _ abandon next, k =>
    (∀ s, part s = k → R s (abandon s) ∧ S (part (abandon s))) ∧ next.Tracks part R Q S k

variable {part : σ → κ} {R : σ → σ → Prop} {Q : κ → α → Prop} {S : κ → Prop} {k : κ}

theorem Tracks.mono {Q' : κ → α → Prop} {S' : κ → Prop} (hQ : ∀ k a, Q k a → Q' k a)
    (hS : ∀ k, S k → S' k) {r : Routine σ α} (hr : r.Tracks part R Q S k) :
    r.Tracks part R Q' S' k := by
  induction r generalizing k with
  | done a => exact hQ k a hr
  | act run next ih => exact fun s hs => ⟨(hr s hs).1, ih _ (hr s hs).2⟩
  | wait ready timer abandon next ih =>
      exact ⟨fun s hs => ⟨(hr.1 s hs).1, hS _ (hr.1 s hs).2⟩, ih hr.2⟩

theorem Tracks.bind {P : κ → β → Prop} {r : Routine σ α} {f : α → Routine σ β}
    (hr : r.Tracks part R Q S k) (hf : ∀ k a, Q k a → (f a).Tracks part R P S k) :
    (r.bind f).Tracks part R P S k := by
  induction r generalizing k with
  | done a => exact hf k a hr
  | act run next ih => exact fun s hs => ⟨(hr s hs).1, ih _ (hr s hs).2⟩
  | wait ready timer abandon next ih => exact ⟨hr.1, ih hr.2⟩

theorem tracks_perform {run : σ → α × σ}
    (h : ∀ s, part s = k → R s (run s).2 ∧ Q (part (run s).2) (run s).1) :
    (perform run).Tracks part R Q S k := h

theorem tracks_update {f : σ → σ} {Q : κ → Unit → Prop}
    (h : ∀ s, part s = k → R s (f s) ∧ Q (part (f s)) ()) :
    (update f).Tracks part R Q S k := h

/-! ## Routines that are put together -/

section

variable (hrefl : ∀ s, R s s)
include hrefl

theorem tracks_ask {f : σ → α} (hQ : ∀ a, Q k a) : (ask f).Tracks part R Q S k := by
  intro s hs
  refine ⟨hrefl s, ?_⟩
  rw [← hs] at hQ
  exact hQ (f s)

theorem tracks_pause {Q : κ → Unit → Prop} (hQ : Q k ()) (hS : S k) (ready : σ → Bool)
    (timer : Option Nat) : (pause ready timer).Tracks part R Q S k := by
  refine ⟨fun s hs => ⟨hrefl s, ?_⟩, hQ⟩
  rw [← hs] at hS
  exact hS

/-- A routine that is given up at a wait leaves the part as the wait's cleanup does. -/
theorem Tracks.guarded {Q' : κ → Except ε α → Prop} {stop : σ → Option ε}
    (hok : ∀ k a, Q k a → Q' k (.ok a)) (hstop : ∀ k e, S k → Q' k (.error e))
    {r : Routine σ α} (hr : r.Tracks part R Q S k) : (r.guarded stop).Tracks part R Q' S k := by
  induction r generalizing k with
  | done a => exact hok k a hr
  | act run next ih => exact fun s hs => ⟨(hr s hs).1, ih _ (hr s hs).2⟩
  | wait ready timer abandon next ih =>
      refine ⟨hr.1, fun s hs => ?_⟩
      cases hreason : stop s with
      | some reason =>
          simp only [hreason]
          exact ⟨(hr.1 s hs).1, hstop _ reason (hr.1 s hs).2⟩
      | none =>
          simp only [hreason]
          refine ⟨hrefl s, ?_⟩
          rw [hs]
          exact ih hr.2

/-- One that is not even begun leaves the part alone. -/
theorem Tracks.unlessStopped {Q' : κ → Except ε α → Prop} {stop : σ → Option ε}
    (hok : ∀ k a, Q k a → Q' k (.ok a)) (hstop : ∀ k e, S k → Q' k (.error e))
    (hnone : ∀ e, Q' k (.error e)) {r : Routine σ α} (hr : r.Tracks part R Q S k) :
    (r.unlessStopped stop).Tracks part R Q' S k := by
  intro s hs
  refine ⟨hrefl s, ?_⟩
  rw [hs]
  cases hreason : stop s with
  | some reason =>
      simp only [hreason]
      exact hnone reason
  | none =>
      simp only [hreason]
      exact hr.guarded hrefl hok hstop

/-- The cleanup has the last say about the part. -/
theorem Tracks.ensuring {Q' : κ → α → Prop} {S' : κ → Prop} {cleanup : σ → σ}
    (hcleanup : ∀ s t, R s t → R s (cleanup t)) (hQ : ∀ s a, Q (part s) a → Q' (part (cleanup s)) a)
    (hS : ∀ s, S (part s) → S' (part (cleanup s))) {r : Routine σ α}
    (hr : r.Tracks part R Q S k) : (r.ensuring cleanup).Tracks part R Q' S' k := by
  induction r generalizing k with
  | done a =>
      intro s hs
      refine ⟨hcleanup s s (hrefl s), hQ s a ?_⟩
      rw [hs]
      exact hr
  | act run next ih => exact fun s hs => ⟨(hr s hs).1, ih _ (hr s hs).2⟩
  | wait ready timer abandon next ih =>
      refine ⟨fun s hs => ⟨?_, ?_⟩, ih hr.2⟩
      · exact hcleanup s _ (hr.1 s hs).1
      · exact hS _ (hr.1 s hs).2

end

/-- Wrapping does no harm if it leaves the part alone. -/
theorem Tracks.around {enter leave : σ → σ} (henter : ∀ s, part (enter s) = part s)
    (hleave : ∀ s, part (leave s) = part s) (hR : ∀ s t, R (enter s) t → R s (leave t))
    {r : Routine σ α} (hr : r.Tracks part R Q S k) :
    (r.around enter leave).Tracks part R Q S k := by
  induction r generalizing k with
  | done a => exact hr
  | act run next ih =>
      intro s hs
      rcases hr (enter s) ((henter s).trans hs) with ⟨hrun, hnext⟩
      refine ⟨hR s _ hrun, ?_⟩
      have hpart : part (leave (run (enter s)).2) = part (run (enter s)).2 := hleave _
      rw [← hpart] at hnext
      exact ih _ hnext
  | wait ready timer abandon next ih => exact ⟨hr.1, ih hr.2⟩

/-! ## Routines on another part -/

section

variable {τ : Type} {get : σ → τ} {put : τ → σ → σ} {P₀ : τ → Prop} {R₀ : τ → τ → Prop}

theorem Under.lift {P : σ → Prop} (hP : ∀ s, P s → P₀ (get s))
    (hR : ∀ s t, P s → R₀ (get s) t → R s (put t s)) {r : Routine τ α} (hr : r.Under P₀ R₀) :
    (r.lift get put).Under P R := by
  induction r with
  | done a => trivial
  | act run next ih =>
      intro s hs
      rcases hr (get s) (hP s hs) with ⟨hrun, hnext⟩
      exact ⟨hR s _ hs hrun, ih _ hnext⟩
  | wait ready timer abandon next ih =>
      exact ⟨fun s hs => hR s _ hs (hr.1 _ (hP s hs)), ih hr.2⟩

/-- A routine that changes nothing about the part leaves it as it was. -/
theorem Under.tracks_lift (hP : ∀ s, part s = k → P₀ (get s))
    (hR : ∀ s t, part s = k → R₀ (get s) t → R s (put t s) ∧ part (put t s) = k)
    (hQ : ∀ a, Q k a) (hS : S k) {r : Routine τ α} (hr : r.Under P₀ R₀) :
    (r.lift get put).Tracks part R Q S k := by
  induction r with
  | done a => exact hQ a
  | act run next ih =>
      intro s hs
      rcases hr (get s) (hP s hs) with ⟨hrun, hnext⟩
      rcases hR s _ hs hrun with ⟨hto, hpart⟩
      refine ⟨hto, ?_⟩
      rw [hpart]
      exact ih _ hnext
  | wait ready timer abandon next ih =>
      refine ⟨fun s hs => ?_, ih hr.2⟩
      rcases hR s _ hs (hr.1 _ (hP s hs)) with ⟨hto, hpart⟩
      exact ⟨hto, hpart ▸ hS⟩

end

end Routine

end ChainSync
