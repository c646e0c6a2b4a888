import ChainSync.Proofs.Routine.Among

/-!
# Routines That Come to Their End

What a routine comes to, whatever others do, as long as time goes by.

`RunsAmong` speaks of runs that have come to their end. `Surely` asks for more: that
every run does, and that it ends as wanted. It follows the tree of the routine with
the state, so there is no run that goes on for ever; and it lets the routine wait
only where a point in time is among what it waits for, so that no run gets stuck
unless time does.

What others may do depends on where they do it. Between two changes of the routine
only some of it may happen, and more while the routine waits. What a wait demands is
therefore a parameter, a `WaitRule`. The plain rule is that the routine goes on in
whatever state the others have left. When the routine is given up on some condition,
or is to clean up after itself, the rule changes, and the tree does not: `guarded`,
`ensuring` and `around` are read as changes of the rule, so that a routine can be
followed through all that is wrapped around it.

## Main definitions

* `Routine.WaitRule`: What a wait demands.
* `Routine.Surely`: A routine that ends as wanted.
* `Routine.amid`, `Routine.WaitRule.givenUp`, `Routine.WaitRule.cleanedUp`: Rules.
* `Routine.Upholds`: A condition that the others keep to.

## Theorems

* `Routine.surely_bind`, `Routine.surely_guarded`, `Routine.surely_ensuring`: Routines
  that are put together.
* `Routine.Surely.around`: A routine that is wrapped in what does not matter.
* `Routine.Upholds.givenUp`, `Routine.Upholds.cleanedUp`: Conditions under other rules.
* `Routine.Surely.of_runsAmong`: Runs among others.
-/

namespace ChainSync

namespace Routine

variable {σ α β ε : Type}

/-- What a wait demands: of the state it begins in, of the cleanup that belongs to it,
    and of what has to hold wherever the routine goes on. -/
abbrev WaitRule (σ : Type) := σ → (σ → σ) → (σ → Prop) → Prop

/-- A routine that comes to its end, whatever others do before its changes and while it
    waits, and then `Q` holds. It waits for nothing but a point in time, or for what may
    come before. -/
def Surely (between : σ → σ → Prop) (rule : WaitRule σ) (Q : α → σ → Prop) :
    Routine σ α → σ → Prop
  | done a, s => Q a s
  | act run next, s => ∀ s₁, between s s₁ → (next (run s₁).1).Surely between rule Q (run s₁).2
  | wait _ timer abandon next, s =>
    timer.isSome = true ∧ rule s abandon (next.Surely between rule Q)

/-- Others run, and then the routine goes on. -/
def amid (meanwhile : σ → σ → Prop) : WaitRule σ := fun s _ K => ∀ s₁, meanwhile s s₁ → K s₁

/-- After the wait the routine is given up if there is a reason to stop. -/
def WaitRule.givenUp (rule : WaitRule σ) (between : σ → σ → Prop) (stop : σ → Option ε)
    (gone : ε → σ → Prop) : WaitRule σ := fun s abandon K =>
  rule s abandon fun s₁ => ∀ s₂, between s₁ s₂ → match stop s₂ with
    | some reason => gone reason (abandon s₂)
    | none => K s₂

/-- If the routine is given up, it cleans up after its wait has done so. -/
def WaitRule.cleanedUp (rule : WaitRule σ) (cleanup : σ → σ) : WaitRule σ :=
  fun s abandon K => rule s (fun s₁ => cleanup (abandon s₁)) K

/-! ## Routines that are put together -/

section

variable {between : σ → σ → Prop} {rule : WaitRule σ} {Q : β → σ → Prop}

theorem surely_bind (r : Routine σ α) (f : α → Routine σ β) :
    (r.bind f).Surely between rule Q =
      r.Surely between rule fun a => (f a).Surely between rule Q := by
  induction r with
  | done a => rfl
  | act run next ih =>
      funext s
      simp only [bind, Surely, ih]
  | wait ready timer abandon next ih =>
      funext s
      simp only [bind, Surely, ih]

/-- The same for routines that an error ends. -/
theorem surely_run_bind (x : ExceptT ε (Routine σ) α) (f : α → ExceptT ε (Routine σ) β)
    (Q : Except ε β → σ → Prop) :
    (x >>= f).run.Surely between rule Q = x.run.Surely between rule fun a => match a with
      | .ok a => (f a).run.Surely between rule Q
      | .error e => Q (.error e) := by
  change (Routine.bind x.run _).Surely between rule Q = _
  rw [surely_bind]
  congr 1
  funext a
  cases a with
  | ok a => rfl
  | error e => rfl

theorem surely_run_lift (r : Routine σ α) (Q : Except ε α → σ → Prop) :
    (liftM r : ExceptT ε (Routine σ) α).run.Surely between rule Q =
      r.Surely between rule fun a => Q (.ok a) := surely_bind r _

theorem surely_guarded (stop : σ → Option ε) (r : Routine σ α) (Q : Except ε α → σ → Prop) :
    (r.guarded stop).Surely between rule Q =
      r.Surely between (rule.givenUp between stop fun reason => Q (.error reason))
        fun a => Q (.ok a) := by
  induction r with
  | done a => rfl
  | act run next ih =>
      funext s
      simp only [guarded, Surely, ih]
  | wait ready timer abandon next ih =>
      -- Behind the wait stands the look at the reason to stop.
      funext s
      simp only [guarded, Surely, WaitRule.givenUp, ← ih]
      refine congrArg (timer.isSome = true ∧ rule s abandon ·) (funext fun s₁ => propext ?_)
      refine forall_congr' fun s₂ => imp_congr_right fun _ => ?_
      cases stop s₂ <;> exact Iff.rfl

theorem surely_ensuring (cleanup : σ → σ) (r : Routine σ β) :
    (r.ensuring cleanup).Surely between rule Q =
      r.Surely between (rule.cleanedUp cleanup)
        fun a s => ∀ s₁, between s s₁ → Q a (cleanup s₁) := by
  induction r with
  | done a => rfl
  | act run next ih =>
      funext s
      simp only [ensuring, Surely, ih]
  | wait ready timer abandon next ih =>
      funext s
      simp only [ensuring, Surely, ih]
      rfl

theorem surely_unlessStopped {stop : σ → Option ε} {r : Routine σ α}
    {Q : Except ε α → σ → Prop} {s : σ}
    (h : ∀ s₁, between s s₁ → match stop s₁ with
      | some reason => Q (.error reason) s₁
      | none => r.Surely between (rule.givenUp between stop fun reason => Q (.error reason))
          (fun a => Q (.ok a)) s₁) :
    (r.unlessStopped stop).Surely between rule Q s := by
  intro s₁ hs₁
  have h₁ := h s₁ hs₁
  cases hstop : stop s₁ with
  | some reason =>
      simp only [hstop] at h₁ ⊢
      exact h₁
  | none =>
      simp only [hstop] at h₁ ⊢
      rw [surely_guarded]
      exact h₁

end

/-! ## Other rules -/

/-- A rule that demands no more if less has to hold afterwards. -/
def WaitRule.IsMono (rule : WaitRule σ) : Prop :=
  ∀ s abandon (K K' : σ → Prop), (∀ s, K s → K' s) → rule s abandon K → rule s abandon K'

/-- A rule that demands no more of a state that others have led to. -/
def WaitRule.IsStable (rule : WaitRule σ) (between : σ → σ → Prop) : Prop :=
  ∀ s s₁ abandon (K : σ → Prop), between s s₁ → rule s abandon K → rule s₁ abandon K

section

variable {between : σ → σ → Prop} {rule : WaitRule σ}

theorem isMono_amid (meanwhile : σ → σ → Prop) : (amid meanwhile).IsMono :=
  fun _ _ _ _ hK h s₁ hs₁ => hK s₁ (h s₁ hs₁)

theorem WaitRule.IsMono.givenUp (hrule : rule.IsMono) (stop : σ → Option ε)
    (gone : ε → σ → Prop) : (rule.givenUp between stop gone).IsMono := by
  intro s abandon K K' hK h
  refine hrule _ _ _ _ (fun s₁ h₁ s₂ hs₂ => ?_) h
  have h₂ := h₁ s₂ hs₂
  cases hstop : stop s₂ with
  | some reason =>
      simp only [hstop] at h₂ ⊢
      exact h₂
  | none =>
      simp only [hstop] at h₂ ⊢
      exact hK s₂ h₂

theorem WaitRule.IsMono.cleanedUp (hrule : rule.IsMono) (cleanup : σ → σ) :
    (rule.cleanedUp cleanup).IsMono := fun s _ => hrule s _

theorem WaitRule.IsStable.givenUp (hrule : rule.IsStable between) (stop : σ → Option ε)
    (gone : ε → σ → Prop) : (rule.givenUp between stop gone).IsStable between :=
  fun s s₁ abandon _ => hrule s s₁ abandon _

theorem WaitRule.IsStable.cleanedUp (hrule : rule.IsStable between) (cleanup : σ → σ) :
    (rule.cleanedUp cleanup).IsStable between := fun s s₁ _ => hrule s s₁ _

theorem Surely.mono (hrule : rule.IsMono) {Q Q' : α → σ → Prop} (hQ : ∀ a s, Q a s → Q' a s)
    {r : Routine σ α} {s : σ} (h : r.Surely between rule Q s) :
    r.Surely between rule Q' s := by
  induction r generalizing s with
  | done a => exact hQ a s h
  | act run next ih => exact fun s₁ hs₁ => ih _ (h s₁ hs₁)
  | wait ready timer abandon next ih => exact ⟨h.1, hrule _ _ _ _ (fun _ => ih) h.2⟩

/-- A routine comes to its end under any rule that demands less. -/
theorem Surely.weaken {rule' : WaitRule σ} (hmono : rule'.IsMono)
    (hrule : ∀ s abandon (K : σ → Prop), rule s abandon K → rule' s abandon K)
    {Q : α → σ → Prop} {r : Routine σ α} {s : σ} (h : r.Surely between rule Q s) :
    r.Surely between rule' Q s := by
  induction r generalizing s with
  | done a => exact h
  | act run next ih => exact fun s₁ hs₁ => ih _ (h s₁ hs₁)
  | wait ready timer abandon next ih =>
      exact ⟨h.1, hmono _ _ _ _ (fun _ => ih) (hrule _ _ _ h.2)⟩

variable (htrans : ∀ s t u, between s t → between t u → between s u)
  (hmono : rule.IsMono) (hstable : rule.IsStable between)
include htrans hstable

/-- What has begun to run may do so in any state that others have led to. -/
theorem Surely.later {Q : α → σ → Prop} (hQ : ∀ a s s₁, between s s₁ → Q a s → Q a s₁)
    {r : Routine σ α} {s s₁ : σ} (hs : between s s₁) (h : r.Surely between rule Q s) :
    r.Surely between rule Q s₁ := by
  cases r with
  | done a => exact hQ a s s₁ hs h
  | act run next => exact fun s₂ hs₂ => h s₂ (htrans s s₁ s₂ hs hs₂)
  | wait ready timer abandon next => exact ⟨h.1, hstable s s₁ abandon _ hs h.2⟩

include hmono

/-- A routine may be wrapped in changes that others might have made as well. -/
theorem Surely.around {Q : α → σ → Prop} (hQ : ∀ a s s₁, between s s₁ → Q a s → Q a s₁)
    {enter leave : σ → σ} (henter : ∀ s, between s (enter s)) (hleave : ∀ s, between s (leave s))
    {r : Routine σ α} {s : σ} (h : r.Surely between rule Q s) :
    (r.around enter leave).Surely between rule Q s := by
  induction r generalizing s with
  | done a => exact h
  | act run next ih =>
      intro s₁ hs₁
      have hnext := h (enter s₁) (htrans s s₁ _ hs₁ (henter s₁))
      have hlater := hnext.later htrans hstable hQ (hleave (run (enter s₁)).2)
      exact ih _ hlater
  | wait ready timer abandon next ih => exact ⟨h.1, hmono _ _ _ _ (fun _ => ih) h.2⟩

end

/-! ## Conditions -/

/-- A condition that others keep to between changes, and at every wait with a cleanup of
    a given kind. -/
structure Upholds (between : σ → σ → Prop) (rule : WaitRule σ) (kind : (σ → σ) → Prop)
    (I : σ → Prop) : Prop where
  between : ∀ {s s₁}, between s s₁ → I s → I s₁
  waits : ∀ {s abandon} {K : σ → Prop}, kind abandon → I s → (∀ s₁, I s₁ → K s₁) →
    rule s abandon K

namespace Upholds

variable {between : σ → σ → Prop} {rule : WaitRule σ} {kind : (σ → σ) → Prop} {I : σ → Prop}

theorem givenUp (h : Upholds between rule kind I) {stop : σ → Option ε} {gone : ε → σ → Prop}
    (hgone : ∀ {s abandon reason}, kind abandon → I s → stop s = some reason →
      gone reason (abandon s)) :
    Upholds between (rule.givenUp between stop gone) kind I where
  between := h.between
  waits := fun hkind hI hK => h.waits hkind hI fun s₁ h₁ s₂ hs₂ => by
    have h₂ := h.between hs₂ h₁
    cases hstop : stop s₂ with
    | some reason => exact hgone hkind h₂ hstop
    | none => exact hK s₂ h₂

/-- The condition may be used together with the knowledge that there is no reason to stop. -/
theorem givenUp_calm (h : Upholds between rule kind I) {J : σ → Prop} {stop : σ → Option ε}
    {gone : ε → σ → Prop} (hJ : ∀ {s}, J s → I s)
    (hbetween : ∀ {s s₁}, between s s₁ → J s → J s₁)
    (hcalm : ∀ {s}, I s → stop s = none → J s)
    (hgone : ∀ {s abandon reason}, kind abandon → I s → stop s = some reason →
      gone reason (abandon s)) :
    Upholds between (rule.givenUp between stop gone) kind J where
  between := hbetween
  waits := fun hkind hs hK => h.waits hkind (hJ hs) fun s₁ h₁ s₂ hs₂ => by
    have h₂ := h.between hs₂ h₁
    cases hstop : stop s₂ with
    | some reason => exact hgone hkind h₂ hstop
    | none => exact hK s₂ (hcalm h₂ hstop)

theorem cleanedUp (h : Upholds between rule kind I) {cleanup : σ → σ}
    (hkind : ∀ {abandon}, kind abandon → kind fun s => cleanup (abandon s)) :
    Upholds between (rule.cleanedUp cleanup) kind I where
  between := h.between
  waits := fun habandon hI hK => h.waits (hkind habandon) hI hK

end Upholds

/-! ## Runs -/

/-- Every run among others ends as wanted. -/
theorem Surely.of_runsAmong {now : σ → Nat} {others : σ → σ → Prop}
    (htrans : ∀ s t u, others s t → others t u → others s u) {Q : α → σ → Prop}
    {r : Routine σ α} {s s' : σ} {a : α} (h : r.Surely others (amid others) Q s)
    (hrun : r.RunsAmong now others s a s') : Q a s' := by
  induction r generalizing s with
  | done b =>
      rcases hrun with ⟨rfl, rfl⟩
      exact h
  | act run next ih =>
      rcases hrun with ⟨s₁, hs₁, hrun⟩
      exact ih _ (h s₁ hs₁) hrun
  | wait ready timer abandon next ih =>
      rcases hrun with ⟨s₁, s₂, hs₁, _, hs₂, hrun⟩
      exact ih (h.2 s₂ (htrans s s₁ s₂ hs₁ hs₂)) hrun

end Routine

end ChainSync
