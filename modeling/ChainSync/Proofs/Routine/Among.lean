import ChainSync.Routine

/-!
# Routines Among Others

What a routine does while others change the state as well.

Schedulers differ in when they let a routine go on. `RunsAmong` leaves all of
it open: others may change the state before every change of the routine, and
while it waits. What they may do is a relation, so a statement about all runs
holds for all schedulers and all of the others that keep to the relation.

`Does` is the other side: a relation that all changes of the routine keep to,
wherever they are made. If the others keep to it too, so does the run.

Giving a routine up and wrapping it change the tree of the routine. The last
theorems lead from a run of the changed tree back to a run of the routine.

## Main definitions

* `Routine.RunsAmong`: A routine that comes to its end among others.
* `Routine.Does`: What all changes of a routine have in common.
* `Routine.runAmid`: A run among given others.

## Theorems

* `runsAmong_bind`: One routine after another.
* `RunsAmong.keeps`: A run keeps to what all its changes keep to.
* `runsAmong_of_around`: A run of a wrapped routine.
* `runsAmong_of_guarded`, `runsAmong_of_unlessStopped`: A run of a routine that
  may be given up.
* `runsAmong_of_poll`: A routine that ends at once.
* `runsAmong_of_runAmid`: A run among given others is one among all of their kind.
-/

namespace ChainSync

namespace Routine

variable {σ α β ε : Type}

/-- A routine that starts in a state comes to its end, with its answer and the
    state at that moment. Others change the state in between. Once a routine
    could go on, it does so at some later moment. -/
def RunsAmong (now : σ → Nat) (others : σ → σ → Prop) : Routine σ α → σ → α → σ → Prop
  | done a, s, b, s' => a = b ∧ s = s'
  | act run next, s, b, s' =>
    ∃ s₁, others s s₁ ∧ (next (run s₁).1).RunsAmong now others (run s₁).2 b s'
  | wait ready timer abandon next, s, b, s' =>
    ∃ s₁ s₂, others s s₁ ∧ (wait ready timer abandon next).canGoOn (now s₁) s₁ = true ∧
      others s₁ s₂ ∧ next.RunsAmong now others s₂ b s'

/-- All changes of a routine keep to a relation, also when it is given up. -/
def Does (P : σ → σ → Prop) : Routine σ α → Prop
  | done _ => True
  | act run next => (∀ s, P s (run s).2) ∧ ∀ b, (next b).Does P
  | wait _ _ abandon next => (∀ s, P s (abandon s)) ∧ next.Does P

/-- Runs a routine to its end, or to a wait that does not come to its end. What others do is
    given: they change the state once before each change of the routine, and once during each
    wait. -/
def runAmid (now : σ → Nat) (meanwhile : Nat → σ → σ) : Routine σ α → Nat → σ → Option α × σ
  | done a, _, s => (some a, s)
  | act run next, n, s =>
    let (b, s) := run (meanwhile n s)
    (next b).runAmid now meanwhile (n + 1) s
  | wait ready timer abandon next, n, s =>
    let s := meanwhile n s
    if (wait ready timer abandon next).canGoOn (now s) s then
      next.runAmid now meanwhile (n + 1) s
    else (none, s)

section

variable {now : σ → Nat} {others : σ → σ → Prop}

/-- A run of one routine after another is a run of the one and then of the other. -/
theorem runsAmong_bind (r : Routine σ α) (f : α → Routine σ β) (s : σ) (b : β) (s' : σ) :
    (r.bind f).RunsAmong now others s b s' ↔
      ∃ a s₁, r.RunsAmong now others s a s₁ ∧ (f a).RunsAmong now others s₁ b s' := by
  induction r generalizing s with
  | done a =>
      constructor
      · intro h
        exact ⟨a, s, ⟨rfl, rfl⟩, h⟩
      · rintro ⟨_, _, ⟨rfl, rfl⟩, h⟩
        exact h
  | act run next ih =>
      constructor
      · rintro ⟨s₁, hothers, h⟩
        rcases (ih _ _).mp h with ⟨a, s₂, h₁, h₂⟩
        exact ⟨a, s₂, ⟨s₁, hothers, h₁⟩, h₂⟩
      · rintro ⟨a, s₂, ⟨s₁, hothers, h₁⟩, h₂⟩
        exact ⟨s₁, hothers, (ih _ _).mpr ⟨a, s₂, h₁, h₂⟩⟩
  | wait ready timer abandon next ih =>
      constructor
      · rintro ⟨s₁, s₂, hothers, hgo, hlater, h⟩
        rcases (ih _).mp h with ⟨a, s₃, h₁, h₂⟩
        exact ⟨a, s₃, ⟨s₁, s₂, hothers, hgo, hlater, h₁⟩, h₂⟩
      · rintro ⟨a, s₃, ⟨s₁, s₂, hothers, hgo, hlater, h₁⟩, h₂⟩
        exact ⟨s₁, s₂, hothers, hgo, hlater, (ih _).mpr ⟨a, s₃, h₁, h₂⟩⟩

/-- The same for routines that an error ends. -/
theorem runsAmong_run_bind (x : ExceptT ε (Routine σ) α) (f : α → ExceptT ε (Routine σ) β)
    (s : σ) (b : Except ε β) (s' : σ) :
    (x >>= f).run.RunsAmong now others s b s' ↔
      ∃ a s₁, x.run.RunsAmong now others s a s₁ ∧ match a with
        | .ok a => (f a).run.RunsAmong now others s₁ b s'
        | .error e => .error e = b ∧ s₁ = s' := by
  refine (runsAmong_bind x.run _ s b s').trans (exists_congr fun a => exists_congr fun s₁ => ?_)
  cases a with
  | ok a => rfl
  | error e => rfl

/-- A change is made in some state that others have led to. -/
theorem runsAmong_perform (run : σ → α × σ) (s : σ) (a : α) (s' : σ) :
    (perform run).RunsAmong now others s a s' ↔ ∃ s₁, others s s₁ ∧ run s₁ = (a, s') := by
  constructor
  · rintro ⟨s₁, hothers, ha, hs⟩
    exact ⟨s₁, hothers, Prod.ext ha hs⟩
  · rintro ⟨s₁, hothers, h⟩
    exact ⟨s₁, hothers, by rw [h], by rw [h]⟩

/-- One routine after another, where the first one ends at once. -/
theorem poll_bind {r : Routine σ α} {s s' : σ} {a : α} (h : r.poll s = (done a, s'))
    (f : α → Routine σ β) : (r.bind f).poll s = (f a).poll s' := by
  induction r generalizing s with
  | done b =>
      rcases Prod.mk.inj h with ⟨hb, rfl⟩
      rw [show b = a by injection hb]
      rfl
  | act run next ih => exact ih _ h
  | wait ready timer abandon next ih =>
      rcases Prod.mk.inj h with ⟨hb, _⟩
      exact absurd hb (by simp only [reduceCtorEq, not_false_eq_true])

/-- A routine that ends at once does so among others that do nothing. -/
theorem runsAmong_of_poll (hrefl : ∀ s, others s s) {r : Routine σ α} {s s' : σ} {a : α}
    (h : r.poll s = (done a, s')) : r.RunsAmong now others s a s' := by
  induction r generalizing s with
  | done b =>
      rcases Prod.mk.inj h with ⟨hb, hs⟩
      exact ⟨by injection hb, hs⟩
  | act run next ih => exact ⟨s, hrefl s, ih _ h⟩
  | wait ready timer abandon next ih =>
      rcases Prod.mk.inj h with ⟨hb, _⟩
      exact absurd hb (by simp only [reduceCtorEq, not_false_eq_true])

/-- A run among given others is a run among all that do likewise. -/
theorem runsAmong_of_runAmid {meanwhile : Nat → σ → σ} (hrefl : ∀ s, others s s)
    (hothers : ∀ n s, others s (meanwhile n s)) {r : Routine σ α} {n : Nat} {s s' : σ} {a : α}
    (h : r.runAmid now meanwhile n s = (some a, s')) : r.RunsAmong now others s a s' := by
  induction r generalizing n s with
  | done b =>
      rcases Prod.mk.inj h with ⟨hb, hs⟩
      exact ⟨Option.some.inj hb, hs⟩
  | act run next ih => exact ⟨meanwhile n s, hothers n s, ih _ h⟩
  | wait ready timer abandon next ih =>
      simp only [runAmid] at h
      split at h
      · next hgo => exact ⟨meanwhile n s, meanwhile n s, hothers n s, hgo, hrefl _, ih h⟩
      · exact absurd (Prod.mk.inj h).1 (by simp only [reduceCtorEq, not_false_eq_true])

/-- A run keeps to a relation that the others and all its own changes keep to. -/
theorem RunsAmong.keeps {P : σ → σ → Prop} (hrefl : ∀ s, P s s)
    (htrans : ∀ {s t u}, P s t → P t u → P s u) (hothers : ∀ s t, others s t → P s t)
    {r : Routine σ α} (hdoes : r.Does P) {s s' : σ} {a : α}
    (h : r.RunsAmong now others s a s') : P s s' := by
  induction r generalizing s with
  | done b =>
      rw [h.2]
      exact hrefl s'
  | act run next ih =>
      rcases h with ⟨s₁, h₁, h⟩
      exact htrans (hothers s s₁ h₁) (htrans (hdoes.1 s₁) (ih _ (hdoes.2 _) h))
  | wait ready timer abandon next ih =>
      rcases h with ⟨s₁, s₂, h₁, _, h₂, h⟩
      exact htrans (hothers s s₁ h₁) (htrans (hothers s₁ s₂ h₂) (ih hdoes.2 h))

end

/-! ## What routines that are put together do -/

section

variable {P : σ → σ → Prop}

theorem Does.bind {r : Routine σ α} {f : α → Routine σ β} (hr : r.Does P)
    (hf : ∀ a, (f a).Does P) : (r.bind f).Does P := by
  induction r with
  | done a => exact hf a
  | act run next ih => exact ⟨hr.1, fun b => ih b (hr.2 b)⟩
  | wait ready timer abandon next ih => exact ⟨hr.1, ih hr.2⟩

theorem Does.guarded (hrefl : ∀ s, P s s) {stop : σ → Option ε} {r : Routine σ α}
    (hr : r.Does P) : (r.guarded stop).Does P := by
  induction r with
  | done a => trivial
  | act run next ih => exact ⟨hr.1, fun b => ih b (hr.2 b)⟩
  | wait ready timer abandon next ih =>
      -- A wait that is given up is abandoned in the state that has the reason.
      refine ⟨hr.1, fun s => ?_, fun reason => ?_⟩
      · cases hstop : stop s with
        | some reason =>
            simp only [hstop]
            exact hr.1 s
        | none =>
            simp only [hstop]
            exact hrefl s
      · cases reason with
        | some reason => trivial
        | none => exact ih hr.2

theorem Does.unlessStopped (hrefl : ∀ s, P s s) {stop : σ → Option ε} {r : Routine σ α}
    (hr : r.Does P) : (r.unlessStopped stop).Does P := by
  refine ⟨hrefl, fun reason => ?_⟩
  cases reason with
  | some reason => trivial
  | none => exact hr.guarded hrefl

theorem Does.ensuring (htrans : ∀ {s t u}, P s t → P t u → P s u) {cleanup : σ → σ}
    (hcleanup : ∀ s, P s (cleanup s)) {r : Routine σ α} (hr : r.Does P) :
    (r.ensuring cleanup).Does P := by
  induction r with
  | done a => exact ⟨hcleanup, fun _ => trivial⟩
  | act run next ih => exact ⟨hr.1, fun b => ih b (hr.2 b)⟩
  | wait ready timer abandon next ih =>
      exact ⟨fun s => htrans (hr.1 s) (hcleanup _), ih hr.2⟩

theorem Does.around (htrans : ∀ {s t u}, P s t → P t u → P s u) {enter leave : σ → σ}
    (henter : ∀ s, P s (enter s)) (hleave : ∀ s, P s (leave s)) {r : Routine σ α}
    (hr : r.Does P) : (r.around enter leave).Does P := by
  induction r with
  | done a => trivial
  | act run next ih =>
      exact ⟨fun s => htrans (henter s) (htrans (hr.1 _) (hleave _)), fun b => ih b (hr.2 b)⟩
  | wait ready timer abandon next ih => exact ⟨hr.1, ih hr.2⟩

end

/-- One routine after another is wrapped by wrapping both. -/
theorem around_bind (enter leave : σ → σ) (r : Routine σ α) (f : α → Routine σ β) :
    (r.bind f).around enter leave =
      (r.around enter leave).bind fun a => (f a).around enter leave := by
  induction r with
  | done a => rfl
  | act run next ih =>
      simp only [bind, around]
      congr 1
      exact funext ih
  | wait ready timer abandon next ih =>
      simp only [bind, around]
      rw [ih]

/-! ## Back to a routine that has been wrapped or given up -/

section

variable {now : σ → Nat} {P : σ → σ → Prop} (hrefl : ∀ s, P s s)
  (htrans : ∀ {s t u}, P s t → P t u → P s u)
include hrefl htrans

/-- A run of a wrapped routine is one of the routine, for which the wrapping is
    something that others do. -/
theorem runsAmong_of_around {enter leave : σ → σ} (henter : ∀ s, P s (enter s))
    (hleave : ∀ s, P s (leave s)) {r : Routine σ α} {s₀ s s' : σ} {a : α}
    (h₀ : P s₀ s) (h : (r.around enter leave).RunsAmong now P s a s') :
    ∃ s₁, r.RunsAmong now P s₀ a s₁ ∧ P s₁ s' := by
  induction r generalizing s₀ s with
  | done b =>
      rcases h with ⟨rfl, rfl⟩
      exact ⟨s₀, ⟨rfl, rfl⟩, h₀⟩
  | act run next ih =>
      -- Entering comes before the change and leaving after it, as if others did it.
      rcases h with ⟨s₁, h₁, h⟩
      rcases ih _ (hleave _) h with ⟨s₂, hrun, hlast⟩
      exact ⟨s₂, ⟨enter s₁, htrans h₀ (htrans h₁ (henter s₁)), hrun⟩, hlast⟩
  | wait ready timer abandon next ih =>
      rcases h with ⟨s₁, s₂, h₁, hgo, h₂, h⟩
      rcases ih (hrefl s₂) h with ⟨s₃, hrun, hlast⟩
      exact ⟨s₃, ⟨s₁, s₂, htrans h₀ h₁, hgo, h₂, hrun⟩, hlast⟩

/-- A run of a routine that may be given up is a run of the routine itself, or
    it ends with the reason to stop in a state that has one. A reason that has
    come up must not go away: otherwise the wait that it has ended would go on
    for no reason. -/
theorem runsAmong_of_guarded {stop : σ → Option ε}
    (hstop : ∀ {s t}, P s t → (stop s).isSome = true → (stop t).isSome = true)
    {r : Routine σ α} (hdoes : r.Does P) {s₀ s s' : σ} {x : Except ε α} (h₀ : P s₀ s)
    (h : (r.guarded stop).RunsAmong now P s x s') :
    (∃ a s₁, x = .ok a ∧ r.RunsAmong now P s₀ a s₁ ∧ P s₁ s') ∨
      ∃ reason m, x = .error reason ∧ P s₀ m ∧ stop m = some reason ∧ P m s' := by
  induction r generalizing s₀ s with
  | done b =>
      rcases h with ⟨rfl, rfl⟩
      exact .inl ⟨b, s₀, rfl, ⟨rfl, rfl⟩, h₀⟩
  | act run next ih =>
      rcases h with ⟨s₁, h₁, h⟩
      have hto : P s₀ (run s₁).2 := htrans h₀ (htrans h₁ (hdoes.1 s₁))
      rcases ih _ (hdoes.2 _) (hrefl _) h with ⟨a, s₂, hx, hrun, hlast⟩ | ⟨reason, m, hx, hm, hlast⟩
      · exact .inl ⟨a, s₂, hx, ⟨s₁, htrans h₀ h₁, hrun⟩, hlast⟩
      · exact .inr ⟨reason, m, hx, htrans hto hm, hlast⟩
  | wait ready timer abandon next ih =>
      rcases h with ⟨s₁, s₂, h₁, hgo, h₂, s₃, h₃, h⟩
      have hto : P s₀ s₃ := htrans h₀ (htrans h₁ (htrans h₂ h₃))
      cases hs : stop s₃ with
      | some reason =>
          simp only [hs] at h
          rcases h with ⟨rfl, rfl⟩
          exact .inr ⟨reason, s₃, rfl, hto, hs, hdoes.1 s₃⟩
      | none =>
          simp only [hs] at h
          -- There was no reason to stop when the wait ended, so it ended by itself.
          have hnone : (stop s₁).isSome = false := by
            cases hs₁ : (stop s₁).isSome with
            | false => rfl
            | true =>
                have hsome := hstop (htrans h₂ h₃) hs₁
                simp [hs] at hsome
          have hself : (wait ready timer abandon next).canGoOn (now s₁) s₁ = true := by
            simpa only [canGoOn, isReady, isDue, hnone, Bool.false_or] using hgo
          rcases ih hdoes.2 (hrefl _) h with ⟨a, s₄, hx, hrun, hlast⟩ | ⟨reason, m, hx, hm, hlast⟩
          · exact .inl ⟨a, s₄, hx, ⟨s₁, s₃, htrans h₀ h₁, hself, htrans h₂ h₃, hrun⟩, hlast⟩
          · exact .inr ⟨reason, m, hx, htrans hto hm, hlast⟩

/-- The same for a routine that is not even begun once there is a reason. -/
theorem runsAmong_of_unlessStopped {stop : σ → Option ε}
    (hstop : ∀ {s t}, P s t → (stop s).isSome = true → (stop t).isSome = true)
    {r : Routine σ α} (hdoes : r.Does P) {s s' : σ} {x : Except ε α}
    (h : (r.unlessStopped stop).RunsAmong now P s x s') :
    (∃ a s₁, x = .ok a ∧ r.RunsAmong now P s a s₁ ∧ P s₁ s') ∨
      ∃ reason m, x = .error reason ∧ P s m ∧ stop m = some reason ∧ P m s' := by
  rcases h with ⟨s₁, h₁, h⟩
  cases hs : stop s₁ with
  | some reason =>
      simp only [hs] at h
      rcases h with ⟨rfl, rfl⟩
      exact .inr ⟨reason, s₁, rfl, h₁, hs, hrefl s₁⟩
  | none =>
      simp only [hs] at h
      exact runsAmong_of_guarded hrefl htrans hstop hdoes h₁ h

end

end Routine

end ChainSync
