import ChainSync.Proofs.Controller.Drive

/-!
# Overtaken Drives

A drive whose session has made way for another one.

A drive concludes with whatever session is current at that moment. Nothing ties
it to the session it was entered for: once that one is over, anybody may begin
another, and the drive then finds a session under way that is not its own, and
ends it with its own outcome. `drive_ends_current_session` says exactly when
this happens, for all work, all others and all schedulers. It does not happen
as long as nobody begins a session while the drive is running.

## Main definitions

* `Controller.Disturbs`: A step that meddles with a session of another id.

## Theorems

* `Controller.conclude_disturbs_iff`: When the end of a drive does so.
* `Engine.drive_ends_current_session`: The same for whole drives.
* `Engine.overtaken_drive_ends_current_session`: A drive that ends the session
  after its own.
-/

namespace ChainSync

namespace Controller

/-- A step changes the phase or the error of a session other than the one with
    an id, or tells an observer of an end of it. -/
def Disturbs (c c' : Controller) (id : UInt64) : Prop :=
  ∃ t, c.session = some t ∧ t.id ≠ id ∧
    ((∃ t', c'.session = some t' ∧ (t'.phase ≠ t.phase ∨ t'.terminal ≠ t.terminal)) ∨
      ∃ i more, c'.heard i = c.heard i ++ more ∧ ∃ event ∈ more, event.isTerminal = true)

/-- The end of a drive disturbs another session exactly if that is under way. -/
theorem conclude_disturbs_iff (c : Controller) (error : Option SyncError) (now : Nat)
    (id : UInt64) : c.Disturbs (c.conclude error now).2 id ↔
      ∃ t, c.session = some t ∧ t.id ≠ id ∧ t.isActive = true := by
  constructor
  · rintro ⟨t, ht, hid, hdisturbed⟩
    refine ⟨t, ht, hid, ?_⟩
    cases hactive : t.isActive with
    | true => rfl
    | false =>
        -- A session that is over is left alone, and nobody hears of it.
        rw [conclude_over error now ht hactive] at hdisturbed
        rcases hdisturbed with ⟨t', ht', hchanged⟩ | ⟨i, more, hheard, event, hevent, _⟩
        · rw [← Option.some.inj (ht.symm.trans ht')] at hchanged
          exact absurd hchanged (by simp)
        · rw [List.self_eq_append_right.mp hheard] at hevent
          exact absurd hevent (by simp)
  · rintro ⟨t, ht, hid, hactive⟩
    rcases conclude_active error now ht hactive with ⟨t', heq, _, hphase, _⟩
    refine ⟨t, ht, hid, .inl ⟨t', by rw [heq]; rfl, .inl fun hsame => ?_⟩⟩
    rw [Session.isActive, ← hsame, hphase] at hactive
    cases error <;> simp [Phase.isTerminal] at hactive

/-- Calls that begin no session leave the current one current. -/
theorem run_session {c : Controller} {s : Session} {calls : List Call}
    (hs : c.session = some s) (hstay : c.StaysOn calls) :
    ∃ s', (c.run calls).session = some s' ∧ s'.id = s.id := by
  induction calls generalizing c s with
  | nil => exact ⟨s, hs, rfl⟩
  | cons call calls ih =>
      rcases after_continues hs hstay.1 with ⟨_, s₁, hc, _⟩
      rcases ih hc.session hstay.2 with ⟨s', hs', hid⟩
      exact ⟨s', hs', hid.trans hc.advances.id⟩

end Controller

namespace Engine

variable {χ : Type}

/-- The final step of a drive meets the session `t` that is current then,
    whatever session `s` the drive was entered for, and ends it if it is under
    way. So it disturbs another session exactly if one has been begun and has
    not ended by then; it never does if neither the work nor anybody else
    begins a session. -/
theorem drive_ends_current_session (others : Engine χ → Engine χ → Prop) (handle : Nat)
    (work : Routine (Engine χ) (Except SyncError Unit)) {e e' : Engine χ}
    {a : Except SyncError Unit} {s : Session} (hs : e.controller.session = some s)
    (hrun : (drive handle work).RunsAmong now others e a e') :
    ∃ first outcome done last, others e first ∧
      (within (sessionSpan handle first) (underHandle handle work)).RunsAmong now others first
        outcome done ∧
      others done last ∧
      (a, e'.controller) = last.controller.conclude (error? outcome) last.instant ∧
      (last.controller.Disturbs e'.controller s.id ↔
        ∃ t, last.controller.session = some t ∧ t.id ≠ s.id ∧ t.isActive = true) ∧
      (∀ t, last.controller.session = some t → t.isActive = true →
        ∃ t', e'.controller.session = some t' ∧ t'.id = t.id ∧
          t'.phase = (if (error? outcome).isSome then .failed else .synced) ∧
          ∀ i < last.controller.observers.length, e'.controller.heard i =
            last.controller.heard i ++ [Session.closingEvent (error? outcome)]) ∧
      (work.Does Moves → (∀ e₁ e₂, others e₁ e₂ → e₁.Moves e₂) →
        ¬last.controller.Disturbs e'.controller s.id) := by
  rcases drive_split hrun with ⟨first, outcome, done, last, h₁, hwork, h₂, hconclude, _⟩
  have hc : e'.controller = (last.controller.conclude (error? outcome) last.instant).2 :=
    congrArg Prod.snd hconclude
  have hiff : last.controller.Disturbs e'.controller s.id ↔
      ∃ t, last.controller.session = some t ∧ t.id ≠ s.id ∧ t.isActive = true := by
    rw [hc]
    exact last.controller.conclude_disturbs_iff (error? outcome) last.instant s.id
  refine ⟨first, outcome, done, last, h₁, hwork, h₂, hconclude, hiff, fun t ht hactive => ?_,
    fun hdoes hothers hdisturbs => ?_⟩
  · rcases Controller.conclude_active (error? outcome) last.instant ht hactive with
      ⟨t', heq, hadv, hphase, _⟩
    rw [hc, heq]
    exact ⟨t', rfl, hadv.id, hphase, fun i hi =>
      Controller.heard_emit { last.controller with session := some t' } _ hi⟩
  · -- Nobody has begun a session, so the current one is still the drive's own.
    have hmoves : e.Moves last := (hothers _ _ h₁).trans
      ((hwork.keeps Moves.refl Moves.trans hothers (does_within _ (does_underHandle _ hdoes))).trans
        (hothers _ _ h₂))
    rcases hmoves.calls with ⟨calls, hstay, hrunlast⟩
    rcases Controller.run_session hs hstay with ⟨s', hs', hid⟩
    rcases hiff.mp hdisturbs with ⟨t, ht, hne, _⟩
    rw [hrunlast, hs'] at ht
    exact hne (Option.some.inj ht ▸ hid)

/-- Work that reports the sync as done, begins the next one, and then fails. -/
def restart : Routine (Engine Unit) (Except SyncError Unit) := do
  let _ ← .perform (·.report .synced)
  let _ ← .perform (·.begin)
  return .error (.storage "flush failed")

theorem overtaken_drive_ends_current_session :
    ∃ s e', underway.controller.session = some s ∧ s.id = 1 ∧
      (drive 1 restart).RunsAmong now Eq underway (.error (.storage "flush failed")) e' ∧
      (e'.controller.session.map fun t => (t.id, t.phase)) = some (2, .failed) ∧
      ∃ (outcome : Except SyncError Unit) (last : Engine Unit),
        (.error (.storage "flush failed"), e'.controller) =
          last.controller.conclude (error? outcome) last.instant ∧
        (last.controller.Disturbs e'.controller s.id ↔
          ∃ t, last.controller.session = some t ∧ t.id ≠ s.id ∧ t.isActive = true) := by
  have hs : underway.controller.session = some _ := rfl
  have hpoll : ((drive 1 restart).poll underway).1 =
    .done (.error (.storage "flush failed")) := rfl
  have hrun : (drive 1 restart).RunsAmong now Eq underway (.error (.storage "flush failed")) _ :=
    Routine.runsAmong_of_poll (fun _ => rfl) (Prod.ext hpoll rfl)
  rcases drive_ends_current_session Eq 1 restart hs hrun with
    ⟨_, outcome, _, last, _, _, _, hconclude, hiff, _⟩
  exact ⟨_, _, hs, rfl, hrun, rfl, outcome, last, hconclude, hiff⟩

end Engine

end ChainSync
