import ChainSync.Proofs.Cancel.Tended

/-!
# Records

Settled handles are cancelled for what happened to them or above them, and for
nothing else.

An orderly run keeps a record (`Recorded`) of what was asked of its handles and
tokens, and of the first turns of watchers, from which the time of a handle counts.
Once nobody is woken any more, the record tells which handles are cancelled. A cause
that is there has been acted on, since a handle without a watcher is cancelled and a
watcher with a cause would be awake. And a handle that is cancelled has a reason, for
which there are grounds, or its token was cancelled by somebody.

## Main definitions

* `Coordinator.Recorded`: What a run has left behind.

## Theorems

* `Coordinator.Recorded.step`, `Coordinator.Recorded.steps`: A run keeps its record.
* `Coordinator.Recorded.isCancelled_iff`: Which handles are cancelled.
-/

namespace ChainSync

namespace Coordinator

variable {c : Coordinator} {past : List Step} {first : Nat → Option Nat} {ds : List Derivation}

/-! ## Records -/

/-- What an orderly run has left behind: a coordinator, the steps it took and the
    handles that were derived. What was asked for has been done. -/
structure Recorded (past : List Step) (c : Coordinator) (ds : List Derivation) : Prop where
  reached : c = Coordinator.steps {} past
  sound : c.Sound
  tended : Tended past (firstTurn {} past) c ds
  asked : ∀ id, .op (.cancel id) ∈ past → c.isCancelled id = true
  struck : ∀ t, .op (.cancelToken t) ∈ past → c.isTokenCancelled t = true

theorem grows_step (c : Coordinator) (s : Step) : c.Grows (c.step s) := by
  cases s with
  | op o => exact c.grows_apply o
  | watcher id =>
      have hcalled : c.Grows { c with woken := c.woken.erase id } := .of_eq rfl rfl fun hf => hf
      exact hcalled.trans (grows_runWatcher _ id)

theorem grows_steps (c : Coordinator) (ss : List Step) : c.Grows (c.steps ss) := by
  induction ss generalizing c with
  | nil => exact .refl c
  | cons s ss ih => exact (c.grows_step s).trans (ih _)

theorem sound_step (hs : c.Sound) (s : Step) : (c.step s).Sound := by
  cases s with
  | op o => exact sound_apply hs o
  | watcher id => exact (sound_apply hs (.reschedule (c.woken.erase id))).runWatcher id

theorem tended_step (ht : Tended past first c ds) {s : Step} (hs : s.Possible c) :
    Tended (past ++ [s]) (c.noted first s) (c.step s) (ds ++ (c.derivation? s).toList) := by
  have hlast : s ∈ past ++ [s] := List.mem_append_right _ (List.mem_singleton.mpr rfl)
  have hmono : Tended (past ++ [s]) first c ds := ht.mono fun _ hs => List.mem_append_left _ hs
  -- A step that derives no handle leaves the derivations as they are.
  have hplain {first : Nat → Option Nat} (hnone : c.derivation? s = none)
      (h : Tended (past ++ [s]) first (c.step s) ds) :
      Tended (past ++ [s]) first (c.step s) (ds ++ (c.derivation? s).toList) := by
    rw [hnone, Option.toList_none, List.append_nil]
    exact h
  cases s with
  | watcher id => exact hplain rfl (hmono.takeTurn hs)
  | op o =>
      rw [noted_op]
      cases o with
      | derive parent timeout => exact hmono.derive hs timeout
      | makeToken parent => exact hplain rfl (hmono.makeToken hs)
      | clone id =>
          refine hplain rfl (hmono.setClones id (· + 1) fun h hh hdead => ?_)
          -- Only somebody with a clone can make another one.
          have hlive : c.isLive id = true := hs
          simp [isLive, hh, hdead] at hlive
      | drop id => exact hplain rfl (hmono.drop id)
      | cancel id =>
          refine hplain rfl (hmono.cancelWith id .requested fun d _ hid _ _ => ?_)
          rw [← hid] at hlast ⊢
          exact hlast
      | cancelToken t => exact hplain rfl (hmono.cancelToken hlast)
      | fire => exact hplain rfl hmono.fire
      | signal => exact hplain rfl (hmono.count (c.signals + 1)).fire
      | moveTo t => exact hplain rfl (hmono.moveTo t)
      | reschedule woken => exact absurd hs fun h => h
      | turn id => exact absurd hs fun h => h

theorem Recorded.step (hr : Recorded past c ds) {s : Step} (hs : s.Possible c) :
    Recorded (past ++ [s]) (c.step s) (ds ++ (c.derivation? s).toList) where
  reached := by rw [hr.reached, steps_append, steps_cons, steps_nil]
  sound := sound_step hr.sound s
  tended := by
    rw [firstTurn_concat, ← hr.reached]
    exact tended_step hr.tended hs
  asked := fun id hid => by
    rcases List.mem_append.mp hid with hid | hid
    · exact (c.grows_step s).isCancelled (hr.asked id hid)
    · rw [← List.mem_singleton.mp hid] at hs ⊢
      have hlive : c.isLive id = true := hs
      cases hh : c.handle? id with
      | none => simp [isLive, hh] at hlive
      | some h =>
          -- The request cancels the token that the handle has, then and afterwards.
          have hnow : (c.cancel id).2.isTokenCancelled h.token = true :=
            isTokenCancelled_cancelWith .requested hh (hr.sound.held id h hh).token
          have hafter : (c.cancel id).2.handle? id = some { h with
              reason := h.reason.or (some .requested) } := by
            rw [cancel, handle?_cancelWith, hh, Option.map_some, if_pos rfl]
          change (c.cancel id).2.isCancelled id = true
          simpa [isCancelled, hafter] using hnow
  struck := fun t ht => by
    rcases List.mem_append.mp ht with ht | ht
    · exact (c.grows_step s).isTokenCancelled (hr.struck t ht)
    · rw [← List.mem_singleton.mp ht] at hs ⊢
      exact c.forest.isCancelled_cancel_self hs

theorem Recorded.steps (hr : Recorded past c ds) {ss : List Step} (ho : c.Orderly ss) :
    Recorded (past ++ ss) (c.steps ss) (ds ++ c.derivations ss) := by
  induction ss generalizing c past ds with
  | nil => simpa [derivations] using hr
  | cons s ss ih => simpa [derivations] using ih (hr.step ho.1) ho.2

theorem recorded_empty : Recorded [] {} [] where
  reached := rfl
  sound := sound_empty
  tended := by
    refine ⟨⟨rfl, rfl, ?_, ?_, ?_, .nil, ?_, ?_, ?_⟩, ?_, ?_, ?_, ?_, ?_⟩
    · exact fun _ _ _ ht => absurd ht (by simp)
    · exact fun _ hd => absurd hd (by simp)
    · exact fun _ hd => absurd hd (by simp)
    · exact fun _ hw => absurd hw (by simp)
    · exact fun _ hd => absurd hd (by simp)
    · exact fun _ _ ht => absurd ht (by simp [firstTurn])
    · exact fun _ hd => absurd hd (by simp)
    · exact fun _ hw => absurd hw (by simp)
    · exact fun _ hd => absurd hd (by simp)
    · exact fun _ hd => absurd hd (by simp)
    · rintro t ⟨_, ht, _⟩
      exact absurd ht (by simp)
  asked := fun _ h => absurd h (by simp)
  struck := fun _ h => absurd h (by simp)

theorem recorded (past : List Step) (ho : Orderly {} past) :
    Recorded past (steps {} past) (derivations {} past) := recorded_empty.steps ho

/-! ## Settled handles -/

/-- Once nobody is woken, the watcher of a handle that is not cancelled has had a turn. -/
theorem Tended.begun (ht : Tended past first c ds) (hw : c.woken = []) {d : Derivation}
    (hd : d ∈ ds) (hnot : c.isTokenCancelled d.token = false) : ∃ t, first d.id = some t := by
  cases hfirst : first d.id with
  | some t => exact ⟨t, rfl⟩
  | none =>
      have hwoken := ht.awake _ (ht.watched d hd hnot) (.inl hfirst)
      rw [hw] at hwoken
      exact absurd hwoken List.not_mem_nil

/-- Once nobody is woken, a handle with a cause is cancelled. -/
theorem Tended.cancelled_of_cause (ht : Tended past first c ds) (hw : c.woken = [])
    {d : Derivation} (hd : d ∈ ds)
    (hcause : c.isTokenCancelled d.parent = true ∨ ∃ t ∈ d.deadline (first d.id), t ≤ c.now) :
    c.isTokenCancelled d.token = true := by
  cases hnot : c.isTokenCancelled d.token with
  | true => rfl
  | false =>
      -- Its watcher would be awake.
      have hwoken := ht.awake _ (ht.watched d hd hnot)
        (.inr ((causeFor_isSome c _).mpr (.inr hcause)))
      rw [hw] at hwoken
      exact absurd hwoken List.not_mem_nil

/-- When the time of a handle is up. -/
theorem Derivation.exists_deadline (d : Derivation) (now : Nat) :
    (∃ t ∈ d.deadline (first d.id), t ≤ now) ↔
      ∃ ms ∈ d.timeout, ∃ t ∈ first d.id, t + min ms longestWait ≤ now := by
  unfold Derivation.deadline
  cases first d.id <;> cases d.timeout <;> simp

/-- A handle is cancelled exactly for what happened to it or above it. -/
theorem Recorded.isCancelled_iff (hr : Recorded past c ds) (hw : c.woken = []) {d : Derivation}
    (hd : d ∈ ds) (hlive : c.isLive d.id = true) :
    c.isCancelled d.id = true ↔
      c.fired = true ∨ .op (.cancel d.id) ∈ past ∨ .op (.cancelToken d.token) ∈ past ∨
      c.isTokenCancelled d.parent = true ∨
      ∃ ms ∈ d.timeout, ∃ t ∈ firstTurn {} past d.id, t + min ms longestWait ≤ c.now := by
  have hlineage := hr.tended.lineage
  rcases hlineage.handle? hd with ⟨h, hh, htoken⟩
  rw [← d.exists_deadline, hlineage.isCancelled hd]
  constructor
  · intro hcancelled
    have hstruck := (hlineage.isTokenCancelled hd).mp hcancelled
    cases hreason : h.reason with
    | none => exact .inr (.inr (.inl (hr.tended.accounted.bare d hd h hh hreason hstruck)))
    | some r =>
        have hgrounds := hr.tended.accounted.reason d hd h hh r hreason
        cases r with
        | shutdown => exact .inl hgrounds
        | parentCancelled => exact .inr (.inr (.inr (.inl hgrounds)))
        | deadlineExceeded => exact .inr (.inr (.inr (.inr hgrounds)))
        | requested => exact .inr (.inl hgrounds)
        -- A handle in use has not been released.
        | released =>
            have hdead : h.isLive = false := hgrounds
            simp [isLive, hh, hdead] at hlive
  · rintro (hfired | hasked | hstruck | hcause)
    · exact htoken ▸ (hr.sound.held d.id h hh).latched hfired
    · exact hlineage.isCancelled hd ▸ hr.asked d.id hasked
    · exact hr.struck d.token hstruck
    · exact hr.tended.cancelled_of_cause hw hd hcause

end Coordinator

end ChainSync
