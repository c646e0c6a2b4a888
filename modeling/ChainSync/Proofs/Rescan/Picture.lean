import ChainSync.Proofs.Rescan.Futures
import ChainSync.Proofs.Rescan.Sights

/-!
# Pictures of Rescans

What anybody sees in the slot, in whatever order rescans go on.

A rescan that holds the slot is the only one to change what is there, and while it does
the sights of a rescan are written by that rescan alone. So what is known of a single
rescan is not lost when others take their steps. Between any two changes, the session in
the slot is the one of the rescan that holds it, as it stands after the calls it has made;
and with nobody holding the slot there is no session.

The calls themselves are looked at from inside. The session that is seen in a call of the
rescan agrees with that call. A rescan that is turned away makes a call as well, and what
is seen in that one is the rescan that has the slot.

## Main definitions

* `Rescans.Pictures`: What there is to see, between changes and in calls.
* `Rescans.Extends`: Rescans later on.

## Theorems

* `Rescans.Tracked.step`: A step leaves all that is seen faithful.
* `Rescans.tracked_run`: So does a run.
* `Rescans.slot_pictures_rescans`: What holds of all interleavings.
-/

namespace ChainSync

open Engine

variable {ι χ : Type}

/-- Somebody else leaves the slot alone, and what is written down of it. -/
def RescanStep.LeavesSights : RescanStep ι (Sighted ι χ) → Prop
  | .other f => ∀ e, (f e).slot = e.slot ∧ ∀ i, (f e).sights i = e.sights i
  | _ => True

namespace Rescans

/-- Rescans later on: no claim is lost, and no sight. -/
structure Extends (w w' : Rescans ι (Sighted ι χ)) : Prop where
  claims : ∀ p ∈ w.claims, p ∈ w'.claims
  sights : ∀ i, w.engine.sights i <+: w'.engine.sights i

theorem Extends.refl (w : Rescans ι (Sighted ι χ)) : w.Extends w :=
  ⟨fun _ h => h, fun _ => List.prefix_refl _⟩

theorem Extends.trans {w w' w'' : Rescans ι (Sighted ι χ)} (h : w.Extends w')
    (h' : w'.Extends w'') : w.Extends w'' :=
  ⟨fun p hp => h'.claims p (h.claims p hp), fun i => (h.sights i).trans (h'.sights i)⟩

end Rescans

namespace RescanFuture

/-- What is known of the sights of a rescan, and of what it has still to do. -/
def Tracked (call : RescanCall χ) (i : ι) (e : Engine (Sighted ι χ)) :
    RescanFuture (Sighted ι χ) → Prop
  | fresh => e.sights i = []
  | holding id rest => (e.view i).Faithful call id ∧
    rest.Tracks (view i) (Upkeeps call id i) (fun _ _ => True) (fun _ => True) (e.view i)
  | ended id _ => ∀ own, id = some own → AllFit call own (e.sights i)
  | dropped id => ∀ own, id = some own → AllFit call own (e.sights i)

variable {call : RescanCall χ} {i : ι} {e : Engine (Sighted ι χ)}

/-- The sights of a rescan go with the id it got. -/
theorem Tracked.fits {future : RescanFuture (Sighted ι χ)} (h : future.Tracked call i e) {id : Nat}
    (hid : future.id? = some id) : AllFit call id (e.sights i) := by
  cases future with
  | fresh => exact absurd hid (by simp [id?])
  | holding own rest =>
      obtain rfl : own = id := Option.some.inj hid
      exact h.1.fits
  | ended own x => exact h id hid
  | dropped own => exact h id hid

/-- A rescan goes on, or has come to its end. -/
theorem tracked_past {id : Nat} {rest : Routine (Engine (Sighted ι χ)) (Except Panic RescanOutcome)}
    (hfaithful : (e.view i).Faithful call id)
    (hrest : rest.Tracks (view i) (Upkeeps call id i) (fun _ _ => True) (fun _ => True)
      (e.view i)) : (past id rest).Tracked call i e := by
  cases rest with
  | done x => exact fun own hown => Option.some.inj hown ▸ hfaithful.fits
  | act run next => exact ⟨hfaithful, hrest⟩
  | wait ready timer abandon next => exact ⟨hfaithful, hrest⟩

/-- Others do not take away what is known of a rescan. -/
theorem Tracked.later {e' : Engine (Sighted ι χ)} (hsights : e'.sights i = e.sights i)
    {future : RescanFuture (Sighted ι χ)}
    (hslot : ∀ id rest, future = .holding id rest → e'.slot.active = e.slot.active)
    (h : future.Tracked call i e) : future.Tracked call i e' := by
  cases future with
  | fresh => exact hsights.trans h
  | holding id rest =>
      have hview : e'.view i = e.view i := by
        rw [view, view, hsights, hslot id rest rfl]
      unfold Tracked
      rw [hview]
      exact h
  | ended id x => exact fun own hown => hsights ▸ h own hown
  | dropped id => exact fun own hown => hsights ▸ h own hown

end RescanFuture

namespace Rescans

/-- The invariant: what is known of each rescan. -/
def Tracked (calls : ι → RescanCall χ) (w : Rescans ι (Sighted ι χ)) : Prop :=
  ∀ i, (w.future i).Tracked (calls i) i w.engine

variable {calls : ι → RescanCall χ} {w : Rescans ι (Sighted ι χ)}

theorem Tracked.future (hp : w.Tracked calls) {i : ι} {future : RescanFuture (Sighted ι χ)}
    (hi : w.future i = future) : future.Tracked (calls i) i w.engine := hi ▸ hp i

/-- A rescan that nobody has let go on has not seen anything. -/
theorem Tracked.sights_fresh (hp : w.Tracked calls) {i : ι} (hi : w.future i = .fresh) :
    w.engine.sights i = [] := hp.future hi

theorem Tracked.fits (hp : w.Tracked calls) (hs : w.Sound) {i : ι} {id : Nat}
    (hclaim : (i, id) ∈ w.claims) : AllFit (calls i) id (w.engine.sights i) :=
  (hp i).fits ((hs.known i id).mpr hclaim)

/-- The session in the slot is the one of the rescan that has it. -/
theorem Tracked.shows (hp : w.Tracked calls) {i : ι} {id : Nat}
    {rest : Routine (Engine (Sighted ι χ)) (Except Panic RescanOutcome)}
    (hi : w.future i = .holding id rest) {v : RescanSession}
    (hv : w.engine.slot.active = some v) :
    v.Shows (calls i) id (w.engine.sights i) ∧
      v.current = reached (calls i).start (w.engine.sights i) := (hp.future hi).1.shows v hv

/-- Later on, the session is never below where it stands now. -/
theorem Tracked.rises (hp : w.Tracked calls) (hs : w.Sound) {w' : Rescans ι (Sighted ι χ)}
    (hp' : w'.Tracked calls) (hs' : w'.Sound) (hext : w.Extends w') {i : ι} {id : Nat}
    {rest : Routine (Engine (Sighted ι χ)) (Except Panic RescanOutcome)} {v : RescanSession}
    (hi : w.future i = .holding id rest) (hv : w.engine.slot.active = some v) :
    (∀ id' rest' v', w'.future i = .holding id' rest' → w'.engine.slot.active = some v' →
      v.current ≤ v'.current) ∧
    ∀ earlier s u, w.engine.sights i <+: earlier → earlier ++ [s] <+: w'.engine.sights i →
      s.seen = some u → v.current ≤ u.current := by
  have hclaim : (i, id) ∈ w'.claims :=
    hext.claims _ ((hs.known i id).mp (by rw [hi]; rfl))
  have hfits := hp'.fits hs' hclaim
  have hcurrent := (hp.shows hi hv).2
  refine ⟨fun id' rest' v' hi' hv' => ?_, fun earlier s u hlater hs hu => ?_⟩
  · -- It is still the same claim.
    have hknown := (hs'.known i id).mpr hclaim
    rw [hi'] at hknown
    obtain rfl : id' = id := Option.some.inj hknown
    exact (hp'.shows hi' hv').1.le_of_earlier hfits hcurrent (hext.sights i)
  · rcases hfits earlier s hs with ⟨u', hseen, hshows, _⟩
    obtain rfl := Option.some.inj (hu.symm.trans hseen)
    have hbefore : earlier <+: w'.engine.sights i := (List.prefix_append _ _).trans hs
    exact hshows.le_of_earlier (hfits.of_earlier hbefore) hcurrent hlater

/-! ## Steps -/

variable [DecidableEq ι]

/-- The calls with what there is to see in them. -/
def sighted (calls : ι → RescanCall χ) (i : ι) : RescanCall (Sighted ι χ) := (calls i).sighted i

theorem leavesSlot_sighted (hcalls : ∀ i, (calls i).LeavesSlot) (i : ι) :
    (sighted calls i).LeavesSlot := Engine.leavesSlot_sighted (hcalls i)

/-- One rescan has taken a step. -/
theorem Tracked.put (hp : w.Tracked calls) {i : ι} {future : RescanFuture (Sighted ι χ)}
    {e : Engine (Sighted ι χ)} {claims : List (ι × Nat)} (hclaims : ∀ p ∈ w.claims, p ∈ claims)
    (hgrows : w.engine.sights i <+: e.sights i)
    (hothers : ∀ j, j ≠ i → e.sights j = w.engine.sights j)
    (hslot : ∀ j, j ≠ i → ∀ id rest, w.future j = .holding id rest →
      e.slot.active = w.engine.slot.active)
    (hi : future.Tracked (calls i) i e) :
    let w' := { w.put i future e with claims }
    w'.Tracked calls ∧ w.Extends w' := by
  intro w'
  have hext : w.Extends w' := by
    refine ⟨hclaims, fun j => ?_⟩
    by_cases hji : j = i
    · rw [hji]
      exact hgrows
    · have hsame : w.engine.sights j = e.sights j := (hothers j hji).symm
      exact hsame ▸ List.prefix_refl _
  refine ⟨fun j => ?_, hext⟩
  by_cases hji : j = i
  · have hfuture : w'.future i = future := put_self w i future e
    rw [hji, hfuture]
    exact hi
  · have hfuture : w'.future j = w.future j := put_other w hji future e
    rw [hfuture]
    exact (hp j).later (hothers j hji) (hslot j hji)

/-- Whoever holds the slot is the only one, so it may change the slot. -/
theorem Tracked.put_holder (hp : w.Tracked calls) (hs : w.Sound) {i : ι} {id : Nat}
    {rest : Routine (Engine (Sighted ι χ)) (Except Panic RescanOutcome)}
    (hi : w.future i = .holding id rest) {future : RescanFuture (Sighted ι χ)}
    {e : Engine (Sighted ι χ)} (hkeeps : Upkeeps (calls i) id i w.engine e)
    (hfuture : (e.view i).Faithful (calls i) id → future.Tracked (calls i) i e) :
    (w.put i future e).Tracked calls ∧ w.Extends (w.put i future e) := by
  have hfaithful : (w.engine.view i).Faithful (calls i) id := (hp.future hi).1
  refine hp.put (fun _ h => h) hkeeps.grows hkeeps.others (fun j hji id' rest' hj => ?_)
    (hfuture (hkeeps.faithful hfaithful))
  exact absurd (hs.single j i id' id rest' rest hj hi) hji

/-- A rescan that has the slot goes on. -/
theorem Tracked.go_holding (hp : w.Tracked calls) (hs : w.Sound) {i : ι} {id : Nat}
    {rest : Routine (Engine (Sighted ι χ)) (Except Panic RescanOutcome)}
    (hi : w.future i = .holding id rest) :
    (w.go (sighted calls) i).Tracked calls ∧ w.Extends (w.go (sighted calls) i) := by
  have hpi := hp.future hi
  unfold go
  rw [hi]
  cases rest with
  | done x => exact ⟨hp, .refl w⟩
  | act run next =>
      rcases hpi.2 w.engine rfl with ⟨hkeeps, hnext⟩
      exact hp.put_holder hs hi hkeeps fun hfaithful =>
        RescanFuture.tracked_past hfaithful hnext
  | wait ready timer abandon next =>
      simp only []
      split
      · exact hp.put_holder hs hi (.refl _) fun hfaithful =>
          RescanFuture.tracked_past hfaithful hpi.2.2
      · exact ⟨hp, .refl w⟩

/-- A rescan that is turned away makes one call, in which the slot is as it is. -/
theorem Tracked.sights_refused (hp : w.Tracked calls) (hcalls : ∀ i, (calls i).LeavesSlot) {i : ι}
    (hi : w.future i = .fresh) (ht : w.engine.slot.isTaken = true) :
    let e := (w.go (sighted calls) i).engine
    e.slot = w.engine.slot ∧ (∀ j, j ≠ i → e.sights j = w.engine.sights j) ∧
      ∃ panic, e.sights i =
        [⟨(RescanOutcome.ofError .rescanInProgress).ending panic, w.engine.slot.active⟩] := by
  intro e
  have he : e = (sighted calls i).refuse w.engine := by
    simp only [e, go_of_taken (sighted calls) hi ht]
    rfl
  rcases sights_tell (i := i) (calls i).observer (.ofError .rescanInProgress)
    (w.engine.note [refusalLine (calls i).target]) with ⟨⟨panic, hsights⟩, hothers⟩
  have hnone : (w.engine.note [refusalLine (calls i).target]).sights i = [] := hp.sights_fresh hi
  rw [hnone] at hsights
  rw [he]
  exact ⟨slot_refuse (leavesSlot_sighted hcalls i) ht, hothers, panic, hsights⟩

theorem Tracked.go_refused (hp : w.Tracked calls) (hcalls : ∀ i, (calls i).LeavesSlot) {i : ι}
    (hi : w.future i = .fresh) (ht : w.engine.slot.isTaken = true) :
    (w.go (sighted calls) i).Tracked calls ∧ w.Extends (w.go (sighted calls) i) := by
  rcases hp.sights_refused hcalls hi ht with ⟨hslot, hothers, _⟩
  rw [go_of_taken (sighted calls) hi ht] at hslot hothers ⊢
  refine hp.put (fun _ h => h) ?_ hothers
    (fun _ _ _ _ _ => congrArg RescanSlot.active hslot) fun own hown => nomatch hown
  rw [hp.sights_fresh hi]
  exact List.nil_prefix

/-- A rescan that is let in. -/
theorem Tracked.go_accepted (hp : w.Tracked calls) (hs : w.Sound)
    (hcalls : ∀ i, (calls i).LeavesSlot) {i : ι} (hi : w.future i = .fresh)
    (hfree : w.engine.slot.isTaken = false) :
    (w.go (sighted calls) i).Tracked calls ∧ w.Extends (w.go (sighted calls) i) := by
  have hnone := hp.sights_fresh hi
  have hstands := stands_claim (calls i) hfree hnone
  have hgo := hs.go_of_free (leavesSlot_sighted hcalls) hi hfree
  have hsights (j : ι) : (w.engine.claim (calls i).start (calls i).target).2.sights j =
      w.engine.sights j :=
    congrArg (Sighted.sights · j) (claim_of_free hfree (calls i).start (calls i).target).2.2
  rw [hs.lastId] at hstands
  simp only [] at hgo
  rw [hgo]
  refine hp.put (fun _ => List.mem_append_left _) ?_ (fun j _ => hsights j)
    (fun j _ id rest hj => ?_) ?_
  · rw [hnone]
    exact List.nil_prefix
  · exact absurd (hs.isTaken hj) (by rw [hfree]; exact Bool.false_ne_true)
  · exact ⟨hstands.faithful, tracks_held (hcalls i) hstands⟩

theorem Tracked.go (hp : w.Tracked calls) (hs : w.Sound) (hcalls : ∀ i, (calls i).LeavesSlot)
    (i : ι) : (w.go (sighted calls) i).Tracked calls ∧ w.Extends (w.go (sighted calls) i) := by
  cases hi : w.future i with
  | fresh =>
      cases ht : w.engine.slot.isTaken with
      | true => exact hp.go_refused hcalls hi ht
      | false => exact hp.go_accepted hs hcalls hi ht
  | holding id rest => exact hp.go_holding hs hi
  | ended id x =>
      unfold Rescans.go
      rw [hi]
      exact ⟨hp, .refl w⟩
  | dropped id =>
      unfold Rescans.go
      rw [hi]
      exact ⟨hp, .refl w⟩

/-- A rescan is dropped before its claim, or where it waits. -/
theorem Tracked.drop (hp : w.Tracked calls) (hs : w.Sound) (i : ι) :
    (w.drop i).Tracked calls ∧ w.Extends (w.drop i) := by
  unfold Rescans.drop
  cases hi : w.future i with
  | fresh =>
      exact hp.put (fun _ h => h) (List.prefix_refl _) (fun _ _ => rfl) (fun _ _ _ _ _ => rfl)
        fun own hown => nomatch hown
  | holding id rest =>
      cases rest with
      | done x => exact ⟨hp, .refl w⟩
      | act run next => exact ⟨hp, .refl w⟩
      | wait ready timer abandon next =>
          have habandon := (hp.future hi).2.1 w.engine rfl
          exact hp.put_holder hs hi habandon.1 fun hfaithful own hown =>
            Option.some.inj hown ▸ hfaithful.fits
  | ended id x => exact ⟨hp, .refl w⟩
  | dropped id => exact ⟨hp, .refl w⟩

/-- A step leaves all that is seen faithful. -/
theorem Tracked.step (hp : w.Tracked calls) (hs : w.Sound) (hcalls : ∀ i, (calls i).LeavesSlot)
    {s : RescanStep ι (Sighted ι χ)} (hstep : s.LeavesSights) :
    (w.step (sighted calls) s).Tracked calls ∧ w.Extends (w.step (sighted calls) s) := by
  cases s with
  | go i => exact hp.go hs hcalls i
  | drop i => exact hp.drop hs i
  | other f =>
      rcases hstep w.engine with ⟨hslot, hsights⟩
      have hext : w.Extends { w with engine := f w.engine } :=
        ⟨fun _ h => h, fun i => (hsights i).symm ▸ List.prefix_refl _⟩
      refine ⟨fun i => ?_, hext⟩
      exact (hp i).later (hsights i) fun _ _ _ => congrArg RescanSlot.active hslot

/-- So does a run. -/
theorem tracked_run (hp : w.Tracked calls) (hs : w.Sound) (hcalls : ∀ i, (calls i).LeavesSlot)
    (steps : List (RescanStep ι (Sighted ι χ))) (hsteps : ∀ s ∈ steps, s.LeavesSights) :
    let w' := w.run (sighted calls) steps
    w'.Tracked calls ∧ w'.Sound ∧ w.Extends w' := by
  induction steps generalizing w with
  | nil => exact ⟨hp, hs, .refl w⟩
  | cons s steps ih =>
      have hstep : s.LeavesSights := hsteps s List.mem_cons_self
      have hs' : (w.step (sighted calls) s).Sound := by
        refine sound_step hs (leavesSlot_sighted hcalls) fun f hf e => ?_
        rw [hf] at hstep
        exact (hstep e).1
      rcases hp.step hs hcalls hstep with ⟨hp', hext⟩
      rcases ih hp' hs' fun s hmem => hsteps s (List.mem_cons_of_mem _ hmem) with
        ⟨htracked, hsound, hext'⟩
      exact ⟨htracked, hsound, hext.trans hext'⟩

/-! ## What there is to see -/

/-- What there is to see of rescans, wherever somebody looks. -/
structure Pictures (calls : ι → RescanCall χ) (w : Rescans ι (Sighted ι χ)) : Prop where
  /-- With no rescan past its claim there is no session. -/
  nothing : (∀ i id rest, w.future i ≠ .holding id rest) → w.engine.slot.active = none
  /-- Between two changes the session is the one of the rescan that has the slot, under the
      id of its claim. It stands at the height that was reported last, or one below the
      start. -/
  session : ∀ i id rest, w.future i = .holding id rest → (i, id) ∈ w.claims ∧
    ∃ v, w.engine.slot.active = some v ∧ v.Shows (calls i) id (w.engine.sights i) ∧
      v.current = reached (calls i).start (w.engine.sights i)
  /-- In each call of a rescan that was let in, the session is its own. -/
  fits : ∀ i id, (i, id) ∈ w.claims → AllFit (calls i) id (w.engine.sights i)
  /-- A rescan that is turned away makes one call, in which the session is the one that is in
      the slot at that moment. -/
  elsewhere : ∀ i, w.future i = .fresh → w.engine.slot.isTaken = true →
    ∃ panic, (w.go (sighted calls) i).engine.sights i =
      [⟨(RescanOutcome.ofError .rescanInProgress).ending panic, w.engine.slot.active⟩]
  /-- Later on, the height is never below what it is now, neither between changes nor in
      calls. -/
  rises : ∀ more, (∀ s ∈ more, RescanStep.LeavesSights s) →
    ∀ i id rest v, w.future i = .holding id rest → w.engine.slot.active = some v →
      let w' := w.run (sighted calls) more
      (∀ id' rest' v', w'.future i = .holding id' rest' → w'.engine.slot.active = some v' →
        v.current ≤ v'.current) ∧
      ∀ earlier s u, w.engine.sights i <+: earlier → earlier ++ [s] <+: w'.engine.sights i →
        s.seen = some u → v.current ≤ u.current

/-- Wherever somebody looks at the slot, in whatever order any number of rescans go on,
    are dropped or are turned away: there is a faithful picture of the rescan that has the
    slot, and nothing if none has. -/
theorem slot_pictures_rescans (calls : ι → RescanCall χ) (hcalls : ∀ i, (calls i).LeavesSlot)
    (e : Engine (Sighted ι χ)) (he : e.slot = {}) (hnone : ∀ i, e.sights i = [])
    (steps : List (RescanStep ι (Sighted ι χ))) (hsteps : ∀ s ∈ steps, s.LeavesSights) :
    ((start e).run (sighted calls) steps).Pictures calls := by
  have hstart : (start e).Tracked calls := hnone
  rcases tracked_run hstart (sound_start he) hcalls steps hsteps with ⟨hp, hs, _⟩
  generalize (start e).run (sighted calls) steps = w at hp hs
  refine ⟨fun hnobody => ?_, fun i id rest hi => ?_, fun i id hclaim => hp.fits hs hclaim,
    fun i hi ht => (hp.sights_refused hcalls hi ht).2.2,
    fun more hmore i id rest v hi hv => ?_⟩
  · cases hactive : w.engine.slot.active with
    | none => rfl
    | some v =>
        rcases hs.taken (show w.engine.slot.active.isSome = true by rw [hactive]; rfl) with
          ⟨i, id, rest, hi⟩
        exact absurd hi (hnobody i id rest)
  · rcases Option.isSome_iff_exists.mp (hs.isTaken hi) with ⟨v, hv⟩
    exact ⟨(hs.known i id).mp (by rw [hi]; rfl), v, hv, hp.shows hi hv⟩
  · rcases tracked_run hp hs hcalls more hmore with ⟨hp', hs', hext⟩
    exact hp.rises hs hp' hs' hext hi hv

/-- A rescan of the lowest heights there are, which lets others go on during each scan and
    is stopped after the second height, and one that is started meanwhile. -/
def lowest : Bool → RescanCall Unit
  | true =>
    { scan := fun _ => do .giveWay; return .scanned
      observer :=
        { onScan := fun height e => (if height = -2147483647 then .stop else .goOn, e)
          onEnd := fun _ _ e => (none, e)
          onError := fun _ _ e => (none, e) }
      handle := 1
      start := -2147483648
      target := -2147483640 }
  | false =>
    { scan := fun _ => .done .scanned
      observer :=
        { onScan := fun _ e => (.goOn, e)
          onEnd := fun _ _ e => (none, e)
          onError := fun _ _ e => (none, e) }
      handle := 1
      start := 7
      target := 9 }

/-- The first session has the lowest height already, since there is none below. It is gone
    when the rescan is dropped while it scans, and otherwise once it has told its end. -/
theorem pictures_of_lowest_heights :
    let e : Engine (Sighted Bool Unit) :=
      { controller := { network := .testnet, observers := [] }, own := { own := () } }
    let steps := List.replicate 5 (.go true) ++ [.go false]
    let w := (start e).run (sighted lowest) steps
    let dropped := (start e).run (sighted lowest) (steps ++ [.drop true])
    let ended := (start e).run (sighted lowest) (steps ++ List.replicate 30 (.go true))
    (∀ b, (lowest b).LeavesSlot) ∧
      w.Pictures lowest ∧ dropped.Pictures lowest ∧ ended.Pictures lowest ∧
      w.engine.slot.active = some ⟨1, -2147483648, -2147483640, -2147483648, false⟩ ∧
      (w.engine.sights false).map (·.seen) = [w.engine.slot.active] ∧
      dropped.engine.slot.active = none ∧ ended.engine.slot.active = none ∧
      (ended.engine.sights true).getLast? = some ⟨.onEnd (-2147483647) true none,
        some ⟨1, -2147483648, -2147483640, -2147483647, true⟩⟩ := by
  intro e steps w dropped ended
  have hleaves : ∀ b, (lowest b).LeavesSlot := fun b => by
    cases b with
    | true =>
        refine ⟨fun _ => ⟨fun _ _ => rfl, trivial⟩, fun _ _ _ => rfl, ?_, ?_⟩
        · exact fun _ _ _ _ => rfl
        · exact fun _ _ _ _ => rfl
    | false =>
        refine ⟨fun _ => trivial, fun _ _ _ => rfl, ?_, ?_⟩
        · exact fun _ _ _ _ => rfl
        · exact fun _ _ _ _ => rfl
  have hpictures (more : List (RescanStep Bool (Sighted Bool Unit)))
      (hmore : ∀ s ∈ more, s.LeavesSights) :
      ((start e).run (sighted lowest) (steps ++ more)).Pictures lowest := by
    refine slot_pictures_rescans lowest hleaves e rfl (fun _ => rfl) _ fun s hs => ?_
    rcases List.mem_append.mp hs with hs | hs
    · simp only [steps, List.mem_append, List.mem_replicate, List.mem_singleton] at hs
      rcases hs with ⟨_, rfl⟩ | rfl <;> trivial
    · exact hmore s hs
  refine ⟨hleaves, hpictures [] fun s hs => absurd hs List.not_mem_nil,
    hpictures _ fun s hs => ?_, hpictures _ fun s hs => ?_, ?_, ?_, ?_, ?_, ?_⟩
  · rw [List.mem_singleton.mp hs]
    trivial
  · rw [(List.mem_replicate.mp hs).2]
    trivial
  · decide +kernel
  · decide +kernel
  · decide +kernel
  · decide +kernel
  · decide +kernel

end Rescans

end ChainSync
