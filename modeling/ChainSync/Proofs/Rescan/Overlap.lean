import ChainSync.Proofs.Rescan.Futures

/-!
# Overlapping Rescans

There is one rescan at a time, and the others make no difference to it.

That there is only one is the invariant of all runs. That the others make no difference
is a statement on two runs, one with the rescans that are turned away and one without
them. All that is left of them is a line in the journal and a call of their observer.
So the two engines are compared apart from the journal, and apart from what those
observers keep to themselves: `view` is the part of the own state that everybody else
looks at.

In states that are `Alike` all others do the same, step by step, and are in states that
are alike again. That includes rescans that start others in their callbacks: with and
without those starts they cannot be told apart.

## Main definitions

* `Engine.Alike`: Engines that only differ in the journal and in what is not viewed.
* `RescanCall.Like`: Calls that cannot be told apart.
* `RescanCall.nesting`: A call that starts another rescan in its callbacks.
* `Rescans.TakeTurns`: Where rescans stand, and what each of them may do next.

## Theorems

* `Engine.relates_held`: Rescans that cannot be told apart.
* `RescanCall.like_nesting`: Rescans that are started in callbacks.
* `Rescans.like_run`: Runs with and without the rescans that are turned away.
* `Rescans.rescans_take_turns`: What holds of all interleavings.
-/

namespace ChainSync

namespace Engine

variable {χ ω : Type} {view : χ → ω}

/-- An engine without its journal, seen through a view. -/
def outline (view : χ → ω) (e : Engine χ) : Engine ω := { e with own := view e.own, journal := [] }

/-- Engines that only differ in the journal and in what is not viewed. -/
def Alike (view : χ → ω) (e e' : Engine χ) : Prop := e.outline view = e'.outline view

namespace Alike

variable {e e' e'' : Engine χ}

theorem refl (e : Engine χ) : Alike view e e := rfl

theorem symm (h : Alike view e e') : Alike view e' e := Eq.symm h

theorem trans (h : Alike view e e') (h' : Alike view e' e'') : Alike view e e'' := Eq.trans h h'

/-- What can be read off the outline is the same. -/
theorem read {β : Type} (h : Alike view e e') (f : Engine ω → β) :
    f (e.outline view) = f (e'.outline view) := congrArg f h

/-- A change that can be made to the outline leads to engines that are alike. -/
theorem change (h : Alike view e e') (f : Engine χ → Engine χ) (g : Engine ω → Engine ω)
    (hf : ∀ e, (f e).outline view = g (e.outline view)) : Alike view (f e) (f e') := by
  rw [Alike, hf, hf, h.read g]

theorem slot (h : Alike view e e') : e.slot = e'.slot := h.read (·.slot)

theorem coordinator (h : Alike view e e') : e.coordinator = e'.coordinator :=
  h.read (·.coordinator)

theorem allowance (h : Alike view e e') : e.allowance = e'.allowance := h.read (·.allowance)

theorem note (e : Engine χ) (lines : List Line) : Alike view (e.note lines) e := rfl

theorem spans (h : Alike view e e') (f : List Span → List Span) :
    Alike view { e with spans := f e.spans } { e' with spans := f e'.spans } :=
  h.change (fun e => { e with spans := f e.spans }) (fun e => { e with spans := f e.spans })
    fun _ => rfl

theorem modifySlot (h : Alike view e e') (f : RescanSlot → RescanSlot) :
    Alike view (e.modifySlot f) (e'.modifySlot f) :=
  h.change _ (fun e => { e with slot := f e.slot }) fun _ => rfl

/-- A claim is answered the same. -/
theorem claim (h : Alike view e e') (start target : Int32) :
    (e.claim start target).1 = (e'.claim start target).1 ∧
      Alike view (e.claim start target).2 (e'.claim start target).2 := by
  have hslot := h.slot
  unfold Engine.claim
  rw [hslot]
  rcases e'.slot.claim start target with ⟨answer, slot⟩
  cases answer with
  | none => exact ⟨rfl, h⟩
  | some id =>
      have hclaimed : Alike view { e with slot } { e' with slot } :=
        h.change (fun e => { e with slot }) (fun e => { e with slot }) fun _ => rfl
      exact ⟨rfl, hclaimed⟩

end Alike

end Engine

open Engine

variable {χ ω : Type} {view : χ → ω}

/-- Calls that cannot be told apart while the slot is taken. -/
structure RescanCall.Like (view : χ → ω) (call call' : RescanCall χ) : Prop where
  handle : call.handle = call'.handle
  start : call.start = call'.start
  target : call.target = call'.target
  scan : ∀ height, Routine.Relates (·.slot.isTaken = true) (Alike view) (call.scan height)
    (call'.scan height)
  onScan : ∀ height e e', e.slot.isTaken = true → Alike view e e' →
    (call.observer.onScan height e).1 = (call'.observer.onScan height e').1 ∧
      Alike view (call.observer.onScan height e).2 (call'.observer.onScan height e').2
  onEnd : ∀ height cancelled e e', e.slot.isTaken = true → Alike view e e' →
    Alike view (call.observer.onEnd height cancelled e).2
      (call'.observer.onEnd height cancelled e').2
  onError : ∀ code message e e', e.slot.isTaken = true → Alike view e e' →
    Alike view (call.observer.onError code message e).2 (call'.observer.onError code message e').2

/-- A call whose observer only minds its own business when it is turned away. -/
def RescanCall.Unseen (view : χ → ω) (call : RescanCall χ) : Prop :=
  ∀ code message (e : Engine χ), e.slot.isTaken = true →
    Alike view (call.observer.onError code message e).2 e

/-- A call whose observer starts another rescan first, whatever it is told. -/
def RescanCall.nesting (call inner : RescanCall χ) : RescanCall χ :=
  { call with
    observer :=
      { onScan := fun height e => call.observer.onScan height (inner.routine.poll e).2
        onEnd := fun height cancelled e =>
          call.observer.onEnd height cancelled (inner.routine.poll e).2
        onError := fun code message e =>
          call.observer.onError code message (inner.routine.poll e).2 } }

namespace Engine

variable {call call' : RescanCall χ}

/-- A panic of an observer that is told of the end only leaves a line. -/
theorem alike_told {x x' : Option Panic × Engine χ} (hx : Alike view x.2 x'.2) :
    Alike view
      (match x.1 with
        | none => x.2
        | some p => x.2.note
          [.error ("Rescan observer panicked handling terminal callback: " ++ p.message)])
      (match x'.1 with
        | none => x'.2
        | some p => x'.2.note
          [.error ("Rescan observer panicked handling terminal callback: " ++ p.message)]) := by
  rcases x with ⟨panic, e⟩
  rcases x' with ⟨panic', e'⟩
  cases panic <;> cases panic' <;> exact hx

theorem alike_tell (h : call.Like view call') (outcome : RescanOutcome) {e e' : Engine χ}
    (ht : e.slot.isTaken = true) (ha : Alike view e e') :
    Alike view (outcome.tell call.observer e) (outcome.tell call'.observer e') := by
  cases outcome with
  | completed height => exact alike_told (h.onEnd height false e e' ht ha)
  | cancelled height => exact alike_told (h.onEnd height true e e' ht ha)
  | failed code message => exact alike_told (h.onError code message e e' ht ha)

/-- A rescan that is turned away is not noticed. -/
theorem alike_refuse (h : call.Unseen view) {e : Engine χ} (ht : e.slot.isTaken = true) :
    Alike view (call.refuse e) e := by
  generalize hnoted : e.note [refusalLine call.target] = noted
  have hnote : Alike view noted e := hnoted ▸ .note e _
  have htaken : noted.slot.isTaken = true := hnote.slot ▸ ht
  let silent : Option Panic × Engine χ := (none, e)
  have htold : Alike view (call.observer.onError .unexpected "Rescan already in progress" noted).2
      silent.2 := (h _ _ noted htaken).trans hnote
  rw [RescanCall.refuse, hnoted]
  exact alike_told htold

theorem relates_reportScan (h : call.Like view call') (height : Int32) {e e' : Engine χ}
    (ht : e.slot.isTaken = true) (ha : Alike view e e') :
    (reportScan call.observer height e).1 = (reportScan call'.observer height e').1 ∧
      Alike view (reportScan call.observer height e).2 (reportScan call'.observer height e').2 := by
  have hadvance := ha.modifySlot (·.advance height)
  have htaken : (e.modifySlot (·.advance height)).slot.isTaken = true := by
    have hprogress : e.Progresses (e.modifySlot (·.advance height)) :=
      .modifySlot e (owner_advance height) fun _ => rfl
    exact hprogress.isTaken ht
  have hscan := h.onScan height _ _ htaken hadvance
  unfold reportScan
  generalize call.observer.onScan height (e.modifySlot (·.advance height)) = x at hscan ⊢
  generalize call'.observer.onScan height (e'.modifySlot (·.advance height)) = x' at hscan ⊢
  rcases x with ⟨answer, e₁⟩
  rcases x' with ⟨answer', e₁'⟩
  rcases hscan with ⟨hanswer, hlike⟩
  simp only [] at hanswer hlike
  rw [← hanswer]
  cases answer with
  | goOn => exact ⟨rfl, hlike⟩
  | stop => exact ⟨rfl, hlike.modifySlot _⟩
  | panicked p => exact ⟨rfl, hlike⟩

theorem relates_untilStopped {scan scan' : Routine (Engine χ) ScanResult}
    (h : Routine.Relates (·.slot.isTaken = true) (Alike view) scan scan') (handle : Nat) :
    Routine.Relates (·.slot.isTaken = true) (Alike view) (untilStopped handle scan)
      (untilStopped handle scan') := by
  have hstop : ∀ e e' : Engine χ, Alike view e e' → stopReason handle e = stopReason handle e' :=
    fun e e' ha => by rw [stopReason, stopReason, ha.coordinator]
  have hgiveWay : Routine.Relates (·.slot.isTaken = true) (Alike view)
      (giveWayIfSpent : Routine (Engine χ) Unit) giveWayIfSpent := by
    refine (Routine.relates_ask fun e e' ha => ha.allowance).bind fun n => ?_
    split
    · exact Routine.relates_pause (fun _ _ _ => rfl) _
    · exact .done ()
  refine (Routine.relates_ask hstop).bind fun reason => ?_
  cases reason with
  | some reason => exact .done _
  | none => exact hgiveWay.bind fun _ => h.unlessStopped hstop

/-- The loops over the heights, by induction on the blocks that are left. -/
theorem relates_scanFrom (h : call.Like view call') (handle : Nat) (target : Int32) (left : Nat)
    (height : Int32) :
    Routine.Relates (·.slot.isTaken = true) (Alike view)
      (scanFrom call.scan call.observer handle target left height)
      (scanFrom call'.scan call'.observer handle target left height) := by
  induction left generalizing height with
  | zero => exact .done _
  | succ left ih =>
      refine (relates_untilStopped (h.scan height) handle).bind fun result => ?_
      cases result with
      | error reason => exact .done _
      | ok result =>
          cases result with
          | failed error => exact .done _
          | panicked p => exact .done _
          | scanned =>
              refine Routine.Relates.bind (Routine.relates_perform fun e e' ht ha =>
                relates_reportScan h height ht ha) fun outcome => ?_
              cases outcome with
              | some outcome => exact .done _
              | none => exact ih (height + 1)

theorem relates_within {α : Type} {span : Span} {r r' : Routine (Engine χ) α}
    (h : Routine.Relates (·.slot.isTaken = true) (Alike view) r r') :
    Routine.Relates (·.slot.isTaken = true) (Alike view) (within span r) (within span r') := by
  refine Routine.Relates.around ?_ ?_ ?_ h
  · exact fun _ ht => ht
  · exact fun _ _ ha => ha.spans (· ++ [span])
  · exact fun _ _ ha => ha.spans List.dropLast

/-- Rescans that cannot be told apart, from their claims on. -/
theorem relates_held (h : call.Like view call') (id : Nat) :
    Routine.Relates (·.slot.isTaken = true) (Alike view) (held call id) (held call' id) := by
  have hrange : Routine.Relates (·.slot.isTaken = true) (Alike view)
      (scanRange call.scan call.observer call.handle call.start call.target)
      (scanRange call'.scan call'.observer call.handle call.start call.target) := by
    unfold scanRange
    split
    · refine Routine.Relates.bind (Routine.relates_update fun e e' _ ha => ?_) fun _ => ?_
      · exact (Alike.note e _).trans (ha.trans (Alike.note e' _).symm)
      · exact relates_scanFrom h _ _ _ _
    · exact relates_scanFrom h _ _ _ _
  unfold held
  rw [← h.handle, ← h.start, ← h.target]
  refine Routine.Relates.ensuring (fun e e' ha => ha.modifySlot _)
    (relates_within (hrange.bind fun x => ?_))
  cases x with
  | error p => exact .done _
  | ok outcome =>
      refine Routine.Relates.bind (Routine.relates_update fun e e' ht ha => ?_) fun _ => .done _
      exact alike_tell h outcome ht
        ((Alike.note e _).trans (ha.trans (Alike.note e' _).symm))

end Engine

namespace RescanCall

variable {call call' inner : RescanCall χ}

theorem leavesSlot_nesting (hcall : call.LeavesSlot) (hinner : inner.LeavesSlot) :
    (call.nesting inner).LeavesSlot := by
  have hstart {e : Engine χ} (ht : e.slot.isTaken = true) :
      (inner.routine.poll e).2.slot = e.slot := by
    rw [poll_rescan_of_taken inner ht]
    exact slot_refuse hinner ht
  refine ⟨hcall.scan, fun height e ht => ?_, fun height cancelled e ht => ?_,
    fun code message e ht => ?_⟩
  · exact (hcall.onScan height _ (hstart ht ▸ ht)).trans (hstart ht)
  · exact (hcall.onEnd height cancelled _ (hstart ht ▸ ht)).trans (hstart ht)
  · exact (hcall.onError code message _ (hstart ht ▸ ht)).trans (hstart ht)

/-- A call that starts rescans in its callbacks cannot be told from one that does not. -/
theorem like_nesting (hinner : inner.Unseen view) (hcall : call.Like view call') :
    (call.nesting inner).Like view call' := by
  have hstart {e e' : Engine χ} (ht : e.slot.isTaken = true) (ha : Alike view e e') :
      (inner.routine.poll e).2.slot.isTaken = true ∧
        Alike view (inner.routine.poll e).2 e' := by
    have hsame : Alike view (inner.routine.poll e).2 e := by
      rw [poll_rescan_of_taken inner ht]
      exact alike_refuse hinner ht
    exact ⟨hsame.slot ▸ ht, hsame.trans ha⟩
  refine ⟨hcall.handle, hcall.start, hcall.target, hcall.scan, fun height e e' ht ha => ?_,
    fun height cancelled e e' ht ha => ?_, fun code message e e' ht ha => ?_⟩
  · exact hcall.onScan height _ e' (hstart ht ha).1 (hstart ht ha).2
  · exact hcall.onEnd height cancelled _ e' (hstart ht ha).1 (hstart ht ha).2
  · exact hcall.onError code message _ e' (hstart ht ha).1 (hstart ht ha).2

end RescanCall

/-! ## Runs -/

/-- Futures that cannot be told apart. -/
inductive RescanFuture.Like (view : χ → ω) : RescanFuture χ → RescanFuture χ → Prop where
  | fresh : RescanFuture.Like view .fresh .fresh
  | holding {id : Nat} {rest rest' : Routine (Engine χ) (Except Panic RescanOutcome)}
    (h : Routine.Relates (·.slot.isTaken = true) (Alike view) rest rest') :
    RescanFuture.Like view (.holding id rest) (.holding id rest')
  | ended (id : Option Nat) (x : Except Panic RescanOutcome) :
    RescanFuture.Like view (.ended id x) (.ended id x)
  | dropped (id : Option Nat) : RescanFuture.Like view (.dropped id) (.dropped id)

theorem RescanFuture.like_past {rest rest' : Routine (Engine χ) (Except Panic RescanOutcome)}
    (id : Nat) (h : Routine.Relates (·.slot.isTaken = true) (Alike view) rest rest') :
    RescanFuture.Like view (past id rest) (past id rest') := by
  cases h with
  | done x => exact .ended (some id) x
  | act hrun hnext => exact .holding (.act hrun hnext)
  | wait hready habandon hnext => exact .holding (.wait hready habandon hnext)

/-- A step that is not made by a hidden future. -/
def RescanStep.isKept {ι : Type} (hidden : ι → Bool) : RescanStep ι χ → Bool
  | .go i => !hidden i
  | .drop i => !hidden i
  | .other _ => true

namespace Rescans

variable {ι : Type}

/-- Rescans that cannot be told apart but by the hidden ones. -/
structure Like (view : χ → ω) (hidden : ι → Bool) (w w' : Rescans ι χ) : Prop where
  engine : Alike view w.engine w'.engine
  future : ∀ i, hidden i = false → (w.future i).Like view (w'.future i)
  claims : w.claims = w'.claims

variable [DecidableEq ι] {calls calls' : ι → RescanCall χ} {hidden : ι → Bool}
  {w w' : Rescans ι χ}

namespace Like

theorem put (hl : Like view hidden w w') {i : ι} {future future' : RescanFuture χ}
    {e e' : Engine χ} (hfuture : future.Like view future') (he : Alike view e e') :
    Like view hidden (w.put i future e) (w'.put i future' e') := by
  refine ⟨he, fun j hj => ?_, hl.claims⟩
  by_cases hji : j = i
  · rw [hji, put_self, put_self]
    exact hfuture
  · rw [put_other w hji, put_other w' hji]
    exact hl.future j hj

/-- A hidden future may be changed on one side only. -/
theorem put_hidden (hl : Like view hidden w w') {i : ι} (hi : hidden i = true)
    {future : RescanFuture χ} {e : Engine χ} (he : Alike view e w'.engine) :
    Like view hidden (w.put i future e) w' := by
  refine ⟨he, fun j hj => ?_, hl.claims⟩
  have hji : j ≠ i := fun h => by
    rw [h, hi] at hj
    exact absurd hj (by decide)
  rw [put_other w hji]
  exact hl.future j hj

theorem go (hl : Like view hidden w w') (hs : w.Sound) {i : ι} (hi : hidden i = false)
    (hcalls : (calls i).Like view (calls' i)) :
    Like view hidden (w.go calls i) (w'.go calls' i) := by
  have hfuture := hl.future i hi
  unfold Rescans.go
  cases hw : w.future i with
  | fresh =>
      rw [hw] at hfuture
      generalize hw' : w'.future i = future' at hfuture
      cases hfuture
      have hclaim := hl.engine.claim (calls i).start (calls i).target
      rw [hcalls.start, hcalls.target] at hclaim ⊢
      simp only []
      cases ht : w.engine.slot.isTaken with
      | true =>
          have ht' : w'.engine.slot.isTaken = true := hl.engine.slot ▸ ht
          rw [claim_of_taken ht, claim_of_taken ht'] at hclaim ⊢
          exact hl.put (.ended _ _) (alike_tell hcalls _ ht hclaim.2)
      | false =>
          -- The slot is free on both sides, and the rescan gets the same id.
          have hid := (claim_of_free ht (calls' i).start (calls' i).target).1
          rcases hleft : w.engine.claim (calls' i).start (calls' i).target with ⟨answer, e⟩
          rcases hright : w'.engine.claim (calls' i).start (calls' i).target with ⟨answer', e'⟩
          rw [hleft, hright] at hclaim
          rw [hleft] at hid
          rcases hclaim with ⟨hanswer, he⟩
          simp only [] at hanswer he hid
          rw [← hanswer, hid]
          let id := w.engine.slot.lastId + 1
          have hput : Like view hidden (w.put i (.past id (held (calls i) id)) e)
              (w'.put i (.past id (held (calls' i) id)) e') :=
            hl.put (RescanFuture.like_past id (relates_held hcalls id)) he
          exact ⟨hput.engine, hput.future, by rw [hl.claims]⟩
  | holding id rest =>
      have ht := hs.isTaken hw
      rw [hw] at hfuture
      generalize hw' : w'.future i = future' at hfuture
      cases hfuture with
      | holding hrest =>
          cases hrest with
          | done x => exact hl
          | act hrun hnext =>
              -- The same change on both sides, and then whatever comes of the same answer.
              rcases hrun _ _ ht hl.engine with ⟨hanswer, he⟩
              simp only []
              rw [← hanswer]
              exact hl.put (RescanFuture.like_past id (hnext _ ht)) he
          | @wait ready ready' timer abandon abandon' next next' hready habandon hnext =>
              -- Whether a wait is over does not depend on what the others do.
              have hgo : (Routine.wait ready timer abandon next).canGoOn w.engine.now w.engine =
                  (Routine.wait ready' timer abandon' next').canGoOn w'.engine.now w'.engine := by
                have hnow : w.engine.now = w'.engine.now :=
                  congrArg Coordinator.now hl.engine.coordinator
                simp only [Routine.canGoOn, Routine.isReady, Routine.isDue]
                rw [hready _ _ hl.engine, hnow]
              simp only [hgo]
              split
              · exact hl.put (RescanFuture.like_past id hnext) hl.engine
              · exact hl
  | ended id x =>
      rw [hw] at hfuture
      generalize hw' : w'.future i = future' at hfuture
      cases hfuture
      exact hl
  | dropped id =>
      rw [hw] at hfuture
      generalize hw' : w'.future i = future' at hfuture
      cases hfuture
      exact hl

theorem drop (hl : Like view hidden w w') (hs : w.Sound) {i : ι} (hi : hidden i = false) :
    Like view hidden (w.drop i) (w'.drop i) := by
  have hfuture := hl.future i hi
  unfold Rescans.drop
  cases hw : w.future i with
  | fresh =>
      rw [hw] at hfuture
      generalize hw' : w'.future i = future' at hfuture
      cases hfuture
      exact hl.put (.dropped none) hl.engine
  | holding id rest =>
      have ht := hs.isTaken hw
      rw [hw] at hfuture
      generalize hw' : w'.future i = future' at hfuture
      cases hfuture with
      | holding hrest =>
          cases hrest with
          | done x => exact hl
          | act hrun hnext => exact hl
          | wait hready habandon hnext =>
              exact hl.put (.dropped (some id)) (habandon _ _ ht hl.engine)
  | ended id x =>
      rw [hw] at hfuture
      generalize hw' : w'.future i = future' at hfuture
      cases hfuture
      exact hl
  | dropped id =>
      rw [hw] at hfuture
      generalize hw' : w'.future i = future' at hfuture
      cases hfuture
      exact hl

/-- A hidden future that has not been let in by then may go on or be dropped. -/
theorem step_hidden (hl : Like view hidden w w') (hs : w.Sound)
    (hleaves : ∀ i, (calls i).LeavesSlot) {i : ι} (hi : hidden i = true)
    (hunseen : (calls i).Unseen view) {s : RescanStep ι χ} (hstep : s = .go i ∨ s = .drop i)
    (hnever : ∀ id, (i, id) ∉ (w.step calls s).claims) :
    Like view hidden (w.step calls s) w' := by
  rcases hstep with rfl | rfl
  · rcases hs.go_cases hleaves i with heq | ⟨_, ht, heq⟩ | ⟨_, _, heq⟩ | ⟨id, rest, hw, hgo⟩
    · rw [step, heq]
      exact hl
    · rw [step, heq]
      exact hl.put_hidden hi ((alike_refuse hunseen ht).trans hl.engine)
    · -- It would be let in now, or has been before.
      refine absurd ?_ (hnever (w.claims.length + 1))
      simp only [] at heq
      simp only [step, heq]
      exact List.mem_append_right _ (List.mem_singleton.mpr rfl)
    · have hclaimed : (i, id) ∈ w.claims := (hs.known i id).mp (by rw [hw, RescanFuture.id?])
      refine absurd ?_ (hnever id)
      rcases hgo with ⟨_, _, _, _, heq⟩ | ⟨_, heq⟩
      · rw [step, heq]
        exact hclaimed
      · rw [step, heq]
        exact hclaimed
  · rcases hs.drop_cases i with heq | ⟨_, heq⟩ | ⟨id, rest, e, hw, _, heq⟩
    · rw [step, heq]
      exact hl
    · rw [step, heq]
      exact hl.put_hidden hi hl.engine
    · have hclaimed : (i, id) ∈ w.claims := (hs.known i id).mp (by rw [hw, RescanFuture.id?])
      refine absurd ?_ (hnever id)
      rw [step, heq]
      exact hclaimed

end Like

theorem claims_step (hs : w.Sound) (hleaves : ∀ i, (calls i).LeavesSlot) (s : RescanStep ι χ)
    {p : ι × Nat} (hp : p ∈ w.claims) : p ∈ (w.step calls s).claims := by
  cases s with
  | other f => exact hp
  | go i =>
      rw [step]
      rcases hs.go_cases hleaves i with heq | ⟨_, _, heq⟩ | ⟨_, _, heq⟩ |
        ⟨_, _, _, ⟨_, _, _, _, heq⟩ | ⟨_, heq⟩⟩
      · rw [heq]
        exact hp
      · rw [heq]
        exact hp
      · simp only [] at heq
        rw [heq]
        exact List.mem_append_left _ hp
      · rw [heq]
        exact hp
      · rw [heq]
        exact hp
  | drop i =>
      rw [step]
      rcases hs.drop_cases i with heq | ⟨_, heq⟩ | ⟨_, _, _, _, _, heq⟩
      · rw [heq]
        exact hp
      · rw [heq]
        exact hp
      · rw [heq]
        exact hp

theorem claims_run (hs : w.Sound) (hleaves : ∀ i, (calls i).LeavesSlot)
    (steps : List (RescanStep ι χ)) (hothers : ∀ f, .other f ∈ steps → ∀ e, (f e).slot = e.slot)
    {p : ι × Nat} (hp : p ∈ w.claims) : p ∈ (w.run calls steps).claims := by
  induction steps generalizing w with
  | nil => exact hp
  | cons s steps ih =>
      refine ih (sound_step hs hleaves fun f hf => hothers f ?_)
        (fun f hf => hothers f (List.mem_cons_of_mem _ hf)) (claims_step hs hleaves s hp)
      rw [hf]
      exact List.mem_cons_self

/-- With and without the steps of futures that are never let in, a run leads to rescans
    that cannot be told apart. -/
theorem like_run (hl : Like view hidden w w') (hs : w.Sound)
    (hleaves : ∀ i, (calls i).LeavesSlot)
    (hcalls : ∀ i, hidden i = false → (calls i).Like view (calls' i))
    (hunseen : ∀ i, hidden i = true → (calls i).Unseen view) (steps : List (RescanStep ι χ))
    (hothers : ∀ f, .other f ∈ steps → (∀ e, (f e).slot = e.slot) ∧
      ∀ e e', Alike view e e' → Alike view (f e) (f e'))
    (hnever : ∀ i, hidden i = true → ∀ id, (i, id) ∉ (w.run calls steps).claims) :
    Like view hidden (w.run calls steps) (w'.run calls' (steps.filter (·.isKept hidden))) := by
  induction steps generalizing w w' with
  | nil => exact hl
  | cons s steps ih =>
      have hothers' : ∀ f, .other f ∈ steps → (∀ e, (f e).slot = e.slot) ∧
          ∀ e e', Alike view e e' → Alike view (f e) (f e') :=
        fun f hf => hothers f (List.mem_cons_of_mem _ hf)
      have hs' : (w.step calls s).Sound := sound_step hs hleaves fun f hf =>
        (hothers f (hf ▸ List.mem_cons_self)).1
      have hbefore : ∀ i, hidden i = true → ∀ id, (i, id) ∉ (w.step calls s).claims :=
        fun i hi id hp => hnever i hi id
          (claims_run hs' hleaves steps (fun f hf => (hothers' f hf).1) hp)
      cases hkept : s.isKept hidden with
      | false =>
          rw [List.filter_cons_of_neg (by simp [hkept])]
          refine ih ?_ hs' hothers' hnever
          -- Only steps of hidden futures are left out.
          cases s with
          | go i =>
              have hi : hidden i = true := by simpa [RescanStep.isKept] using hkept
              exact hl.step_hidden hs hleaves hi (hunseen i hi) (.inl rfl) (hbefore i hi)
          | drop i =>
              have hi : hidden i = true := by simpa [RescanStep.isKept] using hkept
              exact hl.step_hidden hs hleaves hi (hunseen i hi) (.inr rfl) (hbefore i hi)
          | other f => simp [RescanStep.isKept] at hkept
      | true =>
          rw [List.filter_cons_of_pos hkept]
          refine ih ?_ hs' hothers' hnever
          cases s with
          | go i =>
              have hi : hidden i = false := by simpa [RescanStep.isKept] using hkept
              exact hl.go hs hi (hcalls i hi)
          | drop i =>
              have hi : hidden i = false := by simpa [RescanStep.isKept] using hkept
              exact hl.drop hs hi
          | other f =>
              exact ⟨(hothers f List.mem_cons_self).2 _ _ hl.engine, hl.future, hl.claims⟩

/-! ## Turns -/

/-- What a rescan that is turned away comes to; the code is -1. -/
def turnedAway : RescanOutcome := .failed .unexpected "Rescan already in progress"

/-- Where rescans stand that take turns, and what each of them may do next. -/
structure TakeTurns (calls : ι → RescanCall χ) (w : Rescans ι χ) : Prop where
  /-- At most one is past its claim. -/
  single : ∀ i j id id' rest rest', w.future i = .holding id rest →
    w.future j = .holding id' rest' → i = j
  /-- The slot is taken by that one, and by nobody if there is none. -/
  owner : ∀ id, w.engine.slot.owner = some id ↔ ∃ i rest, w.future i = .holding id rest
  /-- It goes on until all its changes have been made, the call that tells its observer
      of the end among them; then it gives the slot back and is over. -/
  goes : ∀ i id rest, w.future i = .holding id rest →
    (∃ rest', (w.go calls i).future i = .holding id rest') ∨
      ∃ x, w.go calls i = w.put i (.ended (some id) x) (w.engine.modifySlot (·.release))
  /-- Or it is dropped where it waits, which gives the slot back too. -/
  dropped : ∀ i id ready timer abandon next,
    w.future i = .holding id (.wait ready timer abandon next) →
    ∃ e, e.slot = w.engine.slot.release ∧ w.drop i = w.put i (.dropped (some id)) e
  /-- The ids are 1, 2, 3, … in the order of the claims. -/
  numbered : w.claims.map (·.2) = List.range' 1 w.claims.length
  /-- They are the ids of the futures that were let in. -/
  known : ∀ i id, (w.future i).id? = some id ↔ (i, id) ∈ w.claims
  /-- A free slot lets in whoever comes first. -/
  letIn : ∀ i, w.future i = .fresh → w.engine.slot.isTaken = false →
    let id := w.claims.length + 1
    (w.go calls i).future i = .holding id (held (calls i) id) ∧
      (w.go calls i).claims = w.claims ++ [(i, id)]
  /-- A slot that is taken does not: all that happens is a line in the journal and one
      call of the observer, and no id is given. -/
  turnsAway : ∀ i, w.future i = .fresh → w.engine.slot.isTaken = true →
    w.go calls i = w.put i (.ended none (.ok turnedAway))
        (turnedAway.tell (calls i).observer (w.engine.note [refusalLine (calls i).target])) ∧
      (w.go calls i).engine.slot = w.engine.slot
  /-- The same happens at the first poll of a rescan that is started in a callback. -/
  turnsAwayNested : ∀ (inner : RescanCall χ) (e : Engine χ), e.slot.isTaken = true →
    inner.routine.poll e = (.done (.ok turnedAway),
      turnedAway.tell inner.observer (e.note [refusalLine inner.target]))

theorem Sound.takeTurns (hs : w.Sound) (hleaves : ∀ i, (calls i).LeavesSlot) :
    w.TakeTurns calls where
  single := hs.single
  owner := hs.owner_iff
  goes i id rest hi := by
    rcases hs.go_cases hleaves i with heq | ⟨hi', _⟩ | ⟨hi', _⟩ |
      ⟨id', rest', hi', ⟨rest'', e, _, _, heq⟩ | ⟨x, heq⟩⟩
    · exact .inl ⟨rest, by rw [heq, hi]⟩
    · exact absurd (hi.symm.trans hi') (by simp)
    · exact absurd (hi.symm.trans hi') (by simp)
    · injection hi.symm.trans hi' with hid _
      exact .inl ⟨rest'', by rw [heq, put_self, hid]⟩
    · injection hi.symm.trans hi' with hid _
      exact .inr ⟨x, hid ▸ heq⟩
  dropped i id ready timer abandon next hi := by
    rcases hs.holder i id _ hi with ⟨howner, hholds⟩
    refine ⟨abandon w.engine, hholds.1 w.engine howner, ?_⟩
    simp only [Rescans.drop, hi]
  numbered := hs.numbered
  known := hs.known
  letIn i hi hfree := by
    have hgo := hs.go_of_free hleaves hi hfree
    simp only [] at hgo
    exact ⟨by rw [hgo]; exact if_pos rfl, by rw [hgo]⟩
  turnsAway i hi ht := by
    have hgo := go_of_taken calls hi ht
    exact ⟨hgo, by rw [hgo]; exact slot_refuse (hleaves i) ht⟩
  turnsAwayNested inner e ht := poll_rescan_of_taken inner ht

/-- Whatever the order of the steps, the rescans take turns. Those that are turned away,
    be they futures of their own or started in callbacks, can be left out: everything
    that is not their own, the slot and all later steps of the others included, is as it
    would have been without them. -/
theorem rescans_take_turns (calls : ι → RescanCall χ) (hcalls : ∀ i, (calls i).LeavesSlot)
    (e : Engine χ) (he : e.slot = {}) (steps : List (RescanStep ι χ))
    (hothers : ∀ f, .other f ∈ steps → ∀ e, (f e).slot = e.slot) :
    let w := (start e).run calls steps
    w.TakeTurns calls ∧
    (∀ {ω : Type} (view : χ → ω) (hidden : ι → Bool) (calls' : ι → RescanCall χ),
      (∀ i, hidden i = true → (calls i).Unseen view ∧ ∀ id, (i, id) ∉ w.claims) →
      (∀ i, hidden i = false → (calls i).Like view (calls' i)) →
      (∀ f, .other f ∈ steps → ∀ e e', Alike view e e' → Alike view (f e) (f e')) →
      Like view hidden w ((start e).run calls' (steps.filter (·.isKept hidden)))) ∧
    ∀ {ω : Type} (view : χ → ω) (call call' inner : RescanCall χ),
      inner.Unseen view → call.Like view call' → (call.nesting inner).Like view call' := by
  intro w
  have hstart : (start e : Rescans ι χ).Sound := sound_start he
  have hs : w.Sound := sound_run hstart hcalls steps hothers
  refine ⟨hs.takeTurns hcalls, fun view hidden calls' hhidden hlike hviewed => ?_,
    fun view call call' inner hinner hcall => RescanCall.like_nesting hinner hcall⟩
  refine like_run ⟨.refl e, fun _ _ => .fresh, rfl⟩ hstart hcalls hlike
    (fun i hi => (hhidden i hi).1) steps ?_ fun i hi => (hhidden i hi).2
  exact fun f hf => ⟨hothers f hf, hviewed f hf⟩

/-- It counts the blocks. -/
def counting : RescanCall (Nat × Nat) where
  scan := fun _ => .done .scanned
  observer :=
    { onScan := fun _ e => (.goOn, { e with own := (e.own.1 + 1, e.own.2) })
      onEnd := fun _ _ e => (none, e)
      onError := fun _ _ e => (none, e) }
  handle := 1
  start := 0
  target := 1

/-- It counts its failures. -/
def intruding : RescanCall (Nat × Nat) where
  scan := fun _ => .done .scanned
  observer :=
    { onScan := fun _ e => (.goOn, e)
      onEnd := fun _ _ e => (none, e)
      onError := fun _ _ e => (none, { e with own := (e.own.1, e.own.2 + 1) }) }
  handle := 1
  start := 0
  target := 1

/-- One that is let in starts others all the time, and one more is started beside it. -/
def crowd : Bool → RescanCall (Nat × Nat)
  | true => counting.nesting intruding
  | false => intruding

/-- The two blocks are counted as if there were nobody else; the four others are not. -/
theorem counting_in_a_crowd :
    let e : Engine (Nat × Nat) :=
      { controller := { network := .testnet, observers := [] }, own := (0, 0) }
    let alone : List (RescanStep Bool (Nat × Nat)) := .go true :: List.replicate 10 (.go true)
    let steps := .go true :: .go false :: List.replicate 10 (.go true)
    let w := (start e).run crowd steps
    (∀ b, (crowd b).LeavesSlot) ∧ w.TakeTurns crowd ∧ w.engine.own = (2, 4) ∧
      Like Prod.fst (!·) w ((start e).run (fun _ => counting) alone) := by
  intro e alone steps w
  have hcounting : counting.LeavesSlot :=
    ⟨fun _ => trivial, fun _ _ _ => rfl, fun _ _ _ _ => rfl, fun _ _ _ _ => rfl⟩
  have hintruding : intruding.LeavesSlot :=
    ⟨fun _ => trivial, fun _ _ _ => rfl, fun _ _ _ _ => rfl, fun _ _ _ _ => rfl⟩
  have hcrowd : ∀ b, (crowd b).LeavesSlot := fun b => by
    cases b with
    | false => exact hintruding
    | true => exact RescanCall.leavesSlot_nesting hcounting hintruding
  have hothers : ∀ f, .other f ∉ steps := fun f => by simp [steps]
  have hclaims : w.claims = [(true, 1)] := by decide +kernel
  have hown : w.engine.own = (2, 4) := by decide +kernel
  have hlike : counting.Like Prod.fst counting := by
    refine ⟨rfl, rfl, rfl, fun _ => .done _, fun _ e e' _ ha => ⟨rfl, ?_⟩, ?_, ?_⟩
    · exact ha.change (fun e => { e with own := (e.own.1 + 1, e.own.2) })
        (fun e => { e with own := e.own + 1 }) fun _ => rfl
    · exact fun _ _ _ _ _ ha => ha
    · exact fun _ _ _ _ _ ha => ha
  rcases rescans_take_turns crowd hcrowd e rfl steps fun f hf => absurd hf (hothers f) with
    ⟨hturns, herase, hnested⟩
  refine ⟨hcrowd, hturns, hown, herase Prod.fst (!·) (fun _ => counting) ?_ ?_ ?_⟩
  · intro b hb
    cases b with
    | true => exact absurd hb (by decide)
    | false => exact ⟨fun _ _ _ _ => rfl, fun id => by rw [hclaims]; simp⟩
  · intro b hb
    cases b with
    | true => exact hnested Prod.fst counting counting intruding (fun _ _ _ _ => rfl) hlike
    | false => exact absurd hb (by decide)
  · exact fun f hf => absurd hf (hothers f)

end Rescans

end ChainSync
