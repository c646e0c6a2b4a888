import ChainSync.Proofs.Controller.Drive
import ChainSync.Proofs.Rescan.Account
import ChainSync.Proofs.Routine.Heeding

/-!
# Rescans That Are Called Off

What a rescan does once its handle is cancelled.

The loop looks at its handle in two places: before it begins with a height, and when
a wait of the scanner is over. So there are two kinds of moments at which it makes a
difference that the handle is cancelled. At one the loop has just come to a height
(`ComesTo`), at the other it waits. From both on a rescan does nothing more than to
tell its observer why it has failed. Between them the scanner and the observer are at
work without a break, and the loop cannot know any better until they are done.

The loop comes to its first height when it has got the slot, and to another one when
its observer wants to go on. That answer is on the tape, so it is the entry behind
which the loop has to look again. Only behind the last height there is nothing to look
for. The handle may be cancelled by anybody, the scanner and the observer among them.

## Main definitions

* `RescanCall.ComesTo`: The heights a rescan comes to.
* `rescanLookout`: Where a rescan looks for a reason to stop.
* `Engine.CalledOff`: What is left of a rescan then.

## Theorems

* `Engine.looks_scanFrom`, `Engine.mindful_scanFrom`: The loop.
* `Engine.mindful_routine`, `Engine.looks_of_comesTo`: A whole rescan.
* `Engine.called_off_rescan_only_tells_why`: What it does once it is called off.
-/

namespace ChainSync

open Engine

variable {χ : Type}

namespace RescanCall

/-- A call whose scanner and observer are written down. -/
def taped (call : RescanCall χ) : RescanCall (Taped χ) :=
  { call with scan := call.scan.taped, observer := call.observer.taped }

/-- A rescan comes to a height. That is its start, or the height behind one that its
    observer has answered with the wish to go on. -/
inductive ComesTo (call : RescanCall χ) (others : Engine (Taped χ) → Engine (Taped χ) → Prop)
    (e₀ : Engine (Taped χ)) :
    Int32 → Routine (Engine (Taped χ)) (Except Panic RescanOutcome) → Engine (Taped χ) → Prop where
  | first {e : Engine (Taped χ)}
    (h : call.taped.routine.Comes now others e₀ call.taped.routine e)
    (hfree : e.slot.isTaken = false) :
    ComesTo call others e₀ call.start (call.taped.routine.advance e).1
      (call.taped.routine.advance e).2
  | next {height : Int32} {r : Routine (Engine (Taped χ)) (Except Panic RescanOutcome)}
    {e : Engine (Taped χ)} (h : call.taped.routine.Comes now others e₀ r e)
    (hanswer : (r.advance e).2.calls = e.calls ++ [.onScan height .goOn])
    (hlt : height < call.target) :
    ComesTo call others e₀ (height + 1) (r.advance e).1 (r.advance e).2
  | others {height : Int32} {r : Routine (Engine (Taped χ)) (Except Panic RescanOutcome)}
    {e e' : Engine (Taped χ)} (h : ComesTo call others e₀ height r e) (ho : others e e') :
    ComesTo call others e₀ height r e'

end RescanCall

/-- Where a rescan looks for a reason to stop. A height that is not the last one has
    another one behind it. -/
def rescanLookout (handle : Nat) (target : Int32) :
    Lookout (Engine (Taped χ)) ScanCall SyncError where
  now := now
  tape := calls
  stop := stopReason handle
  marks call := ∃ height, call = .onScan height .goOn ∧ height < target

namespace Engine

open Routine

/-- What is left of a rescan that has been called off for a reason: it tells why, in
    one call, and fails with it. -/
def CalledOff (e : SyncError)
    (r : Routine (Engine (Taped χ)) (Except Panic RescanOutcome)) : Prop :=
  r.Writes calls
    (fun w x => (∃ panic, w = [.onError e.code e.message panic]) ∧ x = .ok (.ofError e))
    (fun _ => False) []

section

variable {e : SyncError} {r : Routine (Engine (Taped χ)) (Except Panic RescanOutcome)}

theorem CalledOff.within {span : Span} (h : CalledOff e r) : CalledOff e (within span r) :=
  writes_within h

theorem CalledOff.release (h : CalledOff e r) :
    CalledOff e (r.ensuring (modifySlot (·.release))) := h.ensuring (calls_modifySlot · _)

end

variable {handle : Nat} {target : Int32} {scan : BlockScanner χ} {observer : ScanObserver χ}

/-! ## The loop -/

/-- A scanner does not answer in the place of the observer. -/
theorem plain_scan (height : Int32) : (scan.taped height).Plain (rescanLookout handle target) := by
  have hjot (call : ScanCall) (hcall : ∀ height, call ≠ .onScan height .goOn) :
      (Routine.update (jot call)).Plain (rescanLookout (χ := χ) handle target) := by
    refine ⟨fun e marked hmark htape => ?_, fun _ => trivial⟩
    rcases hmark with ⟨height, rfl, _⟩
    exact hcall height (List.singleton_inj.mp (List.append_cancel_left htape))
  refine (hjot (.scanBlock height) fun _ => by simp).bind fun _ => ?_
  refine Plain.bind (plain_lift calls_retaped _) fun result => ?_
  exact (hjot (.scanned height result) fun _ => by simp).bind fun _ => trivial

/-- Looking at the state marks nothing. -/
theorem mindful_ask {α β : Type} {Q : SyncError → Routine (Engine (Taped χ)) β → Prop}
    (f : Engine (Taped χ) → α) {next : α → Routine (Engine (Taped χ)) β}
    (h : ∀ a, (next a).Mindful (rescanLookout handle target) Q) :
    ((Routine.ask f).bind next).Mindful (rescanLookout handle target) Q :=
  ⟨fun _ call _ htape => absurd htape (append_singleton_ne rfl call), h⟩

theorem looks_untilStopped {α : Type} (work : Routine (Engine (Taped χ)) α) :
    (untilStopped handle work).Looks (rescanLookout handle target) fun e r =>
      r = .done (.error e) := by
  intro e reason hreason
  have hstop : stopReason handle e = some reason := hreason
  refine ⟨rfl, ?_⟩
  simp only [hstop]
  rfl

theorem mindful_untilStopped {α : Type} {work : Routine (Engine (Taped χ)) α}
    (hwork : work.Plain (rescanLookout handle target)) :
    (untilStopped handle work).Mindful (rescanLookout handle target) fun e r =>
      r = .done (.error e) := by
  refine mindful_ask _ fun reason => ?_
  cases reason with
  | some reason => trivial
  | none =>
      refine mindful_ask _ fun allowance => ?_
      change ((if allowance = 0 then giveWay else .done ()).bind fun _ => _).Mindful _ _
      split
      · -- The turn is over at once if it has to be, and the scanner is not begun
        -- without another look.
        refine ⟨⟨fun e _ => ?_, looks_unlessStopped work⟩, hwork.unlessStopped⟩
        simp [canGoOn, isDue]
      · exact hwork.unlessStopped

/-- With a height left, the loop looks for a reason before it does anything else. -/
theorem looks_scanFrom (left : Nat) (height : Int32) :
    (scanFrom scan.taped observer.taped handle target (left + 1) height).Looks
      (rescanLookout handle target) fun e r => r = .done (.ok (.ofError e)) := by
  refine (looks_untilStopped _).bind ?_
  rintro e r rfl
  rfl

/-- The loop looks again behind every height that is not the last one, by induction on
    the heights that are left. -/
theorem mindful_scanFrom (left : Nat) (height : Int32)
    (hleft : left = 0 ∨ left = blockCount height target) :
    (scanFrom scan.taped observer.taped handle target left height).Mindful
      (rescanLookout handle target) fun e r => r = .done (.ok (.ofError e)) := by
  induction left generalizing height with
  | zero => trivial
  | succ left ih =>
      rcases blockCount_succ (hleft.resolve_left (Nat.succ_ne_zero left)) with ⟨hmore, hrest⟩
      refine (mindful_untilStopped (plain_scan height)).bind ?_ fun x => ?_
      · rintro e r rfl
        rfl
      · cases x with
        | error reason => trivial
        | ok result =>
            cases result with
            | failed error => trivial
            | panicked p => trivial
            | scanned =>
                refine ⟨fun e call hmark htape => ?_, fun outcome => ?_⟩
                · -- The marked entry is the report of this height.
                  rcases calls_reportScan observer height e with ⟨answer, hcalls, hx⟩
                  rcases hmark with ⟨reported, rfl, hlt⟩
                  have heq := List.append_cancel_left (hcalls.symm.trans htape)
                  rcases ScanCall.onScan.inj (List.singleton_inj.mp heq) with ⟨rfl, rfl⟩
                  rcases Nat.exists_eq_succ_of_ne_zero (hmore hlt) with ⟨left, rfl⟩
                  rw [hx]
                  exact looks_scanFrom left (height + 1)
                · cases outcome with
                  | some outcome => trivial
                  | none => exact ih (height + 1) hrest

/-- A range that does not start past its target begins with a look. -/
theorem looks_scanRange {start : Int32} (hrange : start ≤ target) :
    (scanRange scan.taped observer.taped handle start target).Looks
      (rescanLookout handle target) fun e r => r = .done (.ok (.ofError e)) := by
  have hle := Int32.le_iff_toInt_le.mp hrange
  have hcount : blockCount start target = (target.toInt - start.toInt).toNat + 1 := by
    rw [blockCount]
    omega
  have hnot : ¬ target < start := by
    rw [Int32.lt_iff_toInt_lt]
    omega
  rw [scanRange, if_neg hnot, hcount]
  exact looks_scanFrom _ start

theorem mindful_scanRange (start : Int32) :
    (scanRange scan.taped observer.taped handle start target).Mindful
      (rescanLookout handle target) fun e r => r = .done (.ok (.ofError e)) := by
  unfold scanRange
  split
  · exact ⟨fun _ call _ htape => absurd htape (append_singleton_ne rfl call),
      fun _ => mindful_scanFrom _ start (.inr rfl)⟩
  · exact mindful_scanFrom _ start (.inr rfl)

/-! ## A whole rescan -/

/-- A loop that was called off is followed by one call and the end. -/
theorem calledOff_tell (observer : ScanObserver χ) (e : SyncError) :
    CalledOff e (do
      .update fun s => (RescanOutcome.ofError e).tell observer.taped
        (s.note [(RescanOutcome.ofError e).line])
      return .ok (.ofError e)) := by
  intro s
  rcases calls_tell observer (.ofError e) (s.note [(RescanOutcome.ofError e).line]) with
    ⟨panic, htold⟩
  exact ⟨_, htold, ⟨panic, rfl⟩, rfl⟩

/-- To tell the end marks nothing, since the end is no answer. -/
theorem mindful_tell {f : Engine (Taped χ) → Engine (Taped χ)} (outcome : RescanOutcome)
    (hf : ∀ e, (f e).calls = e.calls) {x : Except Panic RescanOutcome} :
    (do
      .update fun e => outcome.tell observer.taped (f e)
      return x : Routine (Engine (Taped χ)) (Except Panic RescanOutcome)).Mindful
      (rescanLookout handle target) CalledOff := by
  refine ⟨fun e marked hmark htape => ?_, fun _ => trivial⟩
  rcases hmark with ⟨height, rfl, _⟩
  rcases calls_tell observer outcome (f e) with ⟨panic, htold⟩
  rw [hf] at htold
  have heq := List.singleton_inj.mp (List.append_cancel_left (htold.symm.trans htape))
  cases outcome <;> cases heq

variable {call : RescanCall χ}

/-- What a rescan does around its loop, it also does around one that was called off. -/
theorem looks_held (hrange : call.start ≤ call.target) (id : Nat) :
    (held call.taped id).Looks (rescanLookout call.handle call.target) CalledOff := by
  refine Looks.ensuring (Q := CalledOff) (Looks.around ?_ ?_ (Looks.bind (looks_scanRange hrange) ?_)
    fun _ _ => CalledOff.within) fun _ _ => CalledOff.release
  · exact fun _ => ⟨rfl, rfl⟩
  · exact fun _ => rfl
  · rintro e r rfl
    exact calledOff_tell call.observer e

theorem mindful_held (call : RescanCall χ) (id : Nat) :
    (held call.taped id).Mindful (rescanLookout call.handle call.target) CalledOff := by
  refine Mindful.ensuring (Q := CalledOff) (calls_modifySlot · _) (Mindful.around ?_ ?_
    (Mindful.bind (mindful_scanRange call.start) ?_ fun x => ?_)
    fun _ _ => CalledOff.within) fun _ _ => CalledOff.release
  · exact fun _ => ⟨rfl, rfl⟩
  · exact fun _ => rfl
  · rintro e r rfl
    exact calledOff_tell call.observer e
  · cases x with
    | error p => trivial
    | ok outcome => exact mindful_tell (f := (·.note [outcome.line])) outcome fun _ => rfl

/-- A claim leaves alone what does not belong to the engine. -/
theorem own_claim {χ : Type} (start target : Int32) (e : Engine χ) :
    (e.claim start target).2.own = e.own := by
  cases h : e.slot.isTaken with
  | true => rw [claim_of_taken h]; rfl
  | false => exact (claim_of_free h start target).2.2

theorem mindful_routine (call : RescanCall χ) :
    call.taped.routine.Mindful (rescanLookout call.handle call.target) CalledOff := by
  rw [RescanCall.routine, rescan_eq]
  refine ⟨fun e marked _ htape => absurd htape (append_singleton_ne ?_ marked), fun slot => ?_⟩
  · exact congrArg Taped.calls (own_claim call.start call.target e)
  · cases slot with
    | none => exact mindful_tell _ fun _ => rfl
    | some id => exact mindful_held call id

/-- At a height it has come to, a rescan looks for a reason. -/
theorem looks_of_comesTo (hrange : call.start ≤ call.target)
    {others : Engine (Taped χ) → Engine (Taped χ) → Prop} {e₀ e : Engine (Taped χ)} {height : Int32}
    {r : Routine (Engine (Taped χ)) (Except Panic RescanOutcome)}
    (h : call.ComesTo others e₀ height r e) :
    r.Looks (rescanLookout call.handle call.target) CalledOff := by
  induction h with
  | @first e _ hfree =>
      have hid := (claim_of_free hfree call.taped.start call.taped.target).1
      rw [RescanCall.routine, rescan_eq]
      simp only [Routine.advance, hid]
      exact looks_held hrange _
  | @next height r e hc hanswer hlt =>
      have hmindful := Comes.mindful (v := rescanLookout call.handle call.target) hc
        (mindful_routine call)
      cases r with
      | done x => exact absurd hanswer (append_singleton_ne rfl _)
      | act run next => exact hmindful.1 e _ ⟨height, rfl, hlt⟩ hanswer
      | wait ready timer abandon next => exact absurd hanswer (append_singleton_ne rfl _)
  | others _ _ ih => exact ih

/-- A handle that is cancelled is a reason to stop. -/
theorem isSome_stopReason (handle : Nat) (e : Engine χ) :
    (stopReason handle e).isSome = e.coordinator.isCancelled handle := by
  cases h : e.coordinator.isCancelled handle with
  | true => rw [stopReason_eq h]; rfl
  | false => simp [stopReason, Coordinator.cancellation, h]

/-- The error of an operation that was called off, by the reason of its handle. A handle
    may also have none. -/
def errorOf (reason : Option CancelReason) : SyncError :=
  (reason.map CancelReason.toError).getD (.cancelled "operation cancelled")

/-- A rescan whose handle is cancelled when it comes to a height, or while it waits, only
    tells its observer why it fails, in one call. Others may do in the meantime what they
    like, and a scan that is ready makes no difference. It does not have to wait for its
    end, and it is over with its next turn. The error is the one of the reason that the
    handle has when the rescan looks for it, which is the reason it had before, if it
    had one. Its code is 2 for an operation that has run out of time, and 1 otherwise. -/
theorem called_off_rescan_only_tells_why (call : RescanCall χ) (hrange : call.start ≤ call.target)
    (others : Engine (Taped χ) → Engine (Taped χ) → Prop)
    (hothers : ∀ e e', others e e' →
      e.coordinator.Grows e'.coordinator ∧ e'.calls = e.calls)
    {e₀ e : Engine (Taped χ)} {r : Routine (Engine (Taped χ)) (Except Panic RescanOutcome)}
    (hat : (∃ height, call.ComesTo others e₀ height r e) ∨
      call.taped.routine.Comes now others e₀ r e ∧ r.isWaiting = true)
    (hcancelled : e.coordinator.isCancelled call.handle = true)
    {r' : Routine (Engine (Taped χ)) (Except Panic RescanOutcome)} {e' : Engine (Taped χ)}
    (hafter : r.Comes now others e r' e') :
    (r'.isWaiting = true → r'.canGoOn e'.now e' = true) ∧
    ∃ look m reason panic last, r.Comes now others e look m ∧
      e.coordinator.Grows m.coordinator ∧ m.coordinator.isCancelled call.handle = true ∧
      m.coordinator.reason? call.handle = reason ∧
      (e.coordinator.reason? call.handle ≠ none →
        e.coordinator.reason? call.handle = reason) ∧
      (errorOf reason).code.value = (if reason = some .deadlineExceeded then 2 else 1) ∧
      (e'.calls = e.calls ∨
        e'.calls = e.calls ++ [.onError (errorOf reason).code (errorOf reason).message panic]) ∧
      r'.resume e' = (.done (.ok (.ofError (errorOf reason))), last) ∧
      last.calls =
        e.calls ++ [.onError (errorOf reason).code (errorOf reason).message panic] := by
  have hheeds : r.Heeds (rescanLookout call.handle call.target) CalledOff := by
    rcases hat with ⟨height, hcomes⟩ | ⟨hcomes, hwaits⟩
    · exact (looks_of_comesTo hrange hcomes).heeds
    · exact (Comes.mindful (v := rescanLookout call.handle call.target) hcomes
        (mindful_routine call)).heeds hwaits
  have hstop {e e' : Engine (Taped χ)} (h : e.coordinator.Grows e'.coordinator)
      (he : (stopReason call.handle e).isSome = true) :
      (stopReason call.handle e').isSome = true := by
    rw [isSome_stopReason] at he ⊢
    exact h.isCancelled he
  rcases hheeds.ends hothers (fun e => .refl e.coordinator) (fun h h' => h.trans h') hstop
      ((isSome_stopReason _ _).trans hcancelled) hafter with
    ⟨hgo, look, m, error, entries, rest, x, last, hlook, hgrows, herror, hentries, hresume, hlast,
      ⟨panic, hw⟩, rfl⟩
  have hm := hgrows.isCancelled hcancelled
  obtain rfl := Option.some.inj (herror.symm.trans (stopReason_eq hm))
  refine ⟨hgo, look, m, _, panic, last, hlook, hgrows, hm, rfl, fun hne => ?_, code_of_reason _, ?_,
    hresume, ?_⟩
  · rcases Option.ne_none_iff_exists'.mp hne with ⟨reason, hreason⟩
    exact hreason.trans (hgrows.reason? hreason).symm
  · -- What has been written so far is nothing or all of it.
    rcases List.append_eq_singleton_iff.mp hw with ⟨rfl, _⟩ | ⟨rfl, _⟩
    · exact .inl (hentries.trans (List.append_nil _))
    · exact .inr hentries
  · exact hlast.trans (congrArg (e.calls ++ ·) hw)

/-- An engine with a handle that has ten milliseconds. -/
def timed : Engine (Taped Unit) :=
  { fresh with coordinator := ({} : Coordinator).run [.makeToken none, .derive 0 (some 10)] }

/-- A rescan of three heights whose scanner lets everybody else go first. -/
def politeRescan : RescanCall Unit :=
  ⟨fun _ => do .giveWay; return .scanned, faintObserver, 1, 5, 7⟩

/-- The engine when the time is up, while the first height is scanned. -/
def timedOut : Engine (Taped Unit) :=
  let e := (politeRescan.taped.routine.poll timed).2
  { e with coordinator := e.coordinator.run [.turn 1, .moveTo 10, .turn 1] }

theorem timed_out_rescan_only_tells_why :
    let others (e e' : Engine (Taped Unit)) : Prop :=
      ∃ ops, e' = { e with coordinator := e.coordinator.run ops }
    let rest := (politeRescan.taped.routine.poll timed).1
    politeRescan.start ≤ politeRescan.target ∧
    (∀ e e', others e e' → e.coordinator.Grows e'.coordinator ∧ e'.calls = e.calls) ∧
    politeRescan.taped.routine.Comes now others timed rest timedOut ∧ rest.isWaiting = true ∧
    timedOut.coordinator.isCancelled 1 = true ∧
    ∃ panic last,
      rest.resume timedOut =
        (.done (.ok (.ofError (errorOf (some .deadlineExceeded)))), last) ∧
      last.calls = [.scanBlock 5, .onError (errorOf (some .deadlineExceeded)).code
        (errorOf (some .deadlineExceeded)).message panic] := by
  intro others rest
  have hrange : politeRescan.start ≤ politeRescan.target := by decide
  have hothers (e e' : Engine (Taped Unit)) (h : others e e') :
      e.coordinator.Grows e'.coordinator ∧ e'.calls = e.calls := by
    rcases h with ⟨ops, rfl⟩
    exact ⟨e.coordinator.grows_run ops, rfl⟩
  have hcomes : politeRescan.taped.routine.Comes now others timed rest timedOut :=
    (Comes.refl.poll).others ⟨[.turn 1, .moveTo 10, .turn 1], rfl⟩
  have hwaits : rest.isWaiting = true := rfl
  have hcancelled : timedOut.coordinator.isCancelled 1 = true := by decide
  rcases called_off_rescan_only_tells_why politeRescan hrange others hothers
      (.inr ⟨hcomes, hwaits⟩) hcancelled .refl with
    ⟨_, look, m, reason, panic, last, _, _, _, _, hkeep, _, _, hresume, hlast⟩
  have hreason : some CancelReason.deadlineExceeded = reason := hkeep (by decide)
  rw [← hreason] at hresume hlast
  exact ⟨hrange, hothers, hcomes, hwaits, hcancelled, panic, last, hresume, hlast⟩

end Engine

end ChainSync
