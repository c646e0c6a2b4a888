import ChainSync.Proofs.Rescan.Account

/-!
# Replies to a Rescan

What the observer of a rescan has said to the heights it was told.

`ScanAccount` speaks of rescans that come to an outcome of their own. Here all
runs are looked at, also those that are turned away and those whose scanner
breaks off, and nothing is kept of the calls but the heights and the answers to
them. They are the heights of the scans that have succeeded, from the start on.
An answer that asks to stop is the last one, and a rescan is cancelled by such
an answer only.

## Main definitions

* `ScanCall.scanned?`, `ScanCall.reply?`: What is kept of a call.
* `Replies`: How the replies, the calls and the outcome of a rescan fit together.

## Theorems

* `Scans.replies`, `RescanCalls.replies`: The replies to a loop and to a whole rescan.
* `Engine.writes_rescan`: What a rescan writes is replied to.
-/

namespace ChainSync

/-- The height of a scan that has succeeded. -/
def ScanCall.scanned? : ScanCall → Option Int32
  | .scanned height .scanned => some height
  | _ => none

/-- A height that was reported, with the answer. -/
def ScanCall.reply? : ScanCall → Option (Int32 × ScanAnswer)
  | .onScan height answer => some (height, answer)
  | _ => none

/-- How the replies to the heights of a range, the calls of a rescan and the way it
    ended fit together. -/
structure Replies (count : Nat) (start target : Int32) (calls : List ScanCall)
    (replies : List (Int32 × ScanAnswer)) (x : Except Panic RescanOutcome) : Prop where
  /-- The heights that were reported are those that have been scanned. -/
  scanned : calls.filterMap ScanCall.scanned? = replies.map Prod.fst
  reported : calls.filterMap ScanCall.reply? = replies
  heights : replies.map Prod.fst = (List.range replies.length).map (heightAt start)
  length_le : replies.length ≤ count
  /-- Nothing comes behind an answer that asks to stop. -/
  stopped : ∀ front height back, replies = front ++ (height, .stop) :: back →
    back = [] ∧ x = .ok (.cancelled height)
  cancelled : ∀ height, x = .ok (.cancelled height) → ∃ front, replies = front ++ [(height, .stop)]
  completed : ∀ height, x = .ok (.completed height) →
    height = target ∧ replies.length = count ∧ ∀ reply ∈ replies, reply.2 = .goOn

section

variable {count left : Nat} {start target height : Int32} {calls : List ScanCall}
  {said : List (Int32 × ScanAnswer)} {x : Except Panic RescanOutcome}

/-- A rescan that ends without an answer of its observer. -/
theorem Replies.of_none (hscanned : calls.filterMap ScanCall.scanned? = [])
    (hreported : calls.filterMap ScanCall.reply? = [])
    (hcancelled : ∀ height, x ≠ .ok (.cancelled height))
    (hcompleted : ∀ height, x = .ok (.completed height) → height = target ∧ 0 = count) :
    Replies count start target calls [] x where
  scanned := hscanned
  reported := hreported
  heights := rfl
  length_le := Nat.zero_le count
  stopped _ _ _ h := absurd h (by simp)
  cancelled height h := absurd h (hcancelled height)
  completed height h := by
    rcases hcompleted height h with ⟨htarget, hcount⟩
    exact ⟨htarget, hcount, fun _ hmem => absurd hmem List.not_mem_nil⟩

/-- A rescan that ends with the answer to one height. -/
theorem Replies.of_last {answer : ScanAnswer} (hanswer : answer ≠ .goOn)
    (hx : ∀ height', x = .ok (.cancelled height') ↔ height' = height ∧ answer = .stop)
    (hcompleted : ∀ height, x ≠ .ok (.completed height)) :
    Replies (left + 1) height target (answer.calls height) [(height, answer)] x where
  scanned := rfl
  reported := rfl
  heights := by simp
  length_le := Nat.succ_pos left
  stopped front height' back h := by
    cases front with
    | nil =>
        rw [List.nil_append, List.cons.injEq, Prod.mk.injEq] at h
        exact ⟨h.2.symm, (hx height').mpr ⟨h.1.1.symm, h.1.2⟩⟩
    | cons r front => exact absurd (List.cons.inj h).2 (by simp)
  cancelled height' h := by
    rcases (hx height').mp h with ⟨rfl, rfl⟩
    exact ⟨[], rfl⟩
  completed height' h := absurd h (hcompleted height')

/-- One more height, whose answer asks to go on, in front of all others. -/
theorem Replies.next (h : Replies left (height + 1) target calls said x) :
    Replies (left + 1) height target (ScanAnswer.goOn.calls height ++ calls)
      ((height, .goOn) :: said) x where
  scanned := congrArg (height :: ·) h.scanned
  reported := congrArg ((height, ScanAnswer.goOn) :: ·) h.reported
  heights := by
    rw [List.map_cons, h.heights, List.length_cons, List.range_succ_eq_map, List.map_cons,
      List.map_map, heightAt_zero]
    refine congrArg (height :: ·) (List.map_congr_left fun i _ => ?_)
    exact heightAt_succ height i
  length_le := Nat.succ_le_succ h.length_le
  stopped front height' back heq := by
    cases front with
    | nil => exact absurd (congrArg Prod.snd (List.cons.inj heq).1) (by simp)
    | cons r front => exact h.stopped front height' back (List.cons.inj heq).2
  cancelled height' hx := by
    rcases h.cancelled height' hx with ⟨front, rfl⟩
    exact ⟨(height, .goOn) :: front, rfl⟩
  completed height' hx := by
    rcases h.completed height' hx with ⟨htarget, hlength, hall⟩
    exact ⟨htarget, congrArg (· + 1) hlength, List.forall_mem_cons.mpr ⟨rfl, hall⟩⟩

/-- The replies to a loop over so many heights, by induction on the loop. -/
theorem Scans.replies (h : Scans target left height calls x) :
    ∃ replies, Replies left height target calls replies x := by
  induction h with
  | past => exact ⟨[], .of_none rfl rfl (by simp) (by simp [eq_comm])⟩
  -- A block that was not scanned is not reported.
  | calledOff e => exact ⟨[], .of_none rfl rfl (by simp [RescanOutcome.ofError])
      (by simp [RescanOutcome.ofError])⟩
  | interrupted e => exact ⟨[], .of_none rfl rfl (by simp [RescanOutcome.ofError])
      (by simp [RescanOutcome.ofError])⟩
  | fault e => exact ⟨[], .of_none rfl rfl (by simp [RescanOutcome.ofError])
      (by simp [RescanOutcome.ofError])⟩
  | broken p => exact ⟨[], .of_none rfl rfl (by simp) (by simp)⟩
  | stopped => exact ⟨_, .of_last (by simp) (by simp [eq_comm]) (by simp)⟩
  | deserted p => exact ⟨_, .of_last (by simp) (by simp [RescanOutcome.ofError])
      (by simp [RescanOutcome.ofError])⟩
  | next _ ih =>
      rcases ih with ⟨replies, hreplies⟩
      exact ⟨_, hreplies.next⟩

/-- The call that ends a rescan is no reply to a height. -/
theorem Replies.ending {outcome : RescanOutcome} (panic : Option Panic)
    (h : Replies count start target calls said x) :
    Replies count start target (calls ++ [outcome.ending panic]) said x where
  scanned := by
    rw [List.filterMap_append, h.scanned]
    cases outcome <;> simp [RescanOutcome.ending, ScanCall.scanned?]
  reported := by
    rw [List.filterMap_append, h.reported]
    cases outcome <;> simp [RescanOutcome.ending, ScanCall.reply?]
  heights := h.heights
  length_le := h.length_le
  stopped := h.stopped
  cancelled := h.cancelled
  completed := h.completed

end

/-- The replies to a whole rescan. -/
theorem RescanCalls.replies {start target : Int32} {calls : List ScanCall}
    {x : Except Panic RescanOutcome} (h : RescanCalls start target calls x) :
    ∃ replies, Replies (Engine.blockCount start target) start target calls replies x := by
  cases h with
  | refused panic =>
      have hnone : Replies (Engine.blockCount start target) start target [] []
          (.ok (.ofError .rescanInProgress)) := by
        refine .of_none rfl rfl ?_ ?_
        · simp [RescanOutcome.ofError]
        · simp [RescanOutcome.ofError]
      exact ⟨[], hnone.ending panic⟩
  | ended panic hscans =>
      rcases hscans.replies with ⟨replies, hreplies⟩
      exact ⟨replies, hreplies.ending panic⟩
  | broken hscans => exact hscans.replies

/-- Whether it is let in or turned away, a rescan writes calls that fit together with the
    replies to them and with the way it ends. -/
theorem Engine.writes_rescan {χ : Type} {scan : BlockScanner χ} {observer : ScanObserver χ}
    (handle : Nat) (start target : Int32) :
    (rescan scan.taped observer.taped handle start target).Writes calls
      (fun w x => ∃ replies, Replies (blockCount start target) start target w replies x)
      (fun _ => True) [] :=
  (writes_calls handle start target).mono (fun _ _ h => h.replies) fun _ h => h

end ChainSync
