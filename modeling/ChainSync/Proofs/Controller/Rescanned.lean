import ChainSync.Proofs.Controller.Dropped
import ChainSync.Proofs.Controller.Refusals

/-!
# Rescanned Heights

What a controller makes of a height that has been rescanned.

Rescanning is the last phase a session goes through before its end, so a session
that is under way never refuses such a height for coming too late. It takes
every one of them, and what it does not count it drops. A height counts if it is
not below the one that the session has come to, and no session ever comes to one
below zero.

## Main definitions

* `Controller.due`: What observers are due to be told of a height.

## Theorems

* `Session.take_rescanProgress`: A session that is under way takes every height.
* `Controller.report_due`: What becomes of a report that is taken.
* `Controller.report_refused`: There is no other reason to refuse one.
-/

namespace ChainSync

/-- Rescanning is the last phase that is no end. -/
theorem Phase.rank_le_rescanning {p : Phase} (h : p.isTerminal = false) :
    p.rank ≤ Phase.rescanning.rank := by
  cases p <;> first | decide | exact absurd h (by decide)

namespace Session

variable {s : Session}

/-- A session that is under way takes every height, and drops those that go back. -/
theorem take_rescanProgress (hactive : s.isActive = true) (height : Int32) (now : Nat) :
    ∃ s', s.take now (.rescanProgress height) =
      .ok (if height < s.rescanned then none else some (.rescanProgress height), s') := by
  have hopen : s.phase.isTerminal = false := by simpa [isActive] using hactive
  cases htake : s.take now (.rescanProgress height) with
  | error why =>
      rcases (s.take_refused _ now).refused.mp ⟨why, htake⟩ with hend | ⟨p, hp, hlt⟩
      · exact absurd (hopen.symm.trans hend) Bool.false_ne_true
      · rw [← Option.some.inj hp] at hlt
        exact absurd hlt (Nat.not_lt.mpr (Phase.rank_le_rescanning hopen))
  | ok out =>
      rcases out with ⟨event, s'⟩
      rcases bind_ok htake with ⟨⟨accepted, s₂⟩, hrecord, hevent⟩
      rcases bind_ok hrecord with ⟨s₁, henter, hite⟩
      have hsame : s₁.rescanned = s.rescanned := by
        rcases enter_ok henter with ⟨_, ⟨_, rfl⟩ | ⟨_, rfl⟩⟩ <;> rfl
      rcases Prod.mk.inj (Except.ok.inj hevent) with ⟨rfl, rfl⟩
      refine ⟨s₂, ?_⟩
      rw [hsame] at hite
      by_cases hback : height < s.rescanned
      · rw [if_pos hback] at hite ⊢
        rw [← (Prod.mk.inj (Except.ok.inj hite)).1]
        rfl
      · rw [if_neg hback] at hite ⊢
        rw [← (Prod.mk.inj (Except.ok.inj hite)).1]
        rfl

/-- No session comes to a height below zero. -/
theorem Reachable.zero_le_rescanned (h : s.Reachable) : 0 ≤ s.rescanned := by
  rcases h.tells with ⟨trace, htells⟩
  exact (Climbs.iff.mp htells.rescans).2 0 List.mem_cons_self

end Session

namespace Controller

variable {c : Controller} {height : Int32}

/-- What observers are due to be told of a height: nothing if no session is under way, or if
    the height is below zero or below the one that the session has come to. -/
def due (c : Controller) (height : Int32) : Option Event :=
  match c.session with
  | none => none
  | some s =>
    if s.isActive ∧ 0 ≤ height ∧ s.rescanned ≤ height then some (.rescanProgress height) else none

theorem due_eq_none (h : c.isSyncing = false) (height : Int32) : c.due height = none := by
  unfold due
  cases hs : c.session with
  | none => rfl
  | some s =>
      have hactive : s.isActive = false := by simpa [isSyncing, hs] using h
      simp only [hactive, Bool.false_eq_true, false_and, if_false]

/-- A height that is reported to a session under way is taken, and observers are told what
    they are due to be told. -/
theorem report_due (hc : ∀ s, c.session = some s → s.Reachable) (h : c.isSyncing = true)
    (height : Int32) (now : Nat) : ∃ s', c.report (.rescanProgress height) now =
      .ok (({ c with session := some s' } : Controller).emit? (c.due height)) := by
  cases hs : c.session with
  | none => simp [isSyncing, hs] at h
  | some s =>
      have hactive : s.isActive = true := by simpa [isSyncing, hs] using h
      have hzero := (hc s hs).zero_le_rescanned
      have hdue : c.due height =
          if height < s.rescanned then none else some (.rescanProgress height) := by
        simp only [due, hs, hactive, true_and]
        by_cases hback : height < s.rescanned
        · rw [if_pos hback, if_neg fun h => Int32.not_lt.mpr h.2 hback]
        · have hle := Int32.not_lt.mp hback
          rw [if_neg hback, if_pos ⟨Int32.le_trans hzero hle, hle⟩]
      rcases s.take_rescanProgress hactive height now with ⟨s', htake⟩
      refine ⟨s', ?_⟩
      simp only [report, hs, htake, hdue]

/-- A height is refused exactly if no session is under way. -/
theorem report_refused (h : c.isSyncing = false) (height : Int32) (now : Nat) :
    ∃ e, c.report (.rescanProgress height) now = .error e := by
  refine exists_report_error.mpr ?_
  cases hs : c.session with
  | none => exact .inl rfl
  | some s => exact .inr ⟨s, rfl, .inl (by simpa [isSyncing, hs, Session.isActive] using h)⟩

end Controller

end ChainSync
