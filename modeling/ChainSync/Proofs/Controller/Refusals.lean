import ChainSync.Controller.Basic
import ChainSync.Proofs.Session.InPlace
import ChainSync.Proofs.Session.Refusals

/-!
# Refused Reports of a Controller

A report that is refused leaves no trace.

`Controller.report` hands out a new controller or an error. A controller that
lets a session be changed in place has neither: it looks at the answer only
after the session has been written to, and keeps the session whatever the
answer is. `reportInPlace` is that controller. It tells observers of an event
only when the session has answered with one, and it leaves everything alone
when the session has refused, because the session has left itself alone.

When that happens does not depend on what is reported beyond the phase that the
report belongs to.

## Main definitions

* `Controller.reportInPlace`: A report to a session that is changed in place.

## Theorems

* `Controller.report_error_iff`: The errors of a report.
* `Controller.reportInPlace_of_error`, `Controller.reportInPlace_of_ok`: What a
  report leaves behind.
* `Controller.refused_reports_leave_no_trace`: All of it.
-/

namespace ChainSync

namespace Controller

/-- A report to a session that is changed in place. What the session has
    become stays, also when it has refused the report. -/
def reportInPlace (c : Controller) (r : Report) (now : Nat) :
    Except SyncError Unit × Controller :=
  match c.session with
  | none => (.error noSession, c)
  | some s => match (Session.InPlace.take now r).on s with
    | (.ok event, s) => (.ok (), ({ c with session := some s } : Controller).emit? event)
    | (.error rejection, s) => (.error rejection.toError, { c with session := some s })

variable {c c' : Controller} {r : Report} {now : Nat} {e : SyncError}

theorem report_error_iff : c.report r now = .error e ↔
    c.session = none ∧ noSession = e ∨
      ∃ s, c.session = some s ∧ ∃ why, s.take now r = .error why ∧ why.toError = e := by
  unfold report
  cases hs : c.session with
  | none =>
      simp only [Except.error.injEq, true_and, reduceCtorEq, false_and, exists_false, or_false]
  | some s => cases htake : s.take now r <;> simp [htake]

/-- A report is refused by a controller that has no session, and otherwise by
    the session. -/
theorem exists_report_error : (∃ e, c.report r now = .error e) ↔
    c.session = none ∨ ∃ s, c.session = some s ∧ (s.phase.isTerminal = true ∨
      ∃ p, r.phase? = some p ∧ p.rank < s.phase.rank) := by
  constructor
  · rintro ⟨e, he⟩
    rcases report_error_iff.mp he with ⟨hs, _⟩ | ⟨s, hs, why, hwhy, _⟩
    · exact .inl hs
    · exact .inr ⟨s, hs, (s.take_refused r now).refused.mp ⟨why, hwhy⟩⟩
  · rintro (hs | ⟨s, hs, hrefused⟩)
    · exact ⟨_, report_error_iff.mpr (.inl ⟨hs, rfl⟩)⟩
    · rcases (s.take_refused r now).refused.mpr hrefused with ⟨why, hwhy⟩
      exact ⟨_, report_error_iff.mpr (.inr ⟨s, hs, why, hwhy, rfl⟩)⟩

theorem reportInPlace_of_error (h : c.report r now = .error e) :
    c.reportInPlace r now = (.error e, c) := by
  unfold reportInPlace
  rcases report_error_iff.mp h with ⟨hs, rfl⟩ | ⟨s, hs, why, htake, rfl⟩
  · rw [hs]
  · -- The session has left itself alone, so putting it back changes nothing.
    have hback : ({ c with session := some s } : Controller) = c := by rw [← hs]
    simp only [hs, Session.InPlace.on_take, htake, Session.landing, hback]

theorem reportInPlace_of_ok (h : c.report r now = .ok c') :
    c.reportInPlace r now = (.ok (), c') := by
  unfold report at h
  unfold reportInPlace
  cases hs : c.session with
  | none => simp [hs] at h
  | some s =>
      cases htake : s.take now r with
      | error why => simp [hs, htake] at h
      | ok out =>
          simp only [hs, htake, Except.ok.injEq] at h
          simp only [Session.InPlace.on_take, htake, Session.landing, h]

/-- A worker's report is refused exactly if there is no session, or the session
    is over, or the report belongs to a phase that lies behind. It leaves no
    trace then: a session that is written to while the report is looked at is as
    it was, and so is every observer. The operations of the session are refused
    in the same way, none of them for a move that the phases forbid, and each of
    them finishes its checks before it writes. -/
theorem refused_reports_leave_no_trace (c : Controller) (r : Report) (now : Nat) :
    ((∃ e, c.report r now = .error e) ↔
      c.session = none ∨ ∃ s, c.session = some s ∧ (s.phase.isTerminal = true ∨
        ∃ p, r.phase? = some p ∧ p.rank < s.phase.rank)) ∧
    (∀ e, c.report r now = .error e → c.reportInPlace r now = (.error e, c)) ∧
    (∀ c', c.report r now = .ok c' → c.reportInPlace r now = (.ok (), c')) ∧
    ∀ s : Session, s.RefusesExactly ∧ Session.InPlace.Faithful s ∧
      ∀ source target, s.take now r ≠ .error (.cannotMove source target) :=
  ⟨exists_report_error, fun _ => reportInPlace_of_error, fun _ => reportInPlace_of_ok,
    fun s => ⟨s.refusesExactly, Session.InPlace.faithful s, (s.take_refused r now).allowed⟩⟩

end Controller

end ChainSync
