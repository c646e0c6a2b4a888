import ChainSync.Proofs.Controller.Isolation
import ChainSync.Proofs.Session.Dropped

/-!
# Dropped Reports of a Controller

Whether a report that is dropped is forgotten.

Whoever makes a report learns nothing of its being dropped: the answer is the
same as that of a report that counts, and no observer hears of it. The report
is forgotten if the controller is the same afterwards. That is so for every
dropped report but one kind: the first of its phase, with a number below zero.
Such a report moves the session into its phase, and from then on reports are
refused that would have been taken without it.

## Theorems

* `Controller.session_reachable`: Calls on a controller lead its sessions where
  calls on a session lead.
* `Controller.dropped_reports_are_forgotten_unless_ahead`: What is left of a
  dropped report.
* `Controller.early_rescan_skips_filters`: A dropped report that is not
  forgotten.
-/

namespace ChainSync

namespace Controller

/-! ## Sessions of a controller -/

theorem report_runs {c c' : Controller} {s : Session} {r : Report} {now : Nat}
    (hs : c.session = some s) (h : c.report r now = .ok c') :
    c'.session = some (s.run [.report r now]) := by
  cases htake : s.take now r with
  | error why => simp [report, hs, htake] at h
  | ok out =>
      simp only [report, hs, htake, Except.ok.injEq] at h
      rw [← h, Session.run_cons, Session.run_nil, Session.call, htake]
      cases out.1 <;> rfl

/-- The end of a drive reports to a session under way, and leaves any other alone. -/
theorem conclude_runs {c : Controller} {s : Session} (error : Option SyncError) (now : Nat)
    (hs : c.session = some s) :
    ∃ calls, (c.conclude error now).2.session = some (s.run calls) := by
  cases hactive : s.isActive with
  | true =>
      rcases Session.take_closing now error hactive with ⟨s', htake, _⟩
      refine ⟨[.report (closing error) now], ?_⟩
      simp only [conclude, hs, hactive, if_true, htake, Session.run_cons, Session.run_nil,
        Session.call]
      rfl
  | false =>
      refine ⟨[], ?_⟩
      simp only [conclude, hs, hactive, Bool.false_eq_true, if_false]
      cases error with
      | none => exact hs
      | some e =>
          simp only []
          split <;> exact hs

/-- A call that begins no session makes calls on the one that is there, if any. -/
theorem after_runs {c : Controller} {call : Call} (hstay : c.begins call = false) :
    ∃ calls, (c.after call).session = c.session.map (·.run calls) := by
  -- Nothing becomes of a session that is left alone.
  have hleft : c.session = c.session.map (·.run []) := Option.map_id'.symm
  cases call with
  | addObserver o => exact ⟨[], hleft⟩
  | begin now =>
      cases hbegin : c.begin now with
      | ok result => simp [begins, hbegin, Except.isOk, Except.toBool] at hstay
      | error e => exact ⟨[], by simpa only [after, hbegin] using hleft⟩
  | start config k parent now =>
      cases hbegin : c.begin now with
      | ok result => simp [begins, hbegin, Except.isOk, Except.toBool] at hstay
      | error e => exact ⟨[], by simpa only [after, start, hbegin] using hleft⟩
  | report r now =>
      cases hs : c.session with
      | none => exact ⟨[], by simp only [after, report, hs, Option.map_none]⟩
      | some s =>
          cases hreport : c.report r now with
          | ok c' => exact ⟨_, by simp only [after, hreport, report_runs hs hreport]; rfl⟩
          | error e => exact ⟨[], by simp only [after, hreport, hs]; rfl⟩
  | conclude error now =>
      cases hs : c.session with
      | none => exact ⟨[], by simp only [after, conclude, hs, Option.map_none]⟩
      | some s => exact conclude_runs error now hs
  | progress now nowUnix =>
      refine ⟨[.progress c.network.label now nowUnix], ?_⟩
      cases hs : c.session <;> simp only [after, progress, hs] <;> rfl

theorem begin_runs {c c' : Controller} {id : UInt64} {now : Nat}
    (h : c.begin now = .ok (id, c')) :
    c'.session = some ((Session.start c.nextId now).run [.begin now]) := by
  unfold begin at h
  split at h
  · exact absurd h (by simp only [reduceCtorEq, not_false_eq_true])
  · cases hbegin : (Session.start c.nextId now).begin now with
    | error why =>
        rw [hbegin] at h
        exact absurd h (by simp only [reduceCtorEq, not_false_eq_true])
    | ok s =>
        rw [hbegin] at h
        rw [← (Prod.mk.inj (Except.ok.inj h)).2, Session.run_cons, Session.run_nil, Session.call,
          hbegin]

/-- A call that begins a session makes calls on a new one. -/
theorem after_opens {c : Controller} {call : Call} (h : c.begins call = true) :
    ∃ t calls, (c.after call).session = some ((Session.start c.nextId t).run calls) := by
  cases call with
  | begin now =>
      cases hbegin : c.begin now with
      | error e => simp [begins, hbegin, Except.isOk, Except.toBool] at h
      | ok begun =>
          simp only [after, hbegin]
          exact ⟨now, _, begin_runs hbegin⟩
  | start config k parent now =>
      cases hbegin : c.begin now with
      | error e => simp [begins, hbegin, Except.isOk, Except.toBool] at h
      | ok begun =>
          have hs := begin_runs hbegin
          cases hpeers : config.normalizedPeers with
          | ok peers =>
              simp only [after, start, hbegin, hpeers]
              exact ⟨now, _, hs⟩
          | error e =>
              -- The failure over an address is a report to the new session.
              cases hreport : begun.2.report (.failed e) now with
              | ok c' =>
                  simp only [after, start, hbegin, hpeers, hreport]
                  refine ⟨now, [.begin now] ++ [.report (.failed e) now], ?_⟩
                  rw [report_runs hs hreport, Session.run_append]
              | error e' =>
                  simp only [after, start, hbegin, hpeers, hreport]
                  exact ⟨now, _, hs⟩
  | _ => simp [begins] at h

/-- Calls on a controller lead its sessions where calls on a session lead. -/
theorem session_reachable {c : Controller} (hc : ∀ s, c.session = some s → s.Reachable)
    (calls : List Call) : ∀ s, (c.run calls).session = some s → s.Reachable := by
  induction calls generalizing c with
  | nil => exact hc
  | cons call calls ih =>
      refine ih fun s' hs' => ?_
      cases hbegins : c.begins call with
      | true =>
          rcases after_opens hbegins with ⟨t, calls, hs⟩
          exact ⟨c.nextId, t, calls, Option.some.inj (hs'.symm.trans hs)⟩
      | false =>
          rcases after_runs hbegins with ⟨more, hmore⟩
          rcases Option.map_eq_some_iff.mp (hmore.symm.trans hs') with ⟨s, hs, rfl⟩
          rcases hc s hs with ⟨id, t, before, rfl⟩
          exact ⟨id, t, before ++ more, (Session.run_append _ _ _).symm⟩

/-! ## Dropped reports -/

/-- A report that is dropped is answered like any other, and no observer hears of
    it. Unless it is of a number below zero in a phase that lies ahead, it leaves
    the session as it was, history and phase included, so that every later call
    is answered, and told, as if the report had never been made. Otherwise it
    moves the session into its phase and changes nothing that is counted, and
    from then on all reports of phases before that one are refused. -/
theorem dropped_reports_are_forgotten_unless_ahead {s s' : Session} {r : Report} {now : Nat}
    (hs : s.Reachable) (h : s.Drops now r s') :
    (∀ c : Controller, c.session = some s → c.report r now = .ok { c with session := some s' }) ∧
    (¬s.DropsAhead r → s' = s ∧ ∀ c : Controller, c.session = some s →
      ∀ calls, c.run (.report r now :: calls) = c.run calls ∧
        c.record (.report r now :: calls) = (.replied (.ok ()), some s) :: c.record calls) ∧
    (s.DropsAhead r → ∃ p reason, r.phase? = some p ∧ s.phase.rank < p.rank ∧
      s' = s.moved p reason now ∧ s'.tally = s.tally ∧
      ∀ later time, (∃ why, s'.take time later = .error why) ↔
        ∃ q, later.phase? = some q ∧ q.rank < p.rank) := by
  rcases hs.tells with ⟨trace, htells⟩
  have hreport : ∀ c : Controller, c.session = some s →
      c.report r now = .ok { c with session := some s' } := by
    intro c hc
    simp only [report, hc, h.take, emit?]
  refine ⟨hreport, fun hr => ?_, fun hr => ?_⟩
  · have heq := h.eq_of_not_ahead htells hr
    refine ⟨heq, fun c hc calls => ?_⟩
    -- Not even the controller has changed, so nothing that follows can differ.
    have hafter : c.after (.report r now) = c := by
      simp only [after, hreport c hc, heq, ← hc]
    refine ⟨by rw [run_cons, hafter], ?_⟩
    simp only [record, entry, hafter, answer, hreport c hc, hc]
    rfl
  · rcases h.moved_of_ahead htells hr with ⟨p, reason, hp, hahead, hopen, rfl⟩
    -- The session is in a phase on the way, so it refuses what lies behind and no more.
    refine ⟨p, reason, hp, hahead, rfl, rfl, fun later time => ?_⟩
    rw [(Session.take_refused _ later time).refused]
    exact or_iff_right (by rw [show (s.moved p reason now).phase = p from rfl, hopen]; decide)

/-- A session that has only been begun. -/
def connecting : Session := (Session.start 1 1).run [.begin 1]

/-- The session after a report that the rescan has come to a height below zero. -/
def skipped : Session := connecting.moved .rescanning "rescanning" 2

theorem early_rescan_skips_filters :
    (connecting.Reachable ∧ connecting.Drops 2 (.rescanProgress (-1)) skipped) ∧
      connecting.DropsAhead (.rescanProgress (-1)) ∧
      (∃ s, connecting.take 3 (.fetchMissingFilters 3) =
        .ok (some (.fetchMissingFilters 3), s)) ∧
      ∃ why, skipped.take 3 (.fetchMissingFilters 3) = .error why := by
  have hs : connecting.Reachable :=
    session_reachable (c := { network := .testnet }) (fun _ h => nomatch h) [.begin 1] _ rfl
  have h : connecting.Drops 2 (.rescanProgress (-1)) skipped := .rescan rfl
  have hr : connecting.DropsAhead (.rescanProgress (-1)) :=
    ⟨show (-1 : Int32) < 0 by decide, .rescanning, rfl, by decide⟩
  rcases (dropped_reports_are_forgotten_unless_ahead hs h).2.2 hr with
    ⟨p, _, hp, _, _, _, hrefused⟩
  refine ⟨⟨hs, h⟩, hr, ⟨_, rfl⟩, (hrefused (.fetchMissingFilters 3) 3).mpr ⟨_, rfl, ?_⟩⟩
  rw [← Option.some.inj hp]
  decide

end Controller

end ChainSync
