import ChainSync.Proofs.Session.Refusals
import ChainSync.Proofs.Session.Tally

/-!
# Dropped Reports

What is left of a report that a session takes without counting it.

A report of filters, of discovery or of the rescan enters its phase before its
number is compared with the one that is kept. A report that is then dropped has
no effect exactly if the phase had been entered before. If it had not, nothing
has been told of the phase, so the number that is kept is still zero and
discovery is not over (`Tells.untold`). So a first report is only dropped for a
number below zero. Such a report is not forgotten: it has moved the session on,
and reports of the phases that it has left out are refused from then on.

## Main definitions

* `Report.BelowZero`: A report of a number below zero.
* `Session.Reachable`: A session that calls have led to.
* `Session.Drops`: A report is taken without being counted.
* `Session.DropsAhead`: A report that is dropped and moves the session on.

## Theorems

* `Session.Reachable.tells`: A session that calls have led to has told of itself.
* `Session.Tells.untold`: Nothing is told of a phase that lies ahead.
* `Session.Drops.cases`: A dropped report has no effect or moves the session on.
* `Session.Drops.eq_of_not_ahead`, `Session.Drops.moved_of_ahead`: Which of the two.
-/

namespace ChainSync

/-- A report of a number below zero. -/
def Report.BelowZero : Report → Prop
  | .fetchMissingFilters count => count < 0
  | .rescanProgress through => through < 0
  | _ => False

namespace Session

/-- A session that calls have led to. -/
def Reachable (s : Session) : Prop := ∃ id t calls, s = (start id t).run calls

/-- A report is taken without being counted. -/
inductive Drops (s : Session) (now : Nat) : Report → Session → Prop
  | filters {count : Int32} {s' : Session} (h : s.recordFilters count now = .ok (false, s')) :
      s.Drops now (.fetchMissingFilters count) s'
  | discovery {finished : Bool} {s' : Session}
      (h : s.recordDiscovery finished now = .ok (false, s')) :
      s.Drops now (.discoveredAddresses finished) s'
  | rescan {through : Int32} {s' : Session} (h : s.recordRescan through now = .ok (false, s')) :
      s.Drops now (.rescanProgress through) s'

/-- A report of a number below zero in a phase that lies ahead. -/
def DropsAhead (s : Session) (r : Report) : Prop :=
  r.BelowZero ∧ ∃ p, r.phase? = some p ∧ s.phase.rank < p.rank

variable {s s' : Session} {trace : List Event} {r : Report} {now : Nat}

/-- Whatever a session is asked to do, it stays in step with what it tells. -/
theorem Tells.call (h : s.Tells trace) (c : Call) : ∃ more, (s.call c).2.Tells (trace ++ more) := by
  cases c with
  | begin now =>
      simp only [Session.call]
      cases hbegin : s.begin now with
      | ok s' => exact ⟨_, h.advance (advances_of_begin hbegin)⟩
      | error why => exact ⟨[], by simpa using h⟩
  | report r now =>
      simp only [Session.call]
      cases htake : s.take now r with
      | ok out => exact ⟨_, h.advance (advances_of_take htake)⟩
      | error why => exact ⟨[], by simpa using h⟩
  | progress label now nowUnix =>
      exact ⟨_, h.advance (Advances.quiet rfl rfl rfl rfl)⟩

theorem Tells.run (h : s.Tells trace) (calls : List Call) :
    ∃ more, (s.run calls).Tells (trace ++ more) := by
  induction calls generalizing s trace with
  | nil => exact ⟨[], by simpa using h⟩
  | cons c calls ih =>
      rcases h.call c with ⟨first, hfirst⟩
      rcases ih hfirst with ⟨rest, hrest⟩
      exact ⟨first ++ rest, by simpa using hrest⟩

theorem Reachable.tells (h : s.Reachable) : ∃ trace, s.Tells trace := by
  rcases h with ⟨id, t, calls, rfl⟩
  exact (tells_start id t).run calls |>.imp fun _ h => by simpa using h

/-- Nothing is told of a phase that lies ahead. -/
theorem Tells.untold {α : Type} {value? : Event → Option α} {p : Phase} (h : s.Tells trace)
    (hvalue : ∀ e x, value? e = some x → e.phase? = some p) (hahead : s.phase.rank < p.rank) :
    trace.filterMap value? = [] := by
  rw [List.filterMap_eq_nil_iff]
  intro e he
  cases hx : value? e with
  | none => rfl
  | some x =>
      -- The phase that is told of is none above the one the session is in.
      have hp : p ∈ trace.filterMap Event.phase? := List.mem_filterMap.mpr ⟨e, he, hvalue e x hx⟩
      have hle := (Climbs.iff.mp h.phases).2 _ (List.mem_map_of_mem hp)
      exact absurd hahead (Nat.not_lt.mpr hle)

/-- No filters are counted before their phase. -/
theorem Tells.filters_eq_zero (h : s.Tells trace)
    (hahead : s.phase.rank < Phase.fetchingMissingFilters.rank) : s.filters = 0 := by
  rw [h.counts.filters, h.untold (fun e x hx => ?_) hahead]
  · rfl
  · cases e <;> simp_all [Event.filters?, Event.phase?]

theorem Tells.rescanned_eq_zero (h : s.Tells trace)
    (hahead : s.phase.rank < Phase.rescanning.rank) : s.rescanned = 0 := by
  rw [h.counts.rescanned, h.untold (fun e x hx => ?_) hahead]
  · rfl
  · cases e <;> simp_all [Event.rescanHeight?, Event.phase?]

theorem Tells.discovered_eq_false (h : s.Tells trace)
    (hahead : s.phase.rank < Phase.discoveringAddresses.rank) : s.discovered = false := by
  rw [← Bool.not_eq_true, h.counts.discovered, mem_discovered_iff,
    h.untold (fun e x hx => ?_) hahead]
  · simp
  · cases e <;> simp_all [Event.discovery?, Event.phase?]

/-! ## What is dropped -/

/-- What is dropped is left as it was when the number was looked at. -/
theorem dropped_of_ite {c : Prop} [Decidable c] {dropped kept : Session}
    (h : (if c then .ok (false, dropped) else .ok (true, kept) : Except Rejection _) =
      .ok (false, s')) : c ∧ dropped = s' := by
  by_cases hc : c
  · rw [if_pos hc] at h
    exact ⟨hc, (Prod.mk.inj (Except.ok.inj h)).2⟩
  · rw [if_neg hc] at h
    exact absurd (Prod.mk.inj (Except.ok.inj h)).1 (by decide)

theorem recordFilters_false {count : Int32} (h : s.recordFilters count now = .ok (false, s')) :
    s.enter .fetchingMissingFilters "fetching missing cfilters" now = .ok s' ∧
      count < s'.filters := by
  rcases bind_ok h with ⟨s₁, henter, h⟩
  rcases dropped_of_ite h with ⟨hback, rfl⟩
  exact ⟨henter, hback⟩

theorem recordDiscovery_false {finished : Bool}
    (h : s.recordDiscovery finished now = .ok (false, s')) :
    s.enter .discoveringAddresses "discovering addresses" now = .ok s' ∧
      s'.discovered = true := by
  rcases bind_ok h with ⟨s₁, henter, h⟩
  rcases dropped_of_ite h with ⟨hdone, rfl⟩
  exact ⟨henter, hdone⟩

theorem recordRescan_false {through : Int32} (h : s.recordRescan through now = .ok (false, s')) :
    s.enter .rescanning "rescanning" now = .ok s' ∧ through < s'.rescanned := by
  rcases bind_ok h with ⟨s₁, henter, h⟩
  rcases dropped_of_ite h with ⟨hback, rfl⟩
  exact ⟨henter, hback⟩

/-- Nothing is told of a report that is dropped. -/
theorem Drops.take (h : s.Drops now r s') : s.take now r = .ok (none, s') := by
  cases h with
  | filters h => simp only [Session.take, h]; rfl
  | discovery h => simp only [Session.take, h]; rfl
  | rescan h => simp only [Session.take, h]; rfl

/-- A dropped report has no effect in its own phase, and otherwise it is of a
    number below zero and moves the session on. -/
theorem Drops.cases (h : s.Drops now r s') (ht : s.Tells trace) :
    (r.phase? = some s.phase ∧ s' = s) ∨ (r.BelowZero ∧ ∃ p reason, r.phase? = some p ∧
      s.phase.rank < p.rank ∧ s' = s.moved p reason now) := by
  cases h with
  | @filters count _ h =>
      rcases recordFilters_false h with ⟨henter, hback⟩
      rcases enter_ok henter with ⟨_, ⟨hphase, rfl⟩ | ⟨hahead, rfl⟩⟩
      · exact .inl ⟨by rw [hphase]; rfl, rfl⟩
      · -- Nothing had been counted before, so the number was compared with zero.
        have hzero : count < s.filters := hback
        rw [ht.filters_eq_zero hahead] at hzero
        exact .inr ⟨hzero, _, _, rfl, hahead, rfl⟩
  | @discovery finished _ h =>
      rcases recordDiscovery_false h with ⟨henter, hdone⟩
      rcases enter_ok henter with ⟨_, ⟨hphase, rfl⟩ | ⟨hahead, rfl⟩⟩
      · exact .inl ⟨by rw [hphase]; rfl, rfl⟩
      · -- Discovery is not over before it has begun.
        have hdone : s.discovered = true := hdone
        rw [ht.discovered_eq_false hahead] at hdone
        exact absurd hdone (by decide)
  | @rescan through _ h =>
      rcases recordRescan_false h with ⟨henter, hback⟩
      rcases enter_ok henter with ⟨_, ⟨hphase, rfl⟩ | ⟨hahead, rfl⟩⟩
      · exact .inl ⟨by rw [hphase]; rfl, rfl⟩
      · have hzero : through < s.rescanned := hback
        rw [ht.rescanned_eq_zero hahead] at hzero
        exact .inr ⟨hzero, _, _, rfl, hahead, rfl⟩

theorem Drops.eq_of_not_ahead (h : s.Drops now r s') (ht : s.Tells trace)
    (hr : ¬s.DropsAhead r) : s' = s := by
  rcases h.cases ht with ⟨_, heq⟩ | ⟨hbelow, p, _, hp, hahead, _⟩
  · exact heq
  · exact absurd ⟨hbelow, p, hp, hahead⟩ hr

theorem Drops.moved_of_ahead (h : s.Drops now r s') (ht : s.Tells trace)
    (hr : s.DropsAhead r) : ∃ p reason, r.phase? = some p ∧ s.phase.rank < p.rank ∧
      p.isTerminal = false ∧ s' = s.moved p reason now := by
  rcases hr with ⟨_, p, hp, hahead⟩
  rcases h.cases ht with ⟨hphase, _⟩ | ⟨_, q, reason, hq, hahead', heq⟩
  · rw [Option.some.inj (hp.symm.trans hphase)] at hahead
    exact absurd hahead (Nat.lt_irrefl _)
  · refine ⟨q, reason, hq, hahead', ?_, heq⟩
    -- The phases of reports are all on the way to an end.
    cases r <;> simp [Report.phase?] at hq <;> rw [← hq] <;> rfl

end Session

end ChainSync
