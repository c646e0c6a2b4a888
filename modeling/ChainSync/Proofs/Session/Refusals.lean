import ChainSync.Proofs.Session.Calls

/-!
# Refused Reports

When a session refuses a report, and with which rejection.

Whether a report is in order is decided in three places. A session that is over
takes nothing, a phase that lies behind is not entered again, and no move is
made between phases that do not follow each other. The third check never has
the last word: whatever gets past the first two goes up in rank from a phase
that is no end, and all such moves are allowed. So `cannotMove` is a rejection
that nobody ever sees.

`Refuses` says what is left. It knows a report by the phase it belongs to and
by nothing else, so the numbers that are reported play no part in it.

## Main definitions

* `Report.phase?`: The phase a report belongs to.
* `Session.Refuses`: The rejections of a report of a phase.
* `Session.RefusedIff`, `Session.RefusesExactly`: When there is one.

## Theorems

* `Session.exists_refuses_iff`: When there is a rejection.
* `Session.begin_error_iff`: The rejections of a begin.
* `Session.enter_error_iff`: The rejections of a phase that is to be entered.
* `Session.take_error_iff`: The rejections of a report.
* `Session.refusesExactly`: What a session refuses.
-/

namespace ChainSync

/-- A chain that only its first link can break breaks there. -/
theorem bind_error_iff {ε α β : Type} {x : Except ε α} {f : α → Except ε β} {e : ε}
    (hf : ∀ a, x = .ok a → ∃ b, f a = .ok b) : x >>= f = .error e ↔ x = .error e := by
  cases x with
  | error e' => simp only [bind, Except.bind, Except.error.injEq]
  | ok a =>
      rcases hf a rfl with ⟨b, hb⟩
      refine iff_of_false ?_ (by simp only [reduceCtorEq, not_false_eq_true])
      change f a ≠ .error e
      rw [hb]
      simp only [ne_eq, reduceCtorEq, not_false_eq_true]

/-- The phase a report belongs to. Peers are counted in every phase that is no
    end, and a run may end in every such phase. -/
def Report.phase? : Report → Option Phase
  | .fetchMissingFilters _ => some .fetchingMissingFilters
  | .beginHeaders _ => some .fetchingHeaders
  | .fetchedHeaders .. => some .fetchingHeaders
  | .discoveredAddresses _ => some .discoveringAddresses
  | .rescanProgress _ => some .rescanning
  | _ => none

/-- Phases are told apart by their rank. -/
theorem Phase.eq_of_rank_eq {p q : Phase} (h : p.rank = q.rank) : p = q := by
  cases p <;> cases q <;> first | rfl | exact absurd h (by decide)

namespace Session

/-- The rejections of a report that belongs to a phase, or to none. -/
inductive Refuses (s : Session) (phase? : Option Phase) : Rejection → Prop
  | ended (hover : s.phase.isTerminal = true) :
      s.Refuses phase? (.alreadyFinished s.id s.phase)
  | behind {p : Phase} (hp : phase? = some p) (hopen : s.phase.isTerminal = false)
      (hlt : p.rank < s.phase.rank) : s.Refuses phase? (.outOfOrder p s.phase)

variable {s : Session} {why : Rejection}

theorem exists_refuses_iff {phase? : Option Phase} : (∃ why, s.Refuses phase? why) ↔
    s.phase.isTerminal = true ∨ ∃ p, phase? = some p ∧ p.rank < s.phase.rank := by
  constructor
  · rintro ⟨why, hwhy⟩
    cases hwhy with
    | ended hover => exact .inl hover
    | behind hp _ hlt => exact .inr ⟨_, hp, hlt⟩
  · intro h
    -- A session that is over says so, whichever phase is asked for.
    cases hend : s.phase.isTerminal with
    | true => exact ⟨_, .ended hend⟩
    | false =>
        rcases h.resolve_left (by rw [hend]; decide) with ⟨p, hp, hlt⟩
        exact ⟨_, .behind hp hend hlt⟩

/-- A report that belongs to no phase is refused by a session that is over. -/
theorem exists_refuses_none : (∃ why, s.Refuses none why) ↔ s.phase.isTerminal = true := by
  rw [exists_refuses_iff]
  simp only [reduceCtorEq, false_and, exists_false, or_false]

theorem exists_refuses_some {p : Phase} : (∃ why, s.Refuses (some p) why) ↔
    s.phase.isTerminal = true ∨ p.rank < s.phase.rank := by
  rw [exists_refuses_iff]
  simp only [Option.some.injEq, exists_eq_left']

/-- A session that is over has one rejection for everything. -/
theorem refuses_of_terminal {phase? : Option Phase} (hend : s.phase.isTerminal = true) :
    s.Refuses phase? why ↔ .alreadyFinished s.id s.phase = why := by
  constructor
  · rintro (_ | ⟨_, hopen, _⟩)
    · rfl
    · rw [hend] at hopen
      exact absurd hopen (by decide)
  · rintro rfl
    exact .ended hend

theorem refuses_of_behind {p : Phase} (hopen : s.phase.isTerminal = false)
    (hlt : p.rank < s.phase.rank) :
    s.Refuses (some p) why ↔ .outOfOrder p s.phase = why := by
  constructor
  · rintro (hover | ⟨hp, _, _⟩)
    · rw [hopen] at hover
      exact absurd hover (by decide)
    · rw [Option.some.inj hp]
  · rintro rfl
    exact .behind rfl hopen hlt

theorem ensureActive_error_iff : s.ensureActive = .error why ↔ s.Refuses none why := by
  unfold ensureActive isActive
  cases hend : s.phase.isTerminal with
  | true => rw [refuses_of_terminal hend, Bool.not_true, if_neg (by decide), Except.error.injEq]
  | false =>
      have hnone : ¬∃ why, s.Refuses none why := by
        rw [exists_refuses_none, hend]
        decide
      rw [Bool.not_false, if_pos rfl]
      exact iff_of_false (by simp only [reduceCtorEq, not_false_eq_true])
        fun hwhy => hnone ⟨why, hwhy⟩

/-- A begin is refused exactly by a session that has been begun. -/
theorem begin_error_iff (now : Nat) : s.begin now = .error why ↔
    s.phase ≠ .idle ∧ .alreadyStarted s.id s.phase = why := by
  unfold begin
  by_cases hidle : s.phase = .idle
  · have hcan : s.phase.canMoveTo .connectingPeers = true := by
      rw [hidle]
      rfl
    rw [if_pos hidle, move_eq, if_pos hcan]
    exact iff_of_false (by simp only [reduceCtorEq, not_false_eq_true]) fun h => h.1 hidle
  · rw [if_neg hidle, Except.error.injEq]
    exact ⟨fun h => ⟨hidle, h⟩, fun h => h.2⟩

/-- A phase is entered unless the session is over or past it. A move that the
    phases forbid is never tried. -/
theorem enter_error_iff (phase : Phase) (reason : String) (now : Nat) :
    s.enter phase reason now = .error why ↔ s.Refuses (some phase) why := by
  unfold enter
  cases hend : s.phase.isTerminal with
  | true =>
      rw [ensureActive_error_iff.mpr (.ended hend), refuses_of_terminal hend]
      simp only [bind, Except.bind, Except.error.injEq]
  | false =>
      have hactive : s.isActive = true := by rw [isActive, hend, Bool.not_false]
      rw [ensureActive_eq hactive]
      change (if s.phase = phase then _ else _) = _ ↔ _
      by_cases hbehind : phase.rank < s.phase.rank
      · have hne : s.phase ≠ phase := by
          rintro rfl
          exact Nat.lt_irrefl _ hbehind
        rw [if_neg hne, if_pos hbehind, refuses_of_behind hend hbehind, Except.error.injEq]
      · -- The phase is the current one or lies ahead, and then the move is allowed.
        have hnone : ¬∃ why, s.Refuses (some phase) why := by
          rw [exists_refuses_some, hend]
          exact not_or.mpr ⟨by decide, hbehind⟩
        refine iff_of_false ?_ fun hwhy => hnone ⟨why, hwhy⟩
        by_cases hsame : s.phase = phase
        · rw [if_pos hsame]
          simp only [reduceCtorEq, not_false_eq_true]
        · have hahead : s.phase.rank < phase.rank := Nat.lt_of_le_of_ne (Nat.not_lt.mp hbehind)
            fun heq => hsame (Phase.eq_of_rank_eq heq)
          rw [if_neg hsame, if_neg hbehind, move_eq,
            if_pos (canMoveTo_of_rank_lt hactive hahead)]
          simp only [reduceCtorEq, not_false_eq_true]

/-! ## The reports

Past the first check, or past the phase that is entered, nothing fails. -/

theorem setPeers_error_iff (count : Int32) :
    s.setPeers count = .error why ↔ s.Refuses none why := by
  rw [← ensureActive_error_iff]
  exact bind_error_iff fun _ _ => ⟨_, rfl⟩

theorem recordFilters_error_iff (count : Int32) (now : Nat) :
    s.recordFilters count now = .error why ↔ s.Refuses (some .fetchingMissingFilters) why := by
  rw [← enter_error_iff _ "fetching missing cfilters" now]
  exact bind_error_iff fun _ _ => by split <;> exact ⟨_, rfl⟩

theorem beginHeaders_error_iff (height : Int32) (now : Nat) :
    s.beginHeaders height now = .error why ↔ s.Refuses (some .fetchingHeaders) why := by
  rw [← enter_error_iff _ "fetching headers" now]
  exact bind_error_iff fun _ _ => ⟨_, rfl⟩

theorem recordHeaders_error_iff (peerHeight count : Int32) (time : Int64) (now : Nat) :
    s.recordHeaders peerHeight count time now = .error why ↔
      s.Refuses (some .fetchingHeaders) why := by
  rw [← enter_error_iff _ "fetching headers" now]
  refine bind_error_iff fun s' _ => ?_
  by_cases hup : s'.headers ≤ count
  · exact ⟨_, if_pos hup⟩
  · exact ⟨_, if_neg hup⟩

theorem recordDiscovery_error_iff (finished : Bool) (now : Nat) :
    s.recordDiscovery finished now = .error why ↔
      s.Refuses (some .discoveringAddresses) why := by
  rw [← enter_error_iff _ "discovering addresses" now]
  exact bind_error_iff fun _ _ => by split <;> exact ⟨_, rfl⟩

theorem recordRescan_error_iff (through : Int32) (now : Nat) :
    s.recordRescan through now = .error why ↔ s.Refuses (some .rescanning) why := by
  rw [← enter_error_iff _ "rescanning" now]
  exact bind_error_iff fun _ _ => by split <;> exact ⟨_, rfl⟩

theorem finish_error_iff (now : Nat) : s.finish now = .error why ↔ s.Refuses none why := by
  rw [← ensureActive_error_iff]
  exact bind_error_iff fun _ hactive => ⟨_, move_end _ now (ensureActive_ok hactive) rfl⟩

theorem fail_error_iff (error : SyncError) (now : Nat) :
    s.fail error now = .error why ↔ s.Refuses none why := by
  rw [← ensureActive_error_iff]
  refine bind_error_iff fun _ hactive => ?_
  rw [move_end _ now (ensureActive_ok hactive) rfl]
  exact ⟨_, rfl⟩

/-- A report is refused with the rejections of its phase, whatever it reports. -/
theorem take_error_iff (r : Report) (now : Nat) :
    s.take now r = .error why ↔ s.Refuses r.phase? why := by
  -- What is made of a report once it is taken cannot fail any more.
  cases r with
  | peerConnected count =>
      exact (bind_error_iff fun _ _ => ⟨_, rfl⟩).trans (setPeers_error_iff count)
  | peerDisconnected count =>
      exact (bind_error_iff fun _ _ => ⟨_, rfl⟩).trans (setPeers_error_iff count)
  | fetchMissingFilters count =>
      exact (bind_error_iff fun _ _ => ⟨_, rfl⟩).trans (recordFilters_error_iff count now)
  | beginHeaders height =>
      exact (bind_error_iff fun _ _ => ⟨_, rfl⟩).trans (beginHeaders_error_iff height now)
  | fetchedHeaders peerHeight count time =>
      exact (bind_error_iff fun _ _ => ⟨_, rfl⟩).trans
        (recordHeaders_error_iff peerHeight count time now)
  | discoveredAddresses finished =>
      exact (bind_error_iff fun _ _ => ⟨_, rfl⟩).trans (recordDiscovery_error_iff finished now)
  | rescanProgress through =>
      exact (bind_error_iff fun _ _ => ⟨_, rfl⟩).trans (recordRescan_error_iff through now)
  | synced =>
      exact (bind_error_iff fun _ _ => ⟨_, rfl⟩).trans (finish_error_iff now)
  | failed error =>
      exact (bind_error_iff fun _ _ => ⟨_, rfl⟩).trans (fail_error_iff error now)

/-! ## All of them -/

/-- Something is refused exactly under a condition, and never for a move that
    the phases forbid. -/
structure RefusedIff {α : Type} (x : Except Rejection α) (condition : Prop) : Prop where
  refused : (∃ why, x = .error why) ↔ condition
  allowed : ∀ source target, x ≠ .error (.cannotMove source target)

theorem RefusedIff.of_refuses {α : Type} {x : Except Rejection α} {phase? : Option Phase}
    {condition : Prop} (hx : ∀ why, x = .error why ↔ s.Refuses phase? why)
    (hcondition : (∃ why, s.Refuses phase? why) ↔ condition) : RefusedIff x condition where
  refused := (exists_congr hx).trans hcondition
  allowed := fun source target hmove => nomatch (hx (.cannotMove source target)).mp hmove

/-- What a session refuses: a begin unless it is idle, what belongs to no phase
    once it is over, and what belongs to a phase once it is over or past it. -/
structure RefusesExactly (s : Session) : Prop where
  begin (now : Nat) : RefusedIff (s.begin now) (s.phase ≠ .idle)
  setPeers (count : Int32) : RefusedIff (s.setPeers count) (s.phase.isTerminal = true)
  recordFilters (count : Int32) (now : Nat) : RefusedIff (s.recordFilters count now)
    (s.phase.isTerminal = true ∨ Phase.fetchingMissingFilters.rank < s.phase.rank)
  beginHeaders (height : Int32) (now : Nat) : RefusedIff (s.beginHeaders height now)
    (s.phase.isTerminal = true ∨ Phase.fetchingHeaders.rank < s.phase.rank)
  recordHeaders (peerHeight count : Int32) (time : Int64) (now : Nat) :
    RefusedIff (s.recordHeaders peerHeight count time now)
      (s.phase.isTerminal = true ∨ Phase.fetchingHeaders.rank < s.phase.rank)
  recordDiscovery (finished : Bool) (now : Nat) : RefusedIff (s.recordDiscovery finished now)
    (s.phase.isTerminal = true ∨ Phase.discoveringAddresses.rank < s.phase.rank)
  recordRescan (through : Int32) (now : Nat) : RefusedIff (s.recordRescan through now)
    (s.phase.isTerminal = true ∨ Phase.rescanning.rank < s.phase.rank)
  finish (now : Nat) : RefusedIff (s.finish now) (s.phase.isTerminal = true)
  fail (error : SyncError) (now : Nat) :
    RefusedIff (s.fail error now) (s.phase.isTerminal = true)

theorem refusesExactly (s : Session) : s.RefusesExactly where
  begin now :=
    { refused := ⟨fun ⟨_, h⟩ => ((begin_error_iff now).mp h).1,
        fun h => ⟨_, (begin_error_iff now).mpr ⟨h, rfl⟩⟩⟩
      allowed := fun _ _ h => nomatch ((begin_error_iff now).mp h).2 }
  setPeers count := .of_refuses (fun _ => setPeers_error_iff count) exists_refuses_none
  recordFilters count now :=
    .of_refuses (fun _ => recordFilters_error_iff count now) exists_refuses_some
  beginHeaders height now :=
    .of_refuses (fun _ => beginHeaders_error_iff height now) exists_refuses_some
  recordHeaders peerHeight count time now :=
    .of_refuses (fun _ => recordHeaders_error_iff peerHeight count time now) exists_refuses_some
  recordDiscovery finished now :=
    .of_refuses (fun _ => recordDiscovery_error_iff finished now) exists_refuses_some
  recordRescan through now :=
    .of_refuses (fun _ => recordRescan_error_iff through now) exists_refuses_some
  finish now := .of_refuses (fun _ => finish_error_iff now) exists_refuses_none
  fail error now := .of_refuses (fun _ => fail_error_iff error now) exists_refuses_none

/-- What a session refuses of the reports is told by their phase. -/
theorem take_refused (s : Session) (r : Report) (now : Nat) : RefusedIff (s.take now r)
    (s.phase.isTerminal = true ∨ ∃ p, r.phase? = some p ∧ p.rank < s.phase.rank) :=
  .of_refuses (fun _ => take_error_iff r now) exists_refuses_iff

end Session

end ChainSync
