import ChainSync.Proofs.Controller.Drive
import ChainSync.Proofs.Session.Calls

/-!
# Reports in Order

Reports that a session takes, every one of them.

Whether a session takes a report, and whether it passes it on, depends on little: its
phase, and the greatest numbers it has been told (`Standing`). So a list of reports can
be checked beforehand. A session of that standing then takes them one after the other,
and what observers hear is known from the list (`Report.event?`).

`Controller.Expects` puts the two together. It speaks of the reports that are still to
come, and relates them to what has been heard so far; with every report the one list
gets shorter and the other longer. Nothing but reports and the end of the session
changes it.

## Main definitions

* `Standing`, `Standing.takes`, `Standing.after`: What matters of a session.
* `Standing.TakesAll`: Reports that are taken one after the other.
* `Report.event?`: What is heard of a report.
* `Controller.Expects`: A controller with reports to come.

## Theorems

* `Session.take_of_takes`: A report that is taken.
* `Controller.Expects.report`, `Controller.Expects.progress`,
  `Controller.Expects.conclude`: The calls of a run.
-/

namespace ChainSync

/-- What matters of a session for the reports that it takes. -/
structure Standing where
  phase : Phase
  filters : Int32 := 0
  discovered : Bool := false
  rescanned : Int32 := 0
  terminal : Option TerminalError := none
deriving DecidableEq

/-- What is heard of a report that is passed on. -/
def Report.event? : Report → Option Event
  | .peerConnected n => some (.peerConnected (max n 0))
  | .peerDisconnected n => some (.peerDisconnected (max n 0))
  | .fetchMissingFilters n => some (.fetchMissingFilters n)
  | .beginHeaders _ => none
  | .fetchedHeaders peer n time => some (.fetchedHeaders peer n time)
  | .discoveredAddresses b => some (.discoveredAddresses b)
  | .rescanProgress n => some (.rescanProgress n)
  | .synced => some (.synced true)
  | .failed e => some (.syncError e.code e)

namespace Standing

/-- Whether a session is still under way, and has not come to a phase yet or is in it. -/
def isUpTo (st : Standing) (phase : Phase) : Bool := st.phase.rank ≤ phase.rank

/-- Whether a report is taken and passed on, and does not end the session. -/
def takes (st : Standing) : Report → Bool
  | .peerConnected _ => !st.phase.isTerminal
  | .peerDisconnected _ => !st.phase.isTerminal
  | .fetchMissingFilters n => st.isUpTo .fetchingMissingFilters && decide (st.filters ≤ n)
  | .beginHeaders _ => st.isUpTo .fetchingHeaders
  | .fetchedHeaders .. => st.isUpTo .fetchingHeaders
  | .discoveredAddresses _ => st.isUpTo .discoveringAddresses && !st.discovered
  | .rescanProgress n => st.isUpTo .rescanning && decide (st.rescanned ≤ n)
  | .synced => false
  | .failed _ => false

/-- The standing after a report that is taken. -/
def after (st : Standing) : Report → Standing
  | .fetchMissingFilters n => { st with phase := .fetchingMissingFilters, filters := n }
  | .beginHeaders _ => { st with phase := .fetchingHeaders }
  | .fetchedHeaders .. => { st with phase := .fetchingHeaders }
  | .discoveredAddresses b => { st with phase := .discoveringAddresses, discovered := b }
  | .rescanProgress n => { st with phase := .rescanning, rescanned := n }
  | _ => st

/-- Reports that are taken one after the other, without an end. -/
def TakesAll : Standing → List Report → Prop
  | st, [] => st.phase.isTerminal = false ∧ st.terminal = none
  | st, r :: reports => st.takes r = true ∧ (st.after r).TakesAll reports

variable {st : Standing} {reports : List Report}

theorem isTerminal_of_isUpTo {phase : Phase} (h : st.isUpTo phase = true)
    (hphase : phase.isTerminal = false) : st.phase.isTerminal = false := by
  have hle : st.phase.rank ≤ phase.rank := of_decide_eq_true h
  cases hst : st.phase <;> cases phase <;>
    simp_all [Phase.isTerminal, Phase.rank]

theorem isTerminal_of_takes {r : Report} (h : st.takes r = true) : st.phase.isTerminal = false := by
  cases r with
  | peerConnected n => exact (Bool.not_eq_true' _).mp h
  | peerDisconnected n => exact (Bool.not_eq_true' _).mp h
  | fetchMissingFilters n => exact isTerminal_of_isUpTo (Bool.and_eq_true_iff.mp h).1 rfl
  | beginHeaders n => exact isTerminal_of_isUpTo h rfl
  | fetchedHeaders peer n time => exact isTerminal_of_isUpTo h rfl
  | discoveredAddresses b => exact isTerminal_of_isUpTo (Bool.and_eq_true_iff.mp h).1 rfl
  | rescanProgress n => exact isTerminal_of_isUpTo (Bool.and_eq_true_iff.mp h).1 rfl
  | synced => exact absurd h Bool.false_ne_true
  | failed e => exact absurd h Bool.false_ne_true

/-- A session with reports to come is under way. -/
theorem TakesAll.underway (h : st.TakesAll reports) :
    st.phase.isTerminal = false ∧ st.terminal = none := by
  induction reports generalizing st with
  | nil => exact h
  | cons r reports ih =>
      have hkept : (st.after r).terminal = st.terminal := by cases r <;> rfl
      exact ⟨isTerminal_of_takes h.1, hkept.symm.trans (ih h.2).2⟩

/-- Reports that leave the standing as it is may come first. -/
theorem TakesAll.after_same {first : List Report}
    (hfirst : ∀ r ∈ first, st.takes r = true ∧ st.after r = st) (h : st.TakesAll reports) :
    st.TakesAll (first ++ reports) := by
  induction first with
  | nil => exact h
  | cons r first ih =>
      rcases List.forall_mem_cons.mp hfirst with ⟨⟨htakes, hsame⟩, hrest⟩
      refine ⟨htakes, ?_⟩
      rw [hsame]
      exact ih hrest

end Standing

namespace Session

/-- The standing of a session. -/
def standing (s : Session) : Standing := ⟨s.phase, s.filters, s.discovered, s.rescanned, s.terminal⟩

/-- A session enters a phase that it has not come to yet, or stays in it. -/
theorem enter_of_isUpTo {s : Session} {phase : Phase} (h : s.standing.isUpTo phase = true)
    (hphase : phase.isTerminal = false) (reason : String) (now : Nat) :
    ∃ s', s.enter phase reason now = .ok s' ∧ s'.standing = { s.standing with phase } := by
  have hle : s.phase.rank ≤ phase.rank := of_decide_eq_true h
  have hactive : s.isActive = true := by
    rw [isActive, Bool.not_eq_true']
    exact Standing.isTerminal_of_isUpTo h hphase
  unfold enter
  rw [ensureActive_eq hactive]
  change ∃ s', (if s.phase = phase then _ else _) = _ ∧ _
  by_cases hsame : s.phase = phase
  · exact ⟨s, by rw [if_pos hsame], by rw [standing, hsame]⟩
  · have hlt : s.phase.rank < phase.rank := by
      refine Nat.lt_of_le_of_ne hle fun heq => hsame ?_
      cases hs : s.phase <;> cases phase <;> simp_all [Phase.rank]
    refine ⟨s.moved phase reason now, ?_, rfl⟩
    rw [if_neg hsame, if_neg (Nat.not_lt.mpr hle), move_eq,
      if_pos (canMoveTo_of_rank_lt hactive hlt)]

/-- A report that is taken is passed on, and the standing is as expected. -/
theorem take_of_takes {s : Session} {r : Report} (h : s.standing.takes r = true) (now : Nat) :
    ∃ s', s.take now r = .ok (r.event?, s') ∧ s'.standing = s.standing.after r := by
  have hactive : s.isActive = true := by
    rw [isActive, Bool.not_eq_true']
    exact Standing.isTerminal_of_takes h
  cases r with
  | peerConnected n =>
      refine ⟨{ s with peers := max n 0 }, ?_, rfl⟩
      simp only [take, setPeers, ensureActive_eq hactive]
      rfl
  | peerDisconnected n =>
      refine ⟨{ s with peers := max n 0 }, ?_, rfl⟩
      simp only [take, setPeers, ensureActive_eq hactive]
      rfl
  | fetchMissingFilters n =>
      rcases Bool.and_eq_true_iff.mp h with ⟨hup, hcount⟩
      rcases enter_of_isUpTo hup rfl "fetching missing cfilters" now with ⟨s₁, henter, hs₁⟩
      have hnot : ¬n < s₁.filters := by
        rw [show s₁.filters = s.standing.filters from congrArg Standing.filters hs₁]
        exact Int32.not_lt.mpr (of_decide_eq_true hcount)
      refine ⟨{ s₁ with filters := n }, ?_, congrArg (fun st => { st with filters := n }) hs₁⟩
      simp only [take, recordFilters, henter, bind, Except.bind, if_neg hnot]
      rfl
  | beginHeaders n =>
      rcases enter_of_isUpTo h rfl "fetching headers" now with ⟨s₁, henter, hs₁⟩
      refine ⟨{ s₁ with headersStart := n }, ?_, hs₁⟩
      simp only [take, beginHeaders, henter, bind, Except.bind]
      rfl
  | fetchedHeaders peer n time =>
      rcases enter_of_isUpTo h rfl "fetching headers" now with ⟨s₁, henter, hs₁⟩
      simp only [take, recordHeaders, henter, bind, Except.bind]
      by_cases hup : s₁.headers ≤ n
      · simp only [if_pos hup]
        exact ⟨_, rfl, hs₁⟩
      · simp only [if_neg hup]
        exact ⟨_, rfl, hs₁⟩
  | discoveredAddresses b =>
      rcases Bool.and_eq_true_iff.mp h with ⟨hup, hopen⟩
      rcases enter_of_isUpTo hup rfl "discovering addresses" now with ⟨s₁, henter, hs₁⟩
      have hnot : ¬s₁.discovered = true := by
        rw [show s₁.discovered = s.standing.discovered from congrArg Standing.discovered hs₁]
        exact Bool.eq_false_iff.mp ((Bool.not_eq_true' _).mp hopen)
      refine ⟨{ s₁ with discovered := b }, ?_, congrArg (fun st => { st with discovered := b }) hs₁⟩
      simp only [take, recordDiscovery, henter, bind, Except.bind, if_neg hnot]
      rfl
  | rescanProgress n =>
      rcases Bool.and_eq_true_iff.mp h with ⟨hup, hcount⟩
      rcases enter_of_isUpTo hup rfl "rescanning" now with ⟨s₁, henter, hs₁⟩
      have hnot : ¬n < s₁.rescanned := by
        rw [show s₁.rescanned = s.standing.rescanned from congrArg Standing.rescanned hs₁]
        exact Int32.not_lt.mpr (of_decide_eq_true hcount)
      refine ⟨{ s₁ with rescanned := n }, ?_, congrArg (fun st => { st with rescanned := n }) hs₁⟩
      simp only [take, recordRescan, henter, bind, Except.bind, if_neg hnot]
      rfl
  | synced => exact absurd h Bool.false_ne_true
  | failed e => exact absurd h Bool.false_ne_true

end Session

namespace Controller

/-- A controller with reports to come. What its first observer has heard so far, and
    what it will hear of the reports, make up a whole. -/
structure Expects (c : Controller) (whole : List Event) (reports : List Report) : Prop where
  session : ∃ s, c.session = some s ∧ s.standing.TakesAll reports
  observed : 0 < c.observers.length
  heard : c.heard 0 ++ reports.filterMap Report.event? = whole

namespace Expects

variable {c : Controller} {whole : List Event} {reports : List Report}

/-- The next report is taken. -/
theorem report {r : Report} (h : c.Expects whole (r :: reports)) (now : Nat) :
    ∃ c', c.report r now = .ok c' ∧ c'.Expects whole reports := by
  rcases h.session with ⟨s, hs, htakes, hrest⟩
  rcases s.take_of_takes htakes now with ⟨s', htake, hafter⟩
  have hreport : c.report r now =
      .ok (({ c with session := some s' } : Controller).emit? r.event?) := by
    simp only [Controller.report, hs, htake]
  refine ⟨_, hreport, ⟨s', ?_, hafter ▸ hrest⟩, ?_, ?_⟩
  · cases r.event? <;> rfl
  · cases r.event? with
    | none => exact h.observed
    | some event => simpa [emit?, emit_eq] using h.observed
  · -- What is heard of the report moves from what is to come to what has been.
    have hwhole := h.heard
    cases hevent : r.event? with
    | none =>
        rw [List.filterMap_cons_none hevent] at hwhole
        exact hwhole
    | some event =>
        rw [List.filterMap_cons_some hevent] at hwhole
        rw [emit?, heard_emit { c with session := some s' } event h.observed, List.append_assoc]
        exact hwhole

/-- Asking for the progress changes nothing of it. -/
theorem progress (h : c.Expects whole reports) (now : Nat) (nowUnix : Int64) :
    (c.progress now nowUnix).2.Expects whole reports := by
  rcases h.session with ⟨s, hs, htakes⟩
  simp only [Controller.progress, hs]
  exact ⟨⟨_, rfl, htakes⟩, h.observed, h.heard⟩

/-- The end of a session with reports to come. Observers hear of it once, and the
    answer is the error, or none. -/
theorem conclude (h : c.Expects whole reports) (error : Option SyncError) (now : Nat) :
    (c.conclude error now).1 = error.elim (.ok ()) .error ∧
      (c.conclude error now).2.heard 0 = c.heard 0 ++ [Session.closingEvent error] := by
  rcases h.session with ⟨s, hs, htakes⟩
  rcases htakes.underway with ⟨hterminal, hnone⟩
  have hactive : s.isActive = true := by
    rw [Session.isActive, Bool.not_eq_true']
    exact hterminal
  rcases conclude_active error now hs hactive with ⟨s', heq, _, _, hend⟩
  -- No end has been put down before, so it is this one that counts.
  have hkept : s.terminal = none := hnone
  rw [hkept, Option.or_none] at hend
  rw [heq]
  refine ⟨?_, heard_emit { c with session := some s' } _ h.observed⟩
  cases error with
  | none =>
      rw [Session.reply, Session.verdict, hend]
      rfl
  | some e =>
      -- Whether or not the error counts as news, it is the session's own.
      have hverdict : s'.verdict = .error e := by
        rw [Session.verdict, hend]
        rfl
      simp only [Session.reply, hverdict, ite_self]
      rfl

end Expects

end Controller

end ChainSync
