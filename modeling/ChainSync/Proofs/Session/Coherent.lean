import ChainSync.Proofs.Session.Calls

/-!
# Coherent Sessions

A session says the same thing several times over. Its history tells which
phases it has been in and when; the points in time that estimates are measured
from, the end, the error and the phase itself could all be read off it. They
are fields of their own, and each report that moves the session has to keep
all of them in step. `Coherent` says what that means, and every session that
calls can lead to is coherent.

The phases a session leaves, followed by the one it is in, are the phases it
reaches, preceded by idle. That one equation says that the history is a chain
from idle to the present, and it is kept by appending to both sides.

A phase is entered once only, because phases go up. This is what makes a
single point in time enough for each of them.

## Main definitions

* `Session.Noted`: A point in time is that of the entry into a phase.
* `Session.Coherent`: All parts of a session agree with its history.

## Theorems

* `Session.Coherent.moved`: A move that may follow keeps a session coherent.
* `Session.Coherent.turn`: Every call does.
* `Session.history_sublist`: A history notes points in time in the order of
  the calls.
* `Session.coherent_run`: Every session that calls lead to is coherent.
-/

namespace ChainSync

namespace Session

/-- A point in time is noted exactly if the history holds an entry into the
    phase, and then it is the time of that entry. -/
def Noted (history : List Transition) (p : Phase) (time : Option Nat) : Prop :=
  ∀ t, time = some t ↔ ∃ m ∈ history, m.target = p ∧ m.time = t

/-- All parts of a session agree with its history. -/
structure Coherent (s : Session) : Prop where
  /-- Moves follow each other from idle to the phase the session is in. -/
  chain : s.history.map (·.source) ++ [s.phase] = .idle :: s.history.map (·.target)
  /-- Nothing has happened exactly as long as the session is idle. -/
  untouched : s.history = [] ↔ s.phase = .idle
  /-- Phases go up, from idle on. -/
  climbs : ((.idle :: s.history.map (·.target)).map Phase.rank).Pairwise (· < ·)
  headers : Noted s.history .fetchingHeaders s.headersStartedAt
  discovery : Noted s.history .discoveringAddresses s.discoveryStartedAt
  rescan : Noted s.history .rescanning s.rescanStartedAt
  /-- The end is noted exactly by a session that has ended. -/
  finished : s.finishedAt.isSome = true ↔ s.phase = .synced ∨ s.phase = .failed
  /-- The end is the time of the last move. -/
  finishedAt : ∀ t ∈ s.finishedAt, ∃ m ∈ s.history.getLast?, m.time = t
  /-- An error is kept exactly by a session that has failed. -/
  failed : s.terminal.isSome = true ↔ s.phase = .failed
  /-- The error has its own code, and its message is why the last move was made. -/
  fault : ∀ e ∈ s.terminal, e.code = e.error.code ∧
    ∃ m ∈ s.history.getLast?, m.reason = e.error.message

theorem coherent_start (id : UInt64) (t : Nat) : (start id t).Coherent where
  chain := rfl
  untouched := by simp [start]
  climbs := List.pairwise_singleton _ _
  headers := by simp [Noted, start]
  discovery := by simp [Noted, start]
  rescan := by simp [Noted, start]
  finished := by simp [start]
  finishedAt := by simp [start]
  failed := by simp [start]
  fault := by simp [start]

theorem coherent_outline {s : Session} : s.outline.Coherent ↔ s.Coherent :=
  ⟨fun ⟨h₁, h₂, h₃, h₄, h₅, h₆, h₇, h₈, h₉, h₁₀⟩ => ⟨h₁, h₂, h₃, h₄, h₅, h₆, h₇, h₈, h₉, h₁₀⟩,
    fun ⟨h₁, h₂, h₃, h₄, h₅, h₆, h₇, h₈, h₉, h₁₀⟩ => ⟨h₁, h₂, h₃, h₄, h₅, h₆, h₇, h₈, h₉, h₁₀⟩⟩

theorem Coherent.of_outline {s s' : Session} (hs : s.Coherent) (h : s'.outline = s.outline) :
    s'.Coherent := by
  rw [← coherent_outline, h]
  exact coherent_outline.mpr hs

/-- No phase that a session has entered ranks above the one it is in. -/
theorem Coherent.rank_le {s : Session} (hs : s.Coherent) {p : Phase}
    (hp : p ∈ Phase.idle :: s.history.map (·.target)) : p.rank ≤ s.phase.rank := by
  have hclimbs := hs.climbs
  rw [← hs.chain, List.map_append, List.pairwise_append] at hclimbs
  rw [← hs.chain, List.mem_append, List.mem_singleton] at hp
  rcases hp with hp | rfl
  · exact Nat.le_of_lt (hclimbs.2.2 _ (List.mem_map_of_mem hp) _ (List.mem_singleton.mpr rfl))
  · exact Nat.le_refl _

/-- A session that may still move has not come to an end. -/
theorem Coherent.unfinished {s : Session} (hs : s.Coherent) {next : Phase}
    (hcan : s.phase.canMoveTo next = true) : s.finishedAt = none ∧ s.terminal = none := by
  have hlive : ∀ p, p.isTerminal = true → s.phase ≠ p := by
    rintro p hp rfl
    rw [Phase.canMoveTo, hp] at hcan
    exact absurd hcan (by simp)
  have hfinished := mt hs.finished.mp (not_or.mpr ⟨hlive .synced rfl, hlive .failed rfl⟩)
  have hfailed := mt hs.failed.mp (hlive .failed rfl)
  exact ⟨by simpa using hfinished, by simpa using hfailed⟩

/-- An entry that is appended is noted in place of what was noted before. -/
theorem Noted.append {history : List Transition} {p : Phase} {time : Option Nat}
    (h : Noted history p time) (m : Transition)
    (hfirst : m.target = p → ∀ m' ∈ history, m'.target ≠ p) :
    Noted (history ++ [m]) p (if m.target = p then some m.time else time) := by
  intro t
  simp only [List.mem_append, List.mem_singleton, or_and_right, exists_or, exists_eq_left]
  by_cases hm : m.target = p
  · rw [if_pos hm, Option.some.injEq]
    refine ⟨fun ht => Or.inr ⟨hm, ht⟩, ?_⟩
    rintro (⟨m', hmem, htarget, _⟩ | ⟨_, ht⟩)
    · exact absurd htarget (hfirst hm m' hmem)
    · exact ht
  · rw [if_neg hm, h t]
    exact ⟨Or.inl, fun hor => hor.resolve_right fun hlast => hm hlast.1⟩

/-- A move that may follow keeps a session coherent, if it keeps an error
    exactly when it is a failure, and the error that it was made for. -/
theorem Coherent.moved {s : Session} (hs : s.Coherent) {next : Phase} {reason : String}
    {now : Nat} {error : Option TerminalError} (hcan : s.phase.canMoveTo next = true)
    (hfailed : error.isSome = true ↔ next = .failed)
    (hfault : ∀ e ∈ error, e.code = e.error.code ∧ reason = e.error.message) :
    Coherent { s.moved next reason now with terminal := error } := by
  have hup : s.phase.rank < next.rank := Phase.rank_lt_of_canMoveTo hcan
  -- The phase is a new one, so whatever was noted before is of other phases.
  have hfirst : ∀ m ∈ s.history, m.target ≠ next := by
    intro m hm hnext
    have hle := hs.rank_le (List.mem_cons_of_mem _ (List.mem_map_of_mem hm))
    rw [hnext] at hle
    exact absurd hup (Nat.not_lt.mpr hle)
  have hnoted : ∀ p time, Noted s.history p time →
      Noted (s.history ++ [⟨s.phase, next, now, reason⟩]) p (if next = p then some now else time) :=
    fun p time h => h.append ⟨s.phase, next, now, reason⟩ fun hp => by rw [← hp]; exact hfirst
  refine ⟨?_, ?_, ?_, hnoted _ _ hs.headers, hnoted _ _ hs.discovery, hnoted _ _ hs.rescan,
    ?_, ?_, hfailed, ?_⟩
  · simp only [Session.moved, List.map_append, List.map_cons, List.map_nil]
    rw [hs.chain]
    rfl
  · refine ⟨fun h => absurd h (by simp [Session.moved]), fun h => ?_⟩
    rw [show next = .idle from h] at hup
    exact absurd hup (Nat.not_lt_zero _)
  · simp only [Session.moved, List.map_append, List.map_cons, List.map_nil]
    rw [← List.cons_append, ← List.map_cons, List.pairwise_append]
    refine ⟨hs.climbs, List.pairwise_singleton _ _, fun a ha b hb => ?_⟩
    rcases List.mem_map.mp ha with ⟨p, hp, rfl⟩
    rw [List.mem_singleton.mp hb]
    exact Nat.lt_of_le_of_lt (hs.rank_le hp) hup
  · simp only [Session.moved, (hs.unfinished hcan).1]
    cases next <;> simp [Phase.isTerminal]
  · simp only [Session.moved, (hs.unfinished hcan).1, List.getLast?_concat]
    cases next <;> simp [Phase.isTerminal]
  · intro e he
    simp only [Session.moved, List.getLast?_concat]
    exact ⟨(hfault e he).1, _, rfl, (hfault e he).2⟩

theorem Coherent.turn {s s' : Session} {clock : Option Nat} (hs : s.Coherent)
    (h : s.Turns clock s') : s'.Coherent := by
  cases h with
  | stays h => exact hs.of_outline h
  | moves now next reason _ hcan hnext h =>
      -- The error is left alone, and there is none in a session that may move.
      have hnone := (hs.unfinished hcan).2
      have hmoved : Coherent { s.moved next reason now with terminal := s.terminal } := by
        rw [hnone]
        exact hs.moved hcan (iff_of_false (by decide) hnext) (by simp)
      exact hmoved.of_outline h
  | fails now error _ hcan h =>
      have hfault : ∀ e ∈ some (TerminalError.ofError error),
          e.code = e.error.code ∧ error.message = e.error.message := fun e he => by
        rw [← Option.some.inj he]
        exact ⟨rfl, rfl⟩
      have hmoved : Coherent { s.moved .failed error.message now with
          terminal := some (.ofError error) } := hs.moved hcan (iff_of_true rfl rfl) hfault
      exact hmoved.of_outline h

/-- What a session has been moved by is noted after all that was noted before. -/
theorem Turns.history {s s' : Session} {clock : Option Nat} (h : s.Turns clock s') :
    ∃ more, s'.history = s.history ++ more ∧ (more.map (·.time)).Sublist clock.toList := by
  cases h with
  | stays h =>
      have hhistory : s'.history = s.history := (congrArg Session.history h :)
      exact ⟨[], by rw [hhistory, List.append_nil], List.nil_sublist _⟩
  | moves now next reason hclock _ _ h =>
      rw [hclock]
      exact ⟨_, congrArg Session.history h, List.Sublist.refl _⟩
  | fails now error hclock _ h =>
      rw [hclock]
      exact ⟨_, congrArg Session.history h, List.Sublist.refl _⟩

theorem Turns.phase_of_terminal {s s' : Session} {clock : Option Nat} (h : s.Turns clock s')
    (hend : s.phase.isTerminal = true) : s'.phase = s.phase := by
  have hstuck : ∀ next, s.phase.canMoveTo next = false := by
    intro next
    rw [Phase.canMoveTo, hend]
    rfl
  cases h with
  | stays h => exact (congrArg Session.phase h :)
  | moves now next reason _ hcan _ _ =>
      rw [hstuck next] at hcan
      exact absurd hcan (by decide)
  | fails now error _ hcan _ =>
      rw [hstuck .failed] at hcan
      exact absurd hcan (by decide)

theorem Coherent.run {s : Session} (hs : s.Coherent) (calls : List Call) :
    (s.run calls).Coherent := by
  induction calls generalizing s with
  | nil => exact hs
  | cons c calls ih => exact ih (hs.turn (turns_of_call s c))

theorem history_sublist (s : Session) (calls : List Call) :
    ((s.run calls).history.map (·.time)).Sublist
      (s.history.map (·.time) ++ calls.filterMap Call.clock?) := by
  induction calls generalizing s with
  | nil => exact List.sublist_append_left _ _
  | cons c calls ih =>
      rcases (turns_of_call s c).history with ⟨more, hhistory, hmore⟩
      have htimes : (c :: calls).filterMap Call.clock? =
          c.clock?.toList ++ calls.filterMap Call.clock? := by
        rw [List.filterMap_cons]
        cases c.clock? <;> rfl
      refine (ih (s.call c).2).trans ?_
      rw [hhistory, List.map_append, List.append_assoc, htimes]
      exact (List.Sublist.refl _).append (hmore.append (List.Sublist.refl _))

theorem phase_run_of_terminal {s : Session} (hend : s.phase.isTerminal = true)
    (calls : List Call) : (s.run calls).phase = s.phase := by
  induction calls generalizing s with
  | nil => rfl
  | cons c calls ih =>
      have hstep := (turns_of_call s c).phase_of_terminal hend
      rw [run_cons, ih (by rwa [hstep]), hstep]

/-- A session that calls lead to is coherent and stays in the phase it ends in,
    and points in time that do not go back do not go back in its history. -/
theorem coherent_run (id : UInt64) (t : Nat) (calls : List Call) :
    ((start id t).run calls).Coherent ∧
    (∀ before after, calls = before ++ after →
      ((start id t).run before).phase.isTerminal = true →
      ((start id t).run calls).phase = ((start id t).run before).phase) ∧
    ((calls.filterMap Call.clock?).Pairwise (· ≤ ·) →
      (((start id t).run calls).history.map (·.time)).Pairwise (· ≤ ·)) := by
  refine ⟨(coherent_start id t).run calls, ?_, fun hclock => ?_⟩
  · rintro before after rfl hend
    rw [run_append]
    exact phase_run_of_terminal hend after
  · exact hclock.sublist (history_sublist (start id t) calls)

end Session

end ChainSync
