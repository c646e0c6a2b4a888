import ChainSync.Proofs.Controller.Isolation
import ChainSync.Proofs.Controller.Trace
import ChainSync.Proofs.Session.Tally

/-!
# What Observers Were Told

The counters of a session are what its observers were told.

What is told in a run does not depend on who listens: two controllers that
differ in their observers only go through the same sessions, and whoever was
there from the beginning hears the same. So `told` may be defined by someone
who does nothing but listen, and it is what every observer hears.

A session's counters hold what was told since the call that began it, in the
words of `Session.Counts`, and so does every snapshot. Reports that were dropped
or refused are not told and not counted, numbers of headers that go back are
told and not kept, and the sessions that were there before leave nothing behind.

## Main definitions

* `Controller.told`: What is told in a run.
* `Controller.Matches`: Controllers that differ in their observers only.

## Theorems

* `Controller.Matches.after`, `Controller.Matches.run`: A call, and a run, on
  controllers that match.
* `Controller.hears_told`: Every observer hears what is told.
* `Controller.counters_are_what_was_told`: The counters of a session.
-/

namespace ChainSync

namespace Controller

/-- The events that are told in a run, as someone hears them who listens from
    its beginning. -/
def told (c : Controller) (calls : List Call) : List Event :=
  ((c.observedBy [.silent]).run calls).heard 0

/-- Two controllers that differ in nothing but their observers. -/
def Matches (c c' : Controller) : Prop := c' = c.observedBy c'.observers

variable {c c' : Controller}

theorem begins_observedBy (c : Controller) (os : List Observer) (call : Call) :
    (c.observedBy os).begins call = c.begins call := by
  cases call with
  | begin now =>
      rw [begins, begins, begin_observedBy]
      cases c.begin now <;> rfl
  | start config k parent now =>
      rw [begins, begins, begin_observedBy]
      cases c.begin now <;> rfl
  | _ => rfl

namespace Matches

theorem session (h : c.Matches c') : c'.session = c.session := by
  rw [h]
  rfl

theorem begins (h : c.Matches c') (call : Call) : c'.begins call = c.begins call := by
  rw [h, begins_observedBy]

/-- The same call on both. -/
theorem after (h : c.Matches c') (call : Call) :
    (c.after call).Matches (c'.after call) ∧
      ∃ trace, c.Hears trace (c.after call) ∧ c'.Hears trace (c'.after call) := by
  by_cases hcall : ∃ o, call = .addObserver o
  · -- Whoever joins does so on both sides, and hears nothing yet.
    rcases hcall with ⟨o, rfl⟩
    refine ⟨?_, [], .addObserver c o, .addObserver c' o⟩
    rw [h]
    rfl
  · rcases c.whoever_observes (fun o ho => hcall ⟨o, ho⟩) with ⟨_, event, c₁, hdoes⟩
    have hafter : c.after call = c₁.observedBy (c.observers.map (·.tell? event)) :=
      (hdoes c.observers).2
    have hafter' := (hdoes c'.observers).2
    rw [← h] at hafter'
    rw [hafter, hafter']
    exact ⟨rfl, event.toList, .observedBy c c₁ event, .observedBy c' c₁ event⟩

theorem run (h : c.Matches c') (calls : List Call) :
    (c.run calls).Matches (c'.run calls) ∧
      ∃ trace, c.Hears trace (c.run calls) ∧ c'.Hears trace (c'.run calls) := by
  induction calls generalizing c c' with
  | nil => exact ⟨h, [], .refl c, .refl c'⟩
  | cons call calls ih =>
      rcases h.after call with ⟨hafter, first, hfirst, hfirst'⟩
      rcases ih hafter with ⟨hrun, rest, hrest, hrest'⟩
      exact ⟨hrun, first ++ rest, hfirst.trans hrest, hfirst'.trans hrest'⟩

theorem staysOn (h : c.Matches c') {calls : List Call} (hstay : c.StaysOn calls) :
    c'.StaysOn calls := by
  induction calls generalizing c c' with
  | nil => trivial
  | cons call calls ih => exact ⟨(h.begins call).trans hstay.1, ih (h.after call).1 hstay.2⟩

end Matches

/-- One who listens matches whoever else observes. -/
theorem matches_listener (c : Controller) : c.Matches (c.observedBy [.silent]) := rfl

/-- Every observer that was there from the beginning hears what is told. -/
theorem hears_told (c : Controller) (calls : List Call) :
    c.Hears (c.told calls) (c.run calls) := by
  rcases c.matches_listener.run calls with ⟨_, trace, hheard, hheard'⟩
  have htold : c.told calls = trace := by
    rw [told, hheard'.heard 0 Nat.zero_lt_one]
    rfl
  rwa [htold]

/-- The session that is under way after a call that begins one and calls that
    begin none, and what has been told since. -/
theorem tells_told {opening : Call} {calls : List Call} (hopen : c.begins opening = true)
    (hstay : (c.after opening).StaysOn calls) :
    ∃ s, (c.run (opening :: calls)).session = some s ∧ s.id = c.nextId ∧
      s.Tells (c.told (opening :: calls)) := by
  -- The session is the one that the listener hears of.
  have hmatch := c.matches_listener
  rcases window_tells ((hmatch.begins opening).trans hopen)
    ((hmatch.after opening).1.staysOn hstay) with ⟨s, trace, hs, htells, hid, hheard, _⟩
  refine ⟨s, (hmatch.run _).1.session.symm.trans hs, hid, ?_⟩
  rw [told, hheard 0 Nat.zero_lt_one]
  exact htells

/-- What observers were told is what the session counts. From the call that
    begins a session on, and as long as no other one begins, its counters are a
    fold of the events that were told, which are the same for every observer: the
    last number of peers, of filters and the last height, the greatest number of
    headers, the newest time among those that came with a number that did not go
    back, and discovery is over if that was told. Every snapshot shows these
    counters. Nothing is left of a session before. -/
theorem counters_are_what_was_told (c : Controller) (opening : Call) (calls : List Call)
    (hopen : c.begins opening = true) (hstay : (c.after opening).StaysOn calls) :
    ∃ s, (c.run (opening :: calls)).session = some s ∧ s.id = c.nextId ∧
      (∀ i < c.observers.length, (c.run (opening :: calls)).heard i =
        c.heard i ++ c.told (opening :: calls)) ∧
      s.tally = (c.told (opening :: calls)).foldl Tally.hear {} ∧
      s.Counts (c.told (opening :: calls)) ∧
      ∀ now nowUnix, ∃ p, ((c.run (opening :: calls)).progress now nowUnix).1 = some p ∧
        p.sessionId = s.id ∧ p.peers = s.peers ∧ p.filters = s.filters ∧
        p.headers = s.headers ∧ p.discovered = s.discovered ∧ p.rescanned = s.rescanned := by
  rcases tells_told hopen hstay with ⟨s, hs, hid, htells⟩
  refine ⟨s, hs, hid, (c.hears_told _).heard, htells.tally, htells.counts, fun now nowUnix => ?_⟩
  simp only [progress, hs]
  exact ⟨_, rfl, rfl, rfl, rfl, rfl, rfl, rfl⟩

/-- A session that has counted filters and is over. -/
def endedCalls : List Call :=
  [.begin 0, .report (.fetchMissingFilters 7) 1, .report (.peerConnected 3) 2,
    .report .synced 3]

/-- Calls on the session after it: numbers that go back, a report that comes too
    late, and one that is made twice. -/
def restartedCalls : List Call :=
  [.report (.peerConnected 2) 5, .report (.fetchMissingFilters 4) 6,
    .report (.fetchMissingFilters 2) 7, .report (.fetchedHeaders 9 5 100) 8,
    .report (.fetchedHeaders 9 3 200) 9, .report (.fetchMissingFilters 9) 10,
    .report (.discoveredAddresses true) 11, .report (.discoveredAddresses false) 12]

theorem restarted_session_counts_anew :
    let before : Controller := { network := .testnet, observers := [.silent] }
    let c := before.run endedCalls
    c.heard 0 = [.fetchMissingFilters 7, .peerConnected 3, .synced true] ∧
    c.told (.begin 4 :: restartedCalls) = [.peerConnected 2, .fetchMissingFilters 4,
      .fetchedHeaders 9 5 100, .fetchedHeaders 9 3 200, .discoveredAddresses true] ∧
    (c.begins (.begin 4) = true ∧ (c.after (.begin 4)).StaysOn restartedCalls) ∧
    ∃ s, (c.run (.begin 4 :: restartedCalls)).session = some s ∧ s.id = c.nextId ∧
      (∀ i < c.observers.length, (c.run (.begin 4 :: restartedCalls)).heard i =
        c.heard i ++ c.told (.begin 4 :: restartedCalls)) ∧
      s.tally = ⟨2, 4, 5, 100, true, 0⟩ ∧ s.Counts (c.told (.begin 4 :: restartedCalls)) := by
  intro before c
  have hopen : c.begins (.begin 4) = true := by decide +kernel
  have hstay : (c.after (.begin 4)).StaysOn restartedCalls :=
    ⟨rfl, rfl, rfl, rfl, rfl, rfl, rfl, rfl, trivial⟩
  have htold : c.told (.begin 4 :: restartedCalls) = [.peerConnected 2, .fetchMissingFilters 4,
      .fetchedHeaders 9 5 100, .fetchedHeaders 9 3 200, .discoveredAddresses true] := by
    decide +kernel
  rcases counters_are_what_was_told c (.begin 4) restartedCalls hopen hstay with
    ⟨s, hs, hid, hheard, htally, hcounts, _⟩
  refine ⟨by decide +kernel, htold, ⟨hopen, hstay⟩, s, hs, hid, hheard, ?_, hcounts⟩
  rw [htally, htold]
  decide +kernel

end Controller

end ChainSync
