import ChainSync.Proofs.Controller.Calls

/-!
# Session Traces of a Controller

What an observer hears of one session, whatever the workers do.

The window of a session starts with the call that begins it and lasts as long
as no other session begins. The controller may have any past, and the window
may hold any calls of any number of workers in any order: reports of every
kind, several ends that race, ends of drives, observers that join, queries of
the progress, and attempts to begin a session that come too early.

The trace is what an observer hears that was there before the session began.
It is the same for all such observers.

## Theorems

* `session_trace_orderly`: The trace of a session is orderly, has one end once
  the session is over, and that end is heard from the call that made it.
* `raced_session_trace_orderly`: The same for a session whose end is reported
  twice.
-/

namespace ChainSync

namespace Controller

/-- The session that is under way after a call that begins one and calls that
    begin none, and what has been heard of it. -/
theorem window_tells {c : Controller} {opening : Call} {calls : List Call}
    (hopen : c.begins opening = true) (hstay : (c.after opening).StaysOn calls) :
    ∃ s trace, (c.run (opening :: calls)).session = some s ∧ s.Tells trace ∧ s.id = c.nextId ∧
      (∀ i < c.observers.length, (c.run (opening :: calls)).heard i = c.heard i ++ trace) ∧
      c.observers.length ≤ (c.run (opening :: calls)).observers.length ∧
      trace.countP Event.isTerminal = c.endings (opening :: calls) := by
  rcases after_begins hopen with ⟨s₀, event, s₁, htells, hid, hc, hend⟩
  rcases run_tells hc.session (htells.advance hc.advances) hstay with
    ⟨s, more, hs, ht, hid', hheard, hlen, hcount⟩
  refine ⟨s, event.toList ++ more, hs, by simpa using ht,
    hid'.trans (hc.advances.id.trans hid), ?_, Nat.le_trans hc.length hlen, ?_⟩
  · intro i hi
    rw [run_cons, hheard i (Nat.lt_of_lt_of_le hi hc.length), hc.heard i hi, List.append_assoc]
  · rw [List.countP_append, hcount, endings, countP_toList, hend]

/-- Whether a call begins the session of a window or comes later, the session
    continues with it. -/
theorem window_continues {c : Controller} {opening call : Call}
    {calls before after : List Call} (hopen : c.begins opening = true)
    (hstay : (c.after opening).StaysOn calls)
    (hsplit : opening :: calls = before ++ call :: after) :
    c.observers.length ≤ (c.run before).observers.length ∧
      ∃ s event s', (c.run before).Continues s event s' (c.run (before ++ [call])) ∧
        event.any Event.isTerminal = (c.run before).ends call := by
  cases before with
  | nil =>
      rcases List.cons.inj hsplit with ⟨rfl, _⟩
      rcases after_begins hopen with ⟨s₀, event, s₁, _, _, hc, hend⟩
      exact ⟨Nat.le_refl _, s₀, event, s₁, hc, hend⟩
  | cons first rest =>
      rw [List.cons_append] at hsplit
      rcases List.cons.inj hsplit with ⟨rfl, hcalls⟩
      rw [hcalls, staysOn_append] at hstay
      rcases window_tells hopen hstay.1 with ⟨s, _, hs, _, _, _, hgrow, _⟩
      rcases after_continues hs hstay.2.1 with ⟨event, s', hc, hend⟩
      rw [run_append]
      exact ⟨hgrow, s, event, s', hc, hend⟩

/-- Within the window of a session a call succeeds in ending it exactly if
    every observer hears of an end from that call, and then the session is over. -/
theorem ends_iff_heard {c : Controller} {opening call : Call} {calls before after : List Call}
    (hopen : c.begins opening = true) (hstay : (c.after opening).StaysOn calls)
    (hsplit : opening :: calls = before ++ call :: after) {i : Nat}
    (hi : i < c.observers.length) :
    ((c.run before).ends call = true ↔ ∃ e, e.isTerminal = true ∧
      (c.run (before ++ [call])).heard i = (c.run before).heard i ++ [e]) ∧
    ((c.run before).ends call = true → (c.run (before ++ [call])).isSyncing = false) := by
  rcases window_continues hopen hstay hsplit with ⟨hgrow, s, event, s', hc, hend⟩
  rw [hc.heard i (Nat.lt_of_lt_of_le hi hgrow), ← hend]
  refine ⟨⟨fun h => ?_, ?_⟩, fun h => ?_⟩
  · rcases (Option.any_eq_true _ _).mp h with ⟨e, rfl, he⟩
    exact ⟨e, he, rfl⟩
  · rintro ⟨e, he, hheard⟩
    have hevent : event.toList = [e] := List.append_cancel_left hheard
    rw [Option.toList_eq_singleton_iff.mp hevent]
    exact he
  · have hover : s'.isActive = false := by rw [hc.advances.ending, h, Bool.not_true, Bool.and_false]
    rw [isSyncing, hc.session]
    exact hover

/-- The trace of one session, as every observer hears it that was there before
    the session began: it is orderly, it holds one end exactly if the session
    is over, and of all calls that could end the session exactly the one that
    the end is heard from succeeds in it and leaves the session over. -/
theorem session_trace_orderly (c : Controller) (opening : Call) (calls : List Call)
    (hopen : c.begins opening = true) (hstay : (c.after opening).StaysOn calls) (i : Nat)
    (hi : i < c.observers.length) :
    ∃ trace, (c.run (opening :: calls)).heard i = c.heard i ++ trace ∧ Orderly trace ∧
      trace.countP Event.isTerminal =
        (if (c.run (opening :: calls)).isSyncing then 0 else 1) ∧
      c.endings (opening :: calls) = trace.countP Event.isTerminal ∧
      ∀ before call after, opening :: calls = before ++ call :: after →
        ((c.run before).ends call = true ↔ ∃ e, e.isTerminal = true ∧
          (c.run (before ++ [call])).heard i = (c.run before).heard i ++ [e]) ∧
        ((c.run before).ends call = true → (c.run (before ++ [call])).isSyncing = false) := by
  rcases window_tells hopen hstay with ⟨s, trace, hs, ht, _, hheard, _, hcount⟩
  refine ⟨trace, hheard i hi, ht.orderly, ?_, hcount.symm, fun before call after hsplit =>
    ends_iff_heard hopen hstay hsplit hi⟩
  rw [ht.countP_isTerminal, isSyncing, hs]
  rfl

/-- Calls on a session: counts that go back, a phase that goes back, a second
    begin, and three calls that would end the session. -/
def racedCalls : List Call :=
  [.report (.peerConnected (-2)) 1, .report (.fetchMissingFilters 3) 2,
    .report (.fetchMissingFilters 1) 3, .report (.beginHeaders 5) 4,
    .report (.fetchMissingFilters 9) 5, .report (.discoveredAddresses true) 6, .begin 7,
    .report (.discoveredAddresses false) 8, .report .synced 9,
    .report (.failed (.network "peer reset")) 10, .conclude (some .deadlineExceeded) 11]

theorem raced_session_trace_orderly :
    let c : Controller := { network := .testnet, observers := [.silent] }
    (c.begins (.begin 0) = true ∧ (c.after (.begin 0)).StaysOn racedCalls ∧
      0 < c.observers.length) ∧
    ∃ trace, (c.run (.begin 0 :: racedCalls)).heard 0 = c.heard 0 ++ trace ∧ Orderly trace ∧
      trace.countP Event.isTerminal =
        (if (c.run (.begin 0 :: racedCalls)).isSyncing then 0 else 1) ∧
      c.endings (.begin 0 :: racedCalls) = trace.countP Event.isTerminal ∧
      ∀ before call after, .begin 0 :: racedCalls = before ++ call :: after →
        ((c.run before).ends call = true ↔ ∃ e, e.isTerminal = true ∧
          (c.run (before ++ [call])).heard 0 = (c.run before).heard 0 ++ [e]) ∧
        ((c.run before).ends call = true → (c.run (before ++ [call])).isSyncing = false) := by
  intro c
  have hopen : c.begins (.begin 0) = true := rfl
  have hstay : (c.after (.begin 0)).StaysOn racedCalls :=
    ⟨rfl, rfl, rfl, rfl, rfl, rfl, rfl, rfl, rfl, rfl, rfl, trivial⟩
  have hi : 0 < c.observers.length := by decide
  exact ⟨⟨hopen, hstay, hi⟩, session_trace_orderly c (.begin 0) racedCalls hopen hstay 0 hi⟩

end Controller

end ChainSync
