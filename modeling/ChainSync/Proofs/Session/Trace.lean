import ChainSync.Proofs.Session.Advance

/-!
# Session Traces

What the events of one session look like to whoever hears all of them.

`Orderly` is the contract with an observer and speaks of the events alone. It
cannot be shown event by event: that a number of filters does not go back is
known to the session, not to the event. `Tells` is the invariant that carries
the induction. It bounds every value heard so far by what the session stores
now, so that the next event, which the session checks against its store, is
also in order with all events before it.

The bound is kept as the last value of the same climbing list (`Climbs`). A
new event then appends to the list, and a report that is dropped, like the
begin of the header fetch, only lifts the bound.

## Main definitions

* `Climbs`: Values that never go back and end below a bound.
* `Orderly`: The contract with an observer.
* `Session.Tells`: A session and all that was heard of it.

## Theorems

* `Climbs.lift`, `Climbs.extend`: A higher bound, and a value at the bound.
* `Session.tells_start`: A new session has told nothing.
* `Session.Tells.advance`: What a session tells stays in step with it.
* `Session.tells_begin`: A session that begins has told nothing either.
* `Session.Tells.orderly`: What a session tells is orderly.
* `Session.Tells.countP_isTerminal`: One event ends the run, once it is over.
-/

namespace ChainSync

/-- Values that never go back and end below a bound. -/
def Climbs {α : Type} [LE α] (l : List α) (bound : α) : Prop :=
  (l ++ [bound]).Pairwise (· ≤ ·)

namespace Climbs

variable {α : Type} [LE α] {l : List α} {a b : α}

theorem iff : Climbs l a ↔ l.Pairwise (· ≤ ·) ∧ ∀ x ∈ l, x ≤ a := by
  unfold Climbs
  rw [List.pairwise_append]
  simp only [List.pairwise_singleton, List.mem_singleton, forall_eq, true_and]

theorem lift [Std.IsPreorder α] (h : Climbs l a) (hab : a ≤ b) : Climbs l b := by
  rw [iff] at h ⊢
  exact ⟨h.1, fun x hx => Std.le_trans (h.2 x hx) hab⟩

theorem extend [Std.IsPreorder α] (h : Climbs l a) {o : Option α} (ho : ∀ x ∈ o, a ≤ x) :
    Climbs (l ++ o.toList) (o.getD a) := by
  cases o with
  | none => simpa only [Option.toList_none, List.append_nil, Option.getD_none] using h
  | some x =>
      have hx : Climbs l x := h.lift (ho x rfl)
      rw [iff]
      refine ⟨hx, fun y hy => ?_⟩
      rcases List.mem_append.mp hy with hy | hy
      · exact (iff.mp hx).2 y hy
      · rw [Option.toList_some, List.mem_singleton] at hy
        rw [hy]
        exact Std.le_refl x

end Climbs

/-- What one session tells an observer that hears all of it. -/
structure Orderly (trace : List Event) : Prop where
  /-- Phases never go back. -/
  phases : ((trace.filterMap Event.phase?).map Phase.rank).Pairwise (· ≤ ·)
  /-- Numbers of filters start at zero or above and never go back. -/
  filters : (0 :: trace.filterMap Event.filters?).Pairwise (· ≤ ·)
  /-- Rescanned heights start at zero or above and never go back. -/
  rescans : (0 :: trace.filterMap Event.rescanHeight?).Pairwise (· ≤ ·)
  /-- Discovery goes on for some time and is over at most once. -/
  discovery : ∃ n, trace.filterMap Event.discovery? = List.replicate n false ∨
    trace.filterMap Event.discovery? = List.replicate n false ++ [true]
  /-- There are never fewer peers than none. -/
  peers : ∀ n ∈ trace.filterMap Event.peers?, 0 ≤ n
  /-- Nothing follows an event that ends the run. -/
  ending : ∀ before e after, trace = before ++ e :: after → e.isTerminal = true → after = []

/-- The parts of a trace that say something of one kind, after one more event. -/
theorem filterMap_append_toList {α β : Type} (f : α → Option β) (l : List α) (o : Option α) :
    (l ++ o.toList).filterMap f = l.filterMap f ++ (o.bind f).toList := by
  rw [List.filterMap_append]
  cases o with
  | none => rfl
  | some a => cases h : f a <;> simp [h]

theorem countP_toList {α : Type} (p : α → Bool) (o : Option α) :
    o.toList.countP p = (o.any p).toNat := by
  cases o with
  | none => rfl
  | some a => cases h : p a <;> simp [h]

namespace Session

/-- A session and all that was heard of it are in step. -/
structure Tells (s : Session) (trace : List Event) : Prop where
  phases : Climbs ((trace.filterMap Event.phase?).map Phase.rank) s.phase.rank
  filters : Climbs (0 :: trace.filterMap Event.filters?) s.filters
  rescans : Climbs (0 :: trace.filterMap Event.rescanHeight?) s.rescanned
  discovery : ∃ n, trace.filterMap Event.discovery? =
    List.replicate n false ++ if s.discovered then [true] else []
  peers : ∀ n ∈ trace.filterMap Event.peers?, 0 ≤ n
  /-- The events that came before the end, and the end if there was one. -/
  ending : ∃ before last, trace = before ++ Option.toList last ∧
    (∀ e ∈ before, e.isTerminal = false) ∧ (∀ e ∈ last, e.isTerminal = true) ∧
    last.isSome = !s.isActive
  /-- An error is kept exactly by a session that has failed. -/
  fault : s.terminal.isSome = true ↔ s.phase = .failed
  /-- What is counted is what was heard, and nothing else. -/
  tally : s.tally = trace.foldl Tally.hear {}

theorem tells_start (id : UInt64) (t : Nat) : (start id t).Tells [] where
  phases := Climbs.iff.mpr ⟨List.Pairwise.nil, by simp⟩
  filters := Climbs.iff.mpr ⟨List.pairwise_singleton _ _, by simp [start]⟩
  rescans := Climbs.iff.mpr ⟨List.pairwise_singleton _ _, by simp [start]⟩
  discovery := ⟨0, rfl⟩
  peers := by simp
  ending := ⟨[], none, rfl, by simp, by simp, rfl⟩
  fault := by simp [start]
  tally := rfl

/-- An error is kept exactly by a session that has failed, also later on. -/
theorem Advances.fault {s s' : Session} {event : Option Event} (h : s.Advances event s')
    (hfault : s.terminal.isSome = true ↔ s.phase = .failed) :
    s'.terminal.isSome = true ↔ s'.phase = .failed := by
  have hactive : ∀ u : Session, u.isActive = true → u.phase ≠ .failed := by
    intro u hu hc
    rw [isActive, hc] at hu
    exact absurd hu (by decide)
  cases event with
  | none =>
      have hterminal : s'.terminal = s.terminal := by simpa using h.terminal
      rw [hterminal, hfault]
      by_cases hs : s.isActive = true
      · -- Nothing is told, so the session is still under way.
        have hs' : s'.isActive = true := by
          rw [h.ending, hs]
          rfl
        exact iff_of_false (hactive s hs) (hactive s' hs')
      · rw [h.settled (by simpa using hs)]
  | some e =>
      have hs : s.isActive = true := h.active e rfl
      have hnone : s.terminal = none := by
        have hn := mt hfault.mp (hactive s hs)
        simpa using hn
      have hterminal : s'.terminal = e.fault? := by simpa [hnone] using h.terminal
      rw [hterminal]
      cases hend : e.isTerminal with
      | false =>
          have hs' : s'.isActive = true := by
            rw [h.ending, hs, Option.any_some, hend]
            rfl
          refine iff_of_false ?_ (hactive s' hs')
          cases e <;> simp_all [Event.fault?, Event.isTerminal]
      | true =>
          -- Each of the two ends says which phase it leads to.
          cases e with
          | synced b =>
              rw [h.phase_eq _ rfl .synced rfl]
              simp [Event.fault?]
          | syncError code error =>
              rw [h.phase_eq _ rfl .failed rfl]
              simp [Event.fault?]
          | _ => exact absurd hend (by simp [Event.isTerminal])

/-- What a taken report leaves of a count is the value that its event tells,
    or else the old one. -/
theorem Advances.count {α : Type} {s s' : Session} {event : Option Event}
    (h : s.Advances event s') (count : Tally → α) (value? : Event → Option α)
    (hear : ∀ t e, count (t.hear e) = (value? e).getD (count t)) :
    count s'.tally = (event.bind value?).getD (count s.tally) := by
  rw [h.tally]
  cases event with
  | none => rfl
  | some e => exact hear s.tally e

/-- Values that climb go on to climb with an event whose value is checked
    against the bound. -/
theorem climbs_tell {α : Type} [LE α] [Std.IsPreorder α] {value? : Event → Option α}
    {trace : List Event} {event : Option Event} {first bound : α}
    (h : Climbs (first :: trace.filterMap value?) bound)
    (hchecked : ∀ e ∈ event, ∀ x ∈ value? e, bound ≤ x) :
    Climbs (first :: (trace ++ event.toList).filterMap value?)
      ((event.bind value?).getD bound) := by
  rw [filterMap_append_toList, ← List.cons_append]
  refine h.extend fun x hx => ?_
  rcases Option.bind_eq_some_iff.mp hx with ⟨e, he, hx⟩
  exact hchecked e he x hx

/-- A phase that is told of is the one the session is in by then. -/
theorem Tells.phases_advance {s s' : Session} {trace : List Event} {event : Option Event}
    (ht : s.Tells trace) (h : s.Advances event s') :
    Climbs (((trace ++ event.toList).filterMap Event.phase?).map Phase.rank) s'.phase.rank := by
  have hlist : (event.bind Event.phase?).toList.map Phase.rank
      = ((event.bind Event.phase?).map Phase.rank).toList := by
    cases event.bind Event.phase? <;> rfl
  rw [filterMap_append_toList, List.map_append, hlist]
  have hbound : ∀ n ∈ (event.bind Event.phase?).map Phase.rank, n = s'.phase.rank := by
    intro n hn
    rcases Option.map_eq_some_iff.mp hn with ⟨p, hp, rfl⟩
    rcases Option.bind_eq_some_iff.mp hp with ⟨e, he, hp⟩
    rw [h.phase_eq e he p hp]
  -- The phase may move without an event, so the bound is lifted once more.
  refine Climbs.lift (ht.phases.extend fun n hn => ?_) ?_
  · rw [hbound n hn]
    exact h.phase_le
  · cases hn : (event.bind Event.phase?).map Phase.rank with
    | none => exact h.phase_le
    | some n => exact Nat.le_of_eq (hbound n hn)

/-- Discovery is told of only while it is not over. -/
theorem Tells.discovery_advance {s s' : Session} {trace : List Event} {event : Option Event}
    (ht : s.Tells trace) (h : s.Advances event s') :
    ∃ n, (trace ++ event.toList).filterMap Event.discovery? =
      List.replicate n false ++ if s'.discovered then [true] else [] := by
  rcases ht.discovery with ⟨n, hn⟩
  have hs' : s'.discovered = (event.bind Event.discovery?).getD s.discovered :=
    h.count Tally.discovered Event.discovery? Tally.hear_discovered
  rw [filterMap_append_toList, hn, hs']
  cases hd : event.bind Event.discovery? with
  | none => exact ⟨n, by simp⟩
  | some b =>
      rcases Option.bind_eq_some_iff.mp hd with ⟨e, he, hb⟩
      rw [h.discovery e he b hb]
      cases b with
      | false => exact ⟨n + 1, by simp [List.replicate_succ']⟩
      | true => exact ⟨n, by simp⟩

theorem Tells.peers_advance {s s' : Session} {trace : List Event} {event : Option Event}
    (ht : s.Tells trace) (h : s.Advances event s') :
    ∀ n ∈ (trace ++ event.toList).filterMap Event.peers?, 0 ≤ n := by
  intro n hn
  rw [filterMap_append_toList, List.mem_append, Option.mem_toList] at hn
  rcases hn with hn | hn
  · exact ht.peers n hn
  · rcases Option.bind_eq_some_iff.mp hn with ⟨e, he, hn⟩
    exact h.peers e he n hn

/-- An event ends the run or belongs to what comes before the end. -/
theorem Tells.ending_advance {s s' : Session} {trace : List Event} {event : Option Event}
    (ht : s.Tells trace) (h : s.Advances event s') :
    ∃ before last, trace ++ event.toList = before ++ Option.toList last ∧
      (∀ e ∈ before, e.isTerminal = false) ∧ (∀ e ∈ last, e.isTerminal = true) ∧
      last.isSome = !s'.isActive := by
  rcases ht.ending with ⟨before, last, htrace, hbefore, hlast, hsome⟩
  cases event with
  | none =>
      have hs' : s'.isActive = s.isActive := by simpa using h.ending
      exact ⟨before, last, by simpa using htrace, hbefore, hlast, by rw [hsome, hs']⟩
  | some e =>
      -- An event of a session under way: so there has been no end before.
      have hs : s.isActive = true := h.active e rfl
      have hnone : last = none := by simpa [hs] using hsome
      have hs' : s'.isActive = !e.isTerminal := by simpa [hs] using h.ending
      rw [hnone, Option.toList_none, List.append_nil] at htrace
      cases hend : e.isTerminal with
      | false =>
          refine ⟨trace ++ [e], none, by simp, ?_, by simp, by simp [hs', hend]⟩
          intro x hx
          rcases List.mem_append.mp hx with hx | hx
          · exact hbefore x (by rwa [← htrace])
          · rw [List.mem_singleton.mp hx, hend]
      | true => exact ⟨trace, some e, rfl, by rwa [htrace], by simp [hend], by simp [hs', hend]⟩

/-- What a session tells stays in step with it. -/
theorem Tells.advance {s s' : Session} {trace : List Event} {event : Option Event}
    (ht : s.Tells trace) (h : s.Advances event s') : s'.Tells (trace ++ event.toList) := by
  have hfilters : s'.filters = (event.bind Event.filters?).getD s.filters :=
    h.count Tally.filters Event.filters? Tally.hear_filters
  have hrescans : s'.rescanned = (event.bind Event.rescanHeight?).getD s.rescanned :=
    h.count Tally.rescanned Event.rescanHeight? Tally.hear_rescanned
  refine ⟨ht.phases_advance h, ?_, ?_, ht.discovery_advance h, ht.peers_advance h,
    ht.ending_advance h, h.fault ht.fault, ?_⟩
  · rw [hfilters]
    exact climbs_tell ht.filters h.filters
  · rw [hrescans]
    exact climbs_tell ht.rescans h.rescanned
  · rw [h.tally, List.foldl_append, ← ht.tally]
    cases event <;> rfl

theorem tells_begin {s : Session} {id : UInt64} {t now : Nat}
    (h : (Session.start id t).begin now = .ok s) : s.Tells [] ∧ s.isActive = true := by
  have hadvances := advances_of_begin h
  exact ⟨(tells_start id t).advance hadvances, hadvances.ending⟩

theorem Tells.orderly {s : Session} {trace : List Event} (h : s.Tells trace) :
    Orderly trace := by
  refine ⟨(Climbs.iff.mp h.phases).1, (Climbs.iff.mp h.filters).1, (Climbs.iff.mp h.rescans).1,
    ?_, h.peers, ?_⟩
  · rcases h.discovery with ⟨n, hn⟩
    cases hs : s.discovered with
    | false => exact ⟨n, Or.inl (by simpa [hs] using hn)⟩
    | true => exact ⟨n, Or.inr (by simpa [hs] using hn)⟩
  · intro before e after htrace he
    rcases h.ending with ⟨ordinary, last, hsplit, hordinary, hlast, hsome⟩
    cases after with
    | nil => rfl
    | cons x rest =>
        -- Something follows `e`, so `e` came before the end.
        have hmem : e ∈ ordinary := by
          cases last with
          | none =>
              rw [show ordinary = trace by simpa using hsplit.symm, htrace]
              simp
          | some l =>
              have hdrop := congrArg List.dropLast (htrace.symm.trans hsplit)
              rw [Option.toList_some, List.dropLast_concat, List.dropLast_append_cons,
                List.dropLast_cons_cons] at hdrop
              rw [← hdrop]
              simp
        rw [hordinary e hmem] at he
        exact absurd he (by decide)

theorem Tells.countP_isTerminal {s : Session} {trace : List Event} (h : s.Tells trace) :
    trace.countP Event.isTerminal = if s.isActive then 0 else 1 := by
  rcases h.ending with ⟨before, last, rfl, hbefore, hlast, hsome⟩
  have hzero : before.countP Event.isTerminal = 0 := by
    rw [List.countP_eq_zero]
    intro e he
    rw [hbefore e he]
    decide
  rw [List.countP_append, hzero, Nat.zero_add]
  cases last with
  | none => simp_all
  | some e => simp_all

end Session

end ChainSync
