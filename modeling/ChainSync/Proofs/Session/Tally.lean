import ChainSync.Proofs.Session.Trace
import Mathlib.Data.List.Induction
import Mathlib.Data.Set.Insert
import Mathlib.Order.Bounds.Defs

/-!
# Counting Along

What a session counts, told by its events alone.

`Tells.tally` says that a session's counters are what a listener makes of the
events, one after the other. Here that count is told without going through the
events one by one. Most counters are the last value that was heard, if any was.
Discovery is over if that was said once, since nothing is said of it afterwards.

Headers are the exception. Every number of headers is passed on, also one that
goes back, but a number that goes back is not kept, and neither is its time.
So what is kept is the greatest number, and the newest time among those that
came with a number that did not go back.

## Main definitions

* `Event.headers?`: The number of headers an event reports.
* `headerCounts`, `headerTimes`: What is kept of headers is the greatest of these.
* `Session.Counts`: What a session counts is what a trace tells.

## Theorems

* `Tally.foldl_hear`: A counter that keeps the last value.
* `Tally.isGreatest_foldl_hear`: What is kept of headers.
* `Session.Tells.counts`: A session counts what it tells.
-/

namespace ChainSync

/-- The number of headers an event reports. -/
def Event.headers? : Event → Option Int32
  | fetchedHeaders _ count _ => some count
  | _ => none

/-- Zero and the numbers of headers that a trace reports. -/
def headerCounts (trace : List Event) : Set Int32 :=
  insert 0 {n | n ∈ trace.filterMap Event.headers?}

/-- Zero and the times that came with a number of headers that did not go back:
    it is not below zero, and not below any number before it. -/
def headerTimes (trace : List Event) : Set Int64 :=
  insert 0 {time | ∃ before peerHeight count after,
    trace = before ++ .fetchedHeaders peerHeight count time :: after ∧
      ∀ n ∈ headerCounts before, n ≤ count}

theorem headerCounts_concat (trace : List Event) (e : Event) :
    headerCounts (trace ++ [e]) = {n | e.headers? = some n} ∪ headerCounts trace := by
  ext n
  cases h : e.headers? <;> simp [headerCounts, h, eq_comm, or_comm, or_left_comm]

/-- A time that comes last came with the last event. -/
theorem headerTimes_concat (trace : List Event) (e : Event) :
    headerTimes (trace ++ [e]) = {time | ∃ peerHeight count,
      e = .fetchedHeaders peerHeight count time ∧ ∀ n ∈ headerCounts trace, n ≤ count} ∪
        headerTimes trace := by
  ext time
  constructor
  · rintro (rfl | ⟨before, peerHeight, count, after, htrace, hbefore⟩)
    · exact .inr (.inl rfl)
    · rcases List.eq_nil_or_concat after with rfl | ⟨rest, last, rfl⟩
      · rcases List.append_inj' htrace rfl with ⟨rfl, he⟩
        exact .inl ⟨peerHeight, count, (List.cons.inj he).1, hbefore⟩
      · rw [List.concat_eq_append, ← List.cons_append, ← List.append_assoc] at htrace
        rcases List.append_inj' htrace rfl with ⟨rfl, _⟩
        exact .inr (.inr ⟨before, peerHeight, count, rest, rfl, hbefore⟩)
  · rintro (⟨peerHeight, count, rfl, hbefore⟩ | rfl |
      ⟨before, peerHeight, count, after, rfl, hbefore⟩)
    · exact .inr ⟨trace, peerHeight, count, [], rfl, hbefore⟩
    · exact .inl rfl
    · exact .inr ⟨before, peerHeight, count, after ++ [e], by simp, hbefore⟩

section

variable {α : Type} [LE α] {s : Set α} {a b : α}

theorem isGreatest_insert_of_le [Std.IsPreorder α] (h : IsGreatest s a) (hab : a ≤ b) :
    IsGreatest (insert b s) b := by
  refine ⟨Set.mem_insert b s, ?_⟩
  rintro x (rfl | hx)
  · exact Std.le_refl x
  · exact Std.le_trans (h.2 hx) hab

theorem isGreatest_insert_of_ge (h : IsGreatest s a) (hba : b ≤ a) :
    IsGreatest (insert b s) a := by
  refine ⟨Set.mem_insert_of_mem b h.1, ?_⟩
  rintro x (rfl | hx)
  · exact hba
  · exact h.2 hx

theorem isGreatest_insert_ite [Std.IsLinearPreorder α] [DecidableLE α] (h : IsGreatest s a)
    (b : α) : IsGreatest (insert b s) (if a ≤ b then b else a) := by
  split
  · exact isGreatest_insert_of_le h ‹_›
  · exact isGreatest_insert_of_ge h (Std.le_total.resolve_left ‹_›)

end

namespace Tally

/-- A counter that keeps the value of an event keeps the last one. -/
theorem foldl_hear {α : Type} {count : Tally → α} {value? : Event → Option α}
    (hear : ∀ t e, count (t.hear e) = (value? e).getD (count t)) (t : Tally)
    (trace : List Event) :
    count (trace.foldl Tally.hear t) = (trace.filterMap value?).getLast?.getD (count t) := by
  induction trace generalizing t with
  | nil => rfl
  | cons e trace ih =>
      rw [List.foldl_cons, ih, hear, List.filterMap_cons]
      cases value? e with
      | none => rfl
      | some a => rw [List.getLast?_cons, Option.getD_some, Option.getD_some]

/-- What is kept of headers is the greatest of what was heard. -/
theorem isGreatest_foldl_hear (trace : List Event) :
    IsGreatest (headerCounts trace) (trace.foldl hear {}).headers ∧
      IsGreatest (headerTimes trace) (trace.foldl hear {}).lastHeaderTime := by
  induction trace using List.reverseRecOn with
  | nil => simp [IsGreatest, upperBounds, headerCounts, headerTimes]
  | append_singleton trace e ih =>
      rw [List.foldl_append, List.foldl_cons, List.foldl_nil, headerCounts_concat,
        headerTimes_concat]
      rcases ih with ⟨hcount, htime⟩
      cases e with
      | fetchedHeaders peerHeight count time =>
          have hcounts : {n | (Event.fetchedHeaders peerHeight count time).headers? = some n} ∪
              headerCounts trace = insert count (headerCounts trace) := by
            ext n
            simp [Event.headers?, eq_comm]
          rw [hcounts]
          by_cases hup : (trace.foldl hear {}).headers ≤ count
          · -- The number is kept: it is not below any other, so its time counts.
            have hkept : ∀ n ∈ headerCounts trace, n ≤ count :=
              fun n hn => Int32.le_trans (hcount.2 hn) hup
            simp only [hear, if_pos hup]
            refine ⟨isGreatest_insert_of_le hcount hup, ?_⟩
            convert isGreatest_insert_ite htime time using 1
            · ext t
              simp [and_iff_left hkept, eq_comm]
            · rfl
          · have hback : ¬∀ n ∈ headerCounts trace, n ≤ count := fun hkept => hup (hkept _ hcount.1)
            simp only [hear, if_neg hup]
            refine ⟨isGreatest_insert_of_ge hcount (Int32.le_of_lt (Int32.not_le.mp hup)), ?_⟩
            simpa [hback] using htime
      | _ =>
          exact ⟨by simpa [hear, Event.headers?] using hcount, by simpa [hear] using htime⟩

end Tally

namespace Session

/-- What a session counts is what a trace tells. -/
structure Counts (s : Session) (trace : List Event) : Prop where
  peers : s.peers = (trace.filterMap Event.peers?).getLast?.getD 0
  filters : s.filters = (trace.filterMap Event.filters?).getLast?.getD 0
  rescanned : s.rescanned = (trace.filterMap Event.rescanHeight?).getLast?.getD 0
  discovered : s.discovered = true ↔ .discoveredAddresses true ∈ trace
  headers : IsGreatest (headerCounts trace) s.headers
  lastHeaderTime : IsGreatest (headerTimes trace) s.lastHeaderTime

/-- That discovery is over is said by one kind of event only. -/
theorem mem_discovered_iff {trace : List Event} {b : Bool} :
    .discoveredAddresses b ∈ trace ↔ b ∈ trace.filterMap Event.discovery? := by
  rw [List.mem_filterMap]
  constructor
  · exact fun h => ⟨_, h, rfl⟩
  · rintro ⟨e, he, hb⟩
    cases e with
    | discoveredAddresses b' => rwa [← Option.some.inj hb]
    | _ => exact absurd hb (by simp [Event.discovery?])

theorem Tells.counts {s : Session} {trace : List Event} (h : s.Tells trace) :
    s.Counts trace where
  peers := (congrArg Tally.peers h.tally).trans (Tally.foldl_hear Tally.hear_peers _ _)
  filters := (congrArg Tally.filters h.tally).trans (Tally.foldl_hear Tally.hear_filters _ _)
  rescanned :=
    (congrArg Tally.rescanned h.tally).trans (Tally.foldl_hear Tally.hear_rescanned _ _)
  discovered := by
    rcases h.discovery with ⟨n, hn⟩
    rw [mem_discovered_iff, hn]
    cases s.discovered <;> simp
  headers := by
    rw [show s.headers = s.tally.headers from rfl, h.tally]
    exact (Tally.isGreatest_foldl_hear trace).1
  lastHeaderTime := by
    rw [show s.lastHeaderTime = s.tally.lastHeaderTime from rfl, h.tally]
    exact (Tally.isGreatest_foldl_hear trace).2

end Session

end ChainSync
