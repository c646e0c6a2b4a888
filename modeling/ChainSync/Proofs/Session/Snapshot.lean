import ChainSync.Proofs.Session.Dropped
import ChainSync.Proofs.Session.Polling

/-!
# Parts of a Snapshot

A snapshot in three steps, so that each can be looked at on its own.

The estimate gives a percentage, unless the session is in sync (`raw`). The greater of
it and the value kept is shown and kept. Whatever else is shown does not depend on the
value kept (`shown`), which is why a second snapshot can be compared with the first.

## Main definitions

* `Session.raw`: The percentage before it is compared with the value kept.
* `Session.shown`: What is shown of a percentage and an estimate.

## Theorems

* `Session.progress_eq`: A snapshot in these steps.
* `Session.max_of_le`: A smaller percentage does not matter.
-/

namespace ChainSync

namespace Session

/-- The percentage at a point in time, before it is compared with the value kept. -/
def raw (s : Session) (label : String) (now : Nat) (nowUnix : Int64) : UInt8 :=
  if s.phase = .synced then 100
  else ((s.estimate label now nowUnix).map (·.totalProgress)).getD 0

/-- What a session shows of a percentage and an estimate. -/
def shown (s : Session) (total : UInt8) (estimate : Option TimeEstimate) : Progress where
  sessionId := s.id
  phase := s.phase
  peers := s.peers
  filters := s.filters
  headers := s.headers
  headerHeight := s.headerHeight
  discovered := s.discovered
  rescanned := s.rescanned
  totalProgress := total
  estimate := estimate.map (s.publish total)

variable {s : Session}

/-- A snapshot shows the greater of the two percentages, and the session keeps it. -/
theorem progress_eq (s : Session) (label : String) (now : Nat) (nowUnix : Int64) :
    s.progress label now nowUnix =
      (s.shown (max (s.raw label now nowUnix) s.bestProgress) (s.estimate label now nowUnix),
        s.withBest (max (s.raw label now nowUnix) s.bestProgress)) := rfl

@[simp] theorem estimate_withBest (s : Session) (best : UInt8) (label : String) (now : Nat)
    (nowUnix : Int64) :
    (s.withBest best).estimate label now nowUnix = s.estimate label now nowUnix := rfl

@[simp] theorem raw_withBest (s : Session) (best : UInt8) (label : String) (now : Nat)
    (nowUnix : Int64) : (s.withBest best).raw label now nowUnix = s.raw label now nowUnix := rfl

@[simp] theorem shown_withBest (s : Session) (best total : UInt8)
    (estimate : Option TimeEstimate) : (s.withBest best).shown total estimate =
      s.shown total estimate := rfl

@[simp] theorem withBest_withBest (s : Session) (best best' : UInt8) :
    (s.withBest best).withBest best' = s.withBest best' := rfl

/-- A percentage that is no greater than another one does not matter beside it. -/
theorem max_of_le {a b : UInt8} (h : a ≤ b) (c : UInt8) : max b (max a c) = max b c := by
  have hmax : ∀ a b : UInt8, max a b = if a ≤ b then b else a := fun _ _ => rfl
  simp only [hmax]
  grind

theorem Reachable.coherent (hs : s.Reachable) : s.Coherent := by
  rcases hs with ⟨id, t, calls, rfl⟩
  exact (coherent_start id t).run calls

end Session

end ChainSync
