import ChainSync.Proofs.Session.Snapshot

/-!
# Progress after the End

What a session shows once it has come to an end, at whatever time it is asked.

A session that is under way shows something else every time, since its estimate
is measured up to the present. At the end the measuring stops: the end is noted,
and all times are taken up to it. The fraction of headers does not count any more
either, because both ends rank above the header fetch. All that is left of the
present is how far the last header lies behind it and where the chain must be by
now, so that is all in which two snapshots can differ.

The first snapshot after the end may still raise the value that is kept. From then
on nothing changes the session at all: a report is refused, and a snapshot keeps
the value that is kept already.

## Main definitions

* `Progress.redated`: A snapshot with another lag and another height.

## Theorems

* `Session.estimate_of_ended`: The estimates of a session at its end.
* `Session.progress_progress`: Two snapshots after the end.
* `Session.call_of_ended`: No call changes a session any more.
* `Session.progress_freezes_at_end`: What snapshots after the end agree in.
-/

namespace ChainSync

/-- An estimate with another lag behind the present and another height. -/
def TimeEstimate.redated (e : TimeEstimate) (daysBehind : String) (height : Int32) :
    TimeEstimate := { e with daysBehind, projectedHeight := height }

/-- A snapshot with another lag behind the present and another height, if it has an
    estimate. All other fields are the same. -/
def Progress.redated (p : Progress) (daysBehind : String) (height : Int32) : Progress :=
  { p with estimate := p.estimate.map (·.redated daysBehind height) }

namespace Session

variable {s : Session}

/-- A session at its end has noted when that was, and is past the header fetch. -/
theorem Coherent.ended (hs : s.Coherent) (hend : s.phase.isTerminal = true) :
    s.finishedAt.isSome = true ∧ Phase.fetchingHeaders.rank < s.phase.rank := by
  cases hphase : s.phase with
  | synced => exact ⟨hs.finished.mpr (.inl hphase), by decide⟩
  | failed => exact ⟨hs.finished.mpr (.inr hphase), by decide⟩
  | _ => exact absurd (hphase ▸ hend) (by decide)

/-- The estimates at two moments after the end differ in what is told of the present. -/
theorem estimate_of_ended (hs : s.Coherent) (hend : s.phase.isTerminal = true)
    (label label' : String) (now now' : Nat) (nowUnix nowUnix' : Int64) :
    s.estimate label' now' nowUnix' = (s.estimate label now nowUnix).map
      (·.redated (Estimate.daysBehindText nowUnix' s.lastHeaderTime)
        (s.projectedHeight label' nowUnix')) := by
  rcases hs.ended hend with ⟨hfinished, hpast⟩
  rcases Option.isSome_iff_exists.mp hfinished with ⟨stop, hstop⟩
  have hfraction : ∀ projected, s.fraction projected = 1.0 := fun _ => if_pos hpast
  unfold estimate
  cases s.headersStartedAt with
  | none => rfl
  | some started =>
      simp only [hstop, hfraction, Option.getD_some, Option.bind_eq_bind, Option.bind_some]
      split <;> rfl

theorem raw_of_ended (hs : s.Coherent) (hend : s.phase.isTerminal = true)
    (label label' : String) (now now' : Nat) (nowUnix nowUnix' : Int64) :
    s.raw label' now' nowUnix' = s.raw label now nowUnix := by
  unfold raw
  rw [estimate_of_ended hs hend label label' now now' nowUnix nowUnix', Option.map_map]
  rfl

/-- What is told of the present goes through what the session makes of an estimate. -/
theorem shown_redated (s : Session) (total : UInt8) (estimate : Option TimeEstimate)
    (daysBehind : String) (height : Int32) :
    s.shown total (estimate.map (·.redated daysBehind height)) =
      (s.shown total estimate).redated daysBehind height := by
  have hpublish : ∀ e : TimeEstimate, s.publish total (e.redated daysBehind height) =
      (s.publish total e).redated daysBehind height := fun e => by
    unfold publish
    split <;> rfl
  cases estimate with
  | none => rfl
  | some e => simp only [shown, Progress.redated, Option.map_some, hpublish]

/-- A second snapshot after the end keeps the value that the first one has kept, and
    shows the same but for what it tells of the present. -/
theorem progress_progress (hs : s.Coherent) (hend : s.phase.isTerminal = true)
    (label label' : String) (now now' : Nat) (nowUnix nowUnix' : Int64) :
    (s.progress label now nowUnix).2.progress label' now' nowUnix' =
      ((s.progress label now nowUnix).1.redated
        (Estimate.daysBehindText nowUnix' s.lastHeaderTime) (s.projectedHeight label' nowUnix'),
      (s.progress label now nowUnix).2) := by
  rw [progress_eq s, progress_eq, raw_withBest, estimate_withBest,
    raw_of_ended hs hend label label' now now' nowUnix nowUnix',
    estimate_of_ended hs hend label label' now now' nowUnix nowUnix', shown_withBest,
    withBest_withBest]
  change (s.shown (max _ (max _ _)) _, s.withBest (max _ (max _ _))) = _
  rw [max_of_le (UInt8.le_refl _), shown_redated]

/-- A call that is no snapshot is refused after the end. -/
theorem call_refused (hend : s.phase.isTerminal = true) {c : Call} (hc : c.isPoll = false) :
    ∃ why, s.call c = (.refused why, s) := by
  cases c with
  | begin now =>
      have hbegin : s.phase ≠ .idle := fun h => absurd (h ▸ hend) (by decide)
      rcases ((refusesExactly s).begin now).refused.mpr hbegin with ⟨why, h⟩
      exact ⟨why, by simp only [call, h]⟩
  | report r now =>
      rcases (take_refused s r now).refused.mpr (.inl hend) with ⟨why, h⟩
      exact ⟨why, by simp only [call, h]⟩
  | progress label now nowUnix => exact absurd hc (by simp [Call.isPoll])

/-- After a first snapshot no call changes the session, and each is refused or another
    snapshot. -/
theorem call_of_ended (hs : s.Coherent) (hend : s.phase.isTerminal = true) (label : String)
    (now : Nat) (nowUnix : Int64) (c : Call) :
    let s₁ := (s.progress label now nowUnix).2
    (s₁.call c).2 = s₁ ∧
      ((s₁.call c).1.isShown = true ∨ ∃ why, (s₁.call c).1 = .refused why) := by
  intro s₁
  cases hc : c.isPoll with
  | false =>
      rcases call_refused (s := s₁) hend hc with ⟨why, h⟩
      rw [h]
      exact ⟨rfl, .inr ⟨why, rfl⟩⟩
  | true =>
      cases c with
      | progress label' now' nowUnix' =>
          have h := progress_progress hs hend label label' now now' nowUnix nowUnix'
          exact ⟨congrArg Prod.snd h, .inl rfl⟩
      | _ => exact absurd hc (by simp [Call.isPoll])

/-- Nor do many calls, one after the other, once no single one does. -/
theorem run_of_still {s : Session}
    (h : ∀ c, (s.call c).2 = s ∧ ((s.call c).1.isShown = true ∨ ∃ why, (s.call c).1 = .refused why))
    (calls : List Call) :
    s.run calls = s ∧ ∀ a ∈ s.answers calls, a.isShown = true ∨ ∃ why, a = .refused why := by
  induction calls with
  | nil => exact ⟨rfl, fun a ha => absurd ha (by simp [answers])⟩
  | cons c calls ih =>
      rw [run_cons, answers, (h c).1]
      exact ⟨ih.1, List.forall_mem_cons.mpr ⟨(h c).2, ih.2⟩⟩

/-- Two snapshots that are taken after the end, whatever the session is asked to do in
    between, differ in what they tell of the present and in nothing else: each such call is
    refused or a snapshot itself, and changes nothing. In sync no time is left. -/
theorem progress_freezes_at_end (hs : s.Reachable) (hend : s.phase.isTerminal = true)
    (label label' : String) (now now' : Nat) (nowUnix nowUnix' : Int64) (between : List Call) :
    let p := (s.progress label now nowUnix).1
    let s₁ := (s.progress label now nowUnix).2
    let q := ((s₁.run between).progress label' now' nowUnix').1
    (∀ a ∈ s₁.answers between, a.isShown = true ∨ ∃ why, a = .refused why) ∧
    q = p.redated (Estimate.daysBehindText nowUnix' s.lastHeaderTime)
      (s.projectedHeight label' nowUnix') ∧
    q.totalProgress = p.totalProgress ∧ q.estimate.isSome = p.estimate.isSome ∧
    q.estimate.map (·.secondsRemaining) = p.estimate.map (·.secondsRemaining) ∧
    q.estimate.map (·.timeRemaining) = p.estimate.map (·.timeRemaining) ∧
    (s.phase = .synced → ∀ e ∈ q.estimate, e.secondsRemaining = 0) := by
  intro p s₁ q
  rcases run_of_still (call_of_ended hs.coherent hend label now nowUnix) between with
    ⟨hrun, hanswers⟩
  have hq : q = p.redated (Estimate.daysBehindText nowUnix' s.lastHeaderTime)
      (s.projectedHeight label' nowUnix') := by
    have h := progress_progress hs.coherent hend label label' now now' nowUnix nowUnix'
    simp only [q, s₁, hrun]
    exact congrArg Prod.fst h
  have hshown : q.estimate =
      (s.estimate label' now' nowUnix').map (s.publish q.totalProgress) := by
    simp only [q, s₁, hrun]
    rfl
  refine ⟨hanswers, hq, ?_, ?_, ?_, ?_, fun hsynced e he => ?_⟩
  · rw [hq]
    rfl
  · rw [hq, Progress.redated, Option.isSome_map]
  · rw [hq, Progress.redated, Option.map_map]
    rfl
  · rw [hq, Progress.redated, Option.map_map]
    rfl
  · rcases Option.map_eq_some_iff.mp (hshown ▸ he) with ⟨e', _, rfl⟩
    rw [publish, if_pos hsynced]

/-- A session that is in sync after half a minute, and years later: between the two snapshots
    it is begun once more and told of peers, to no effect. -/
theorem synced_session_stands_still :
    let s := (start 1 0).run [.begin 0, .report (.beginHeaders 0) 0,
      .report (.fetchedHeaders 0 100 1700000000) 0, .report .synced 30000000000]
    let first := s.progress "mainnet" 30000000000 1700000000
    let between : List Call := [.begin 1, .progress "testnet" 0 0, .report (.peerConnected 3) 2]
    let last := ((first.2.run between).progress "mainnet" 40000000000 1800000000).1
    s.Reachable ∧ s.phase.isTerminal = true ∧
    last = first.1.redated "69444 days" 333433 ∧ last ≠ first.1 ∧ last.totalProgress = 100 ∧
    ∃ e, last.estimate = some e ∧ e.secondsRemaining = 0 := by
  intro s first between last
  have hs : s.Reachable := ⟨1, 0, _, rfl⟩
  have hend : s.phase.isTerminal = true := by decide
  rcases progress_freezes_at_end hs hend "mainnet" "mainnet" 30000000000 40000000000 1700000000
    1800000000 between with ⟨_, hlast, htotal, hsome, _, _, hzero⟩
  have hfirst : first.1.totalProgress = 100 ∧ first.1.estimate.isSome = true := by decide +kernel
  rcases Option.isSome_iff_exists.mp (hsome.trans hfirst.2) with ⟨e, he⟩
  refine ⟨hs, hend, hlast.trans (by decide +kernel), by decide +kernel,
    htotal.trans hfirst.1, e, he, hzero (by decide) e he⟩

end Session

end ChainSync
