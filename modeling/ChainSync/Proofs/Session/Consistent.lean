import ChainSync.Proofs.Session.Checked

/-!
# Consistent Snapshots

The parts of a snapshot fit each other and what the session has been told.

An estimate is made in one place and changed in another: the percentage is replaced
by the greatest one so far, and in sync the time that is left by none. Each text must
go with its number all the same. The heights go back to the reports: the height that
is projected is not below any that a peer has announced, and the height of the header
chain is where the fetch began, plus what has been fetched, within 32 bits.

Which reports these are is told by the session itself as it takes them (`taken`). A
report that is taken may move the session and then writes; `take_writes` says this
once for all reports, so that what is kept of heights can be read off what is written.

## Main definitions

* `Report.peerHeight?`, `Report.startHeight?`, `Report.headers?`: Heights in reports.
* `Session.written`: What a report writes.
* `Session.taken`: The reports that a session takes.
* `Session.KeepsHeights`: What a session keeps of the heights in reports.

## Theorems

* `Session.take_writes`: What a report does that is taken.
* `Session.KeepsHeights.run`: The heights that a session keeps.
* `Session.snapshots_are_consistent`: How the parts of a snapshot fit.
-/

namespace ChainSync

/-- The height a peer announces in a report. -/
def Report.peerHeight? : Report → Option Int32
  | .fetchedHeaders peerHeight _ _ => some peerHeight
  | _ => none

/-- The height at which a report has the header fetch begin. -/
def Report.startHeight? : Report → Option Int32
  | .beginHeaders height => some height
  | _ => none

/-- The number of headers in a report. -/
def Report.headers? : Report → Option Int32
  | .fetchedHeaders _ count _ => some count
  | _ => none

namespace Session

variable {s s' : Session} {now : Nat} {r : Report} {event : Option Event}

/-! ## What reports write -/

/-- What a report writes once its phase has been entered. -/
def written (s : Session) : Report → Session
  | .peerConnected count => { s with peers := max count 0 }
  | .peerDisconnected count => { s with peers := max count 0 }
  | .fetchMissingFilters count => if count < s.filters then s else { s with filters := count }
  | .beginHeaders height => { s with headersStart := height }
  | .fetchedHeaders peerHeight count time =>
    let s := { s with peerHeight := max s.peerHeight peerHeight }
    if s.headers ≤ count then
      { s with headers := count, lastHeaderTime := max s.lastHeaderTime time }
    else s
  | .discoveredAddresses finished =>
    if s.discovered then s else { s with discovered := finished }
  | .rescanProgress through => if through < s.rescanned then s else { s with rescanned := through }
  | .synced => s
  | .failed error => { s with terminal := some (.ofError error) }

/-- A report that is taken may move the session, and then writes. -/
theorem take_writes (h : s.take now r = .ok (event, s')) :
    ∃ s₁, (s₁ = s ∨ ∃ next reason, s₁ = s.moved next reason now) ∧ s' = s₁.written r := by
  have hentered : ∀ {phase reason s₁}, s.enter phase reason now = .ok s₁ →
      s₁ = s ∨ ∃ next reason, s₁ = s.moved next reason now := by
    intro phase reason s₁ henter
    rcases enter_ok henter with ⟨_, ⟨_, rfl⟩ | ⟨_, rfl⟩⟩
    · exact .inl rfl
    · exact .inr ⟨_, _, rfl⟩
  cases r with
  | peerConnected count =>
      rcases bind_ok h with ⟨s₁, hset, h⟩
      rcases Prod.mk.inj (Except.ok.inj h) with ⟨_, rfl⟩
      exact ⟨s, .inl rfl, (setPeers_ok hset).2⟩
  | peerDisconnected count =>
      rcases bind_ok h with ⟨s₁, hset, h⟩
      rcases Prod.mk.inj (Except.ok.inj h) with ⟨_, rfl⟩
      exact ⟨s, .inl rfl, (setPeers_ok hset).2⟩
  | fetchMissingFilters count =>
      rcases bind_ok h with ⟨⟨accepted, s₂⟩, hrecord, h⟩
      rcases Prod.mk.inj (Except.ok.inj h) with ⟨_, rfl⟩
      rcases bind_ok hrecord with ⟨s₁, henter, hrecord⟩
      exact ⟨s₁, hentered henter, eq_ite_of_ok hrecord⟩
  | beginHeaders height =>
      rcases bind_ok h with ⟨s₂, hbegin, h⟩
      rcases Prod.mk.inj (Except.ok.inj h) with ⟨_, rfl⟩
      rcases bind_ok hbegin with ⟨s₁, henter, hbegin⟩
      exact ⟨s₁, hentered henter, (Except.ok.inj hbegin).symm⟩
  | fetchedHeaders peerHeight count time =>
      rcases bind_ok h with ⟨s₂, hrecord, h⟩
      rcases Prod.mk.inj (Except.ok.inj h) with ⟨_, rfl⟩
      rcases bind_ok hrecord with ⟨s₁, henter, hrecord⟩
      refine ⟨s₁, hentered henter, ?_⟩
      by_cases hup : s₁.headers ≤ count
      · rw [if_pos hup] at hrecord
        rw [← Except.ok.inj hrecord]
        exact (if_pos hup).symm
      · rw [if_neg hup] at hrecord
        rw [← Except.ok.inj hrecord]
        exact (if_neg hup).symm
  | discoveredAddresses finished =>
      rcases bind_ok h with ⟨⟨accepted, s₂⟩, hrecord, h⟩
      rcases Prod.mk.inj (Except.ok.inj h) with ⟨_, rfl⟩
      rcases bind_ok hrecord with ⟨s₁, henter, hrecord⟩
      exact ⟨s₁, hentered henter, eq_ite_of_ok hrecord⟩
  | rescanProgress through =>
      rcases bind_ok h with ⟨⟨accepted, s₂⟩, hrecord, h⟩
      rcases Prod.mk.inj (Except.ok.inj h) with ⟨_, rfl⟩
      rcases bind_ok hrecord with ⟨s₁, henter, hrecord⟩
      exact ⟨s₁, hentered henter, eq_ite_of_ok hrecord⟩
  | synced =>
      rcases bind_ok h with ⟨s₁, hfinish, h⟩
      rcases finish_ok hfinish with ⟨_, rfl⟩
      rcases Prod.mk.inj (Except.ok.inj h) with ⟨_, rfl⟩
      exact ⟨_, .inr ⟨_, _, rfl⟩, rfl⟩
  | failed error =>
      rcases bind_ok h with ⟨s₁, hfail, h⟩
      rcases fail_ok hfail with ⟨_, rfl⟩
      rcases Prod.mk.inj (Except.ok.inj h) with ⟨_, rfl⟩
      exact ⟨_, .inr ⟨_, _, rfl⟩, rfl⟩

/-! ## The heights a session keeps -/

/-- The reports that a session takes, one after the other. -/
def taken (s : Session) : List Call → List Report
  | [] => []
  | .report r now :: calls => match s.take now r with
    | .ok (_, s') => r :: s'.taken calls
    | .error _ => s.taken calls
  | c :: calls => (s.call c).2.taken calls

/-- The heights that a session keeps are those of the reports it has taken: the greatest height
    of a peer, the last height to begin at and the greatest number of headers. -/
structure KeepsHeights (s : Session) (reports : List Report) : Prop where
  peerHeight : IsGreatest (insert 0 {h | h ∈ reports.filterMap Report.peerHeight?}) s.peerHeight
  headersStart : s.headersStart = (reports.filterMap Report.startHeight?).getLast?.getD 0
  headers : IsGreatest (insert 0 {n | n ∈ reports.filterMap Report.headers?}) s.headers

variable {reports : List Report}

theorem peerHeight_written (s : Session) (r : Report) : (s.written r).peerHeight =
    (r.peerHeight?.map fun h => if s.peerHeight ≤ h then h else s.peerHeight).getD
      s.peerHeight := by
  cases r <;> simp only [written, Report.peerHeight?] <;> (try split) <;> rfl

theorem headersStart_written (s : Session) (r : Report) :
    (s.written r).headersStart = r.startHeight?.getD s.headersStart := by
  cases r <;> simp only [written, Report.startHeight?] <;> (try split) <;> rfl

theorem headers_written (s : Session) (r : Report) : (s.written r).headers =
    (r.headers?.map fun n => if s.headers ≤ n then n else s.headers).getD s.headers := by
  cases r with
  | fetchedHeaders peerHeight count time =>
      simp only [written, Report.headers?, Option.map_some, Option.getD_some]
      split <;> rfl
  | _ =>
      simp only [written, Report.headers?, Option.map_none, Option.getD_none] <;>
        (try split) <;> rfl

/-- The greatest number of reports, and of one more report. -/
theorem isGreatest_concat {value? : Report → Option Int32} {a : Int32}
    (h : IsGreatest (insert 0 {x | x ∈ reports.filterMap value?}) a) (r : Report) :
    IsGreatest (insert 0 {x | x ∈ (reports ++ [r]).filterMap value?})
      (((value? r).map fun x => if a ≤ x then x else a).getD a) := by
  rw [List.filterMap_append]
  cases hr : value? r with
  | none => simpa [hr] using h
  | some x =>
      rw [Option.map_some, Option.getD_some]
      convert isGreatest_insert_ite h x using 1
      ext y
      simp [hr, or_comm, or_left_comm, eq_comm]

theorem KeepsHeights.written (h : s.KeepsHeights reports) (r : Report) :
    (s.written r).KeepsHeights (reports ++ [r]) where
  peerHeight := peerHeight_written s r ▸ isGreatest_concat h.peerHeight r
  headersStart := by
    rw [headersStart_written, List.filterMap_append, h.headersStart]
    cases hr : r.startHeight? with
    | none => simp [hr]
    | some height => simp [hr]
  headers := headers_written s r ▸ isGreatest_concat h.headers r

theorem KeepsHeights.take (h : s.KeepsHeights reports) (htake : s.take now r = .ok (event, s')) :
    s'.KeepsHeights (reports ++ [r]) := by
  rcases take_writes htake with ⟨s₁, hmoved, rfl⟩
  refine KeepsHeights.written ?_ r
  rcases hmoved with rfl | ⟨next, reason, rfl⟩
  · exact h
  · exact ⟨h.peerHeight, h.headersStart, h.headers⟩

theorem KeepsHeights.run (h : s.KeepsHeights reports) (calls : List Call) :
    (s.run calls).KeepsHeights (reports ++ s.taken calls) := by
  induction calls generalizing s reports with
  | nil => simpa [taken] using h
  | cons c calls ih =>
      rw [run_cons]
      cases c with
      | begin now =>
          simp only [call, taken]
          cases hbegin : s.begin now with
          | error why => exact ih h
          | ok s₁ =>
              rcases begin_ok hbegin with ⟨_, rfl⟩
              exact ih ⟨h.peerHeight, h.headersStart, h.headers⟩
      | report r now =>
          simp only [call, taken]
          cases htake : s.take now r with
          | error why => exact ih h
          | ok out =>
              rcases out with ⟨event, s₁⟩
              change (s₁.run calls).KeepsHeights (reports ++ ([r] ++ s₁.taken calls))
              rw [← List.append_assoc]
              exact ih (h.take htake)
      | progress label now nowUnix => exact ih ⟨h.peerHeight, h.headersStart, h.headers⟩

/-! ## Snapshots -/

theorem toInt_ofIntClamp (n : Int) :
    (Int32.ofIntClamp n).toInt = max (-2 ^ 31) (min n (2 ^ 31 - 1)) := by
  have hmin : Int32.minValue.toInt = -2 ^ 31 := by decide
  have hmax : Int32.maxValue.toInt = 2 ^ 31 - 1 := by decide
  unfold Int32.ofIntClamp
  by_cases hlow : Int32.minValue.toInt ≤ n
  · by_cases hhigh : n ≤ Int32.maxValue.toInt
    · rw [dif_pos hlow, dif_pos hhigh, Int32.toInt_ofIntLE]
      omega
    · rw [dif_pos hlow, dif_neg hhigh]
      omega
  · rw [dif_neg hlow]
    omega

/-- What an estimate tells of the present, and what of the time that is left. -/
theorem estimate_some {e : TimeEstimate} {label : String} {nowUnix : Int64}
    (h : s.estimate label now nowUnix = some e) :
    e.timeRemaining = Estimate.timeRemainingText e.secondsRemaining ∧
      e.daysBehind = Estimate.daysBehindText nowUnix s.lastHeaderTime ∧
      e.projectedHeight = s.projectedHeight label nowUnix ∧ s.headersStartedAt.isSome = true := by
  unfold estimate at h
  rcases Option.bind_eq_some_iff.mp h with ⟨started, hstarted, h⟩
  simp only at h
  split at h
  · exact absurd h (by simp)
  · rw [← Option.some.inj h, hstarted]
    exact ⟨rfl, rfl, rfl, rfl⟩

/-- Publishing an estimate replaces the percentage, and in sync the time that is left together
    with its text. -/
theorem published {total : UInt8} {e : TimeEstimate}
    (h : e.timeRemaining = Estimate.timeRemainingText e.secondsRemaining) :
    (s.publish total e).totalProgress = total ∧
      (s.publish total e).timeRemaining =
        Estimate.timeRemainingText (s.publish total e).secondsRemaining ∧
      (s.publish total e).daysBehind = e.daysBehind ∧
      (s.publish total e).projectedHeight = e.projectedHeight := by
  unfold publish
  by_cases hsynced : s.phase = .synced
  · simp only [if_pos hsynced, and_self]
  · simp only [if_neg hsynced, h, and_self]

/-- The height that is projected is the greater of two. -/
theorem isGreatest_projectedHeight {heights : Set Int32} (h : IsGreatest heights s.peerHeight)
    (label : String) (nowUnix : Int64) :
    IsGreatest (insert (Estimate.projectedHeight nowUnix label s.lastHeaderTime s.headerHeight)
      heights) (s.projectedHeight label nowUnix) := by
  unfold projectedHeight
  generalize Estimate.projectedHeight nowUnix label s.lastHeaderTime s.headerHeight = n
  by_cases hle : n ≤ s.peerHeight
  · rw [show max n s.peerHeight = s.peerHeight from if_pos hle]
    exact isGreatest_insert_of_ge h hle
  · rw [show max n s.peerHeight = n from if_neg hle]
    exact isGreatest_insert_of_le h (Int32.le_of_lt (Int32.not_le.mp hle))

/-- Whatever a session has been told and whenever it is asked, what it shows fits together. -/
theorem snapshots_are_consistent (id : UInt64) (t : Nat) (calls : List Call) (label : String)
    (now : Nat) (nowUnix : Int64) :
    let s := (start id t).run calls
    let p := (s.progress label now nowUnix).1
    let reports := (start id t).taken calls
    let begun := (reports.filterMap Report.startHeight?).getLast?.getD 0
    (∀ e, p.estimate = some e →
      e.totalProgress = p.totalProgress ∧
      e.timeRemaining = Estimate.timeRemainingText e.secondsRemaining ∧
      e.daysBehind = Estimate.daysBehindText nowUnix s.lastHeaderTime ∧
      IsGreatest (insert (Estimate.projectedHeight nowUnix label s.lastHeaderTime p.headerHeight)
        (insert 0 {h | h ∈ reports.filterMap Report.peerHeight?})) e.projectedHeight ∧
      ∃ m ∈ s.history, m.target = .fetchingHeaders) ∧
    p.headerHeight.toInt = max (-2 ^ 31) (min (begun.toInt + p.headers.toInt) (2 ^ 31 - 1)) ∧
    IsGreatest (insert 0 {n | n ∈ reports.filterMap Report.headers?}) p.headers ∧
    s.progress? label now nowUnix = some (s.progress label now nowUnix) := by
  intro s p reports begun
  have hs : s.Reachable := ⟨id, t, calls, rfl⟩
  have hstart : (start id t).KeepsHeights [] := by
    constructor <;> simp [start, IsGreatest, upperBounds]
  have hkept : s.KeepsHeights reports := hstart.run calls
  refine ⟨fun e he => ?_, ?_, hkept.headers, progress?_eq (hkept.headers.2 (Set.mem_insert 0 _)) ..⟩
  · rcases Option.map_eq_some_iff.mp he with ⟨e', he', rfl⟩
    rcases estimate_some he' with ⟨htext, hbehind, hheight, hstarted⟩
    rcases published htext with ⟨htotal, htext', hbehind', hheight'⟩
    rcases Option.isSome_iff_exists.mp hstarted with ⟨started, hstarted⟩
    rcases (hs.coherent.headers started).mp hstarted with ⟨m, hm, htarget, _⟩
    refine ⟨htotal, htext', hbehind'.trans hbehind, ?_, m, hm, htarget⟩
    rw [hheight', hheight]
    exact isGreatest_projectedHeight hkept.peerHeight label nowUnix
  · rw [show begun = s.headersStart from hkept.headersStart.symm]
    exact toInt_ofIntClamp _

/-- A snapshot with heights and times at the ends of their ranges: the header fetch begins close
    to the greatest height, and the clock is set back as far as it goes. -/
theorem snapshot_at_ends_of_ranges :
    let calls : List Call := [.begin 0, .report (.beginHeaders 2147483600) 0,
      .report (.fetchedHeaders 7 100 9223372036854775807) 0, .report (.peerConnected 3) 0,
      .report (.fetchedHeaders 2147483647 60 0) 0, .report (.beginHeaders 2147483610) 0]
    let s := (start 1 0).run calls
    let p := (s.progress "mainnet" 30000000000 (-9223372036854775808)).1
    p.headerHeight.toInt = 2 ^ 31 - 1 ∧
    (∃ e, p.estimate = some e ∧ e.totalProgress = p.totalProgress ∧
      e.timeRemaining = Estimate.timeRemainingText e.secondsRemaining ∧
      2147483647 ≤ e.projectedHeight) ∧
    (s.progress? "mainnet" 30000000000 (-9223372036854775808)).isSome = true := by
  intro calls s p
  rcases snapshots_are_consistent 1 0 calls "mainnet" 30000000000 (-9223372036854775808) with
    ⟨hestimate, hheight, _, hchecked⟩
  have hsome : p.estimate.isSome = true := by decide +kernel
  rcases Option.isSome_iff_exists.mp hsome with ⟨e, he⟩
  rcases hestimate e he with ⟨htotal, htext, _, hgreatest, _⟩
  refine ⟨hheight.trans (by decide +kernel), ⟨e, he, htotal, htext, hgreatest.2 ?_⟩, ?_⟩
  · exact .inr (.inr (by decide +kernel))
  · rw [hchecked]
    rfl

end Session

end ChainSync
