import ChainSync.Proofs.Session.Coherent
import ChainSync.Proofs.Session.Percent
import ChainSync.Proofs.Session.Trace

/-!
# Polling a Session

What a session shows when it is asked for its progress, and that asking does
not matter.

The percentage that the estimate comes to can fall at any time: a taller peer
comes up, the clock is set back, the estimate is lost with the fraction of
headers. What is shown never goes back, because the greatest value shown so
far is kept and shown in place of a smaller one.

The kept value is the one thing a snapshot changes, and no report reads it.
`withBest` puts another value in its place, and every call but a snapshot
answers the same whatever that value is. Two runs that differ in nothing but
their snapshots therefore differ in nothing but that value.

## Main definitions

* `Session.withBest`: A session with another value kept.
* `Session.Call.isPoll`, `Session.Answer.isShown`: Snapshots.
* `Session.Honest`: 100 percent are kept by sessions in sync alone.

## Theorems

* `Session.take_withBest`: No report reads the value kept.
* `Session.run_filter_isPoll`: Snapshots can be left out of a run.
* `Session.totals_climb`: What is shown never goes back.
* `Session.total_eq_hundred_iff`: 100 percent are shown exactly in sync.
* `Session.progress_never_goes_back`: All of this, of every session.
-/

namespace ChainSync

namespace Session

/-- A session with another value as the greatest progress shown so far. -/
def withBest (s : Session) (best : UInt8) : Session := { s with bestProgress := best }

/-- An answer, and a session with another value kept. -/
def withBestAfter {α : Type} (best : UInt8) (out : α × Session) : α × Session :=
  (out.1, out.2.withBest best)

/-- Whether a call asks for a snapshot. -/
def Call.isPoll : Call → Bool
  | .progress .. => true
  | _ => false

/-- Whether an answer is a snapshot. -/
def Answer.isShown : Answer → Bool
  | .shown _ => true
  | _ => false

/-- The percentage that an answer shows. -/
def Answer.total? : Answer → Option UInt8
  | .shown p => some p.totalProgress
  | _ => none

/-- 100 percent are the most that is kept, and only by a session in sync. -/
def Honest (s : Session) : Prop :=
  s.bestProgress ≤ 100 ∧ (s.bestProgress = 100 → s.phase = .synced)

/-! ## No report reads the value kept -/

theorem ensureActive_withBest (s : Session) (best : UInt8) :
    (s.withBest best).ensureActive = s.ensureActive := rfl

theorem move_withBest (s : Session) (best : UInt8) (next : Phase) (reason : String)
    (now : Nat) : (s.withBest best).move next reason now =
      (s.move next reason now).map (withBest · best) := by
  rw [move_eq, move_eq, apply_ite (Except.map _)]
  rfl

theorem enter_withBest (s : Session) (best : UInt8) (phase : Phase) (reason : String)
    (now : Nat) : (s.withBest best).enter phase reason now =
      (s.enter phase reason now).map (withBest · best) := by
  unfold enter
  rw [ensureActive_withBest, move_withBest]
  cases s.ensureActive with
  | error r => rfl
  | ok u =>
      change (if s.phase = phase then _ else if phase.rank < s.phase.rank then _ else _) =
        Except.map _ (if s.phase = phase then _ else if phase.rank < s.phase.rank then _ else _)
      rw [apply_ite (Except.map _), apply_ite (Except.map _)]
      rfl

/-- What follows the entry into a phase can be looked at on its own. -/
theorem bind_enter_withBest {α : Type} {s : Session} {best : UInt8} {phase : Phase}
    {reason : String} {now : Nat} {f : Session → Except Rejection α} {g : α → α}
    (hf : ∀ s₁ : Session, f (s₁.withBest best) = (f s₁).map g) :
    ((s.withBest best).enter phase reason now >>= f) =
      (s.enter phase reason now >>= f).map g := by
  rw [enter_withBest]
  cases s.enter phase reason now with
  | error r => rfl
  | ok s₁ => exact hf s₁

theorem setPeers_withBest (s : Session) (best : UInt8) (count : Int32) :
    (s.withBest best).setPeers count = (s.setPeers count).map (withBest · best) := by
  unfold setPeers
  rw [ensureActive_withBest]
  cases s.ensureActive <;> rfl

theorem recordFilters_withBest (s : Session) (best : UInt8) (count : Int32) (now : Nat) :
    (s.withBest best).recordFilters count now =
      (s.recordFilters count now).map (withBestAfter best) :=
  bind_enter_withBest fun s₁ =>
    (apply_ite (Except.map (withBestAfter best)) (count < s₁.filters)
      (.ok (false, s₁)) (.ok (true, { s₁ with filters := count }))).symm

theorem beginHeaders_withBest (s : Session) (best : UInt8) (height : Int32) (now : Nat) :
    (s.withBest best).beginHeaders height now =
      (s.beginHeaders height now).map (withBest · best) :=
  bind_enter_withBest fun _ => rfl

theorem recordHeaders_withBest (s : Session) (best : UInt8) (peerHeight count : Int32)
    (time : Int64) (now : Nat) : (s.withBest best).recordHeaders peerHeight count time now =
      (s.recordHeaders peerHeight count time now).map (withBest · best) := by
  refine bind_enter_withBest fun s₁ => ?_
  change (if s₁.headers ≤ count then _ else _) =
    Except.map _ (if s₁.headers ≤ count then _ else _)
  rw [apply_ite (Except.map _)]
  rfl

theorem recordDiscovery_withBest (s : Session) (best : UInt8) (finished : Bool) (now : Nat) :
    (s.withBest best).recordDiscovery finished now =
      (s.recordDiscovery finished now).map (withBestAfter best) :=
  bind_enter_withBest fun s₁ =>
    (apply_ite (Except.map (withBestAfter best)) (s₁.discovered = true)
      (.ok (false, s₁)) (.ok (true, { s₁ with discovered := finished }))).symm

theorem recordRescan_withBest (s : Session) (best : UInt8) (through : Int32) (now : Nat) :
    (s.withBest best).recordRescan through now =
      (s.recordRescan through now).map (withBestAfter best) :=
  bind_enter_withBest fun s₁ =>
    (apply_ite (Except.map (withBestAfter best)) (through < s₁.rescanned)
      (.ok (false, s₁)) (.ok (true, { s₁ with rescanned := through }))).symm

theorem finish_withBest (s : Session) (best : UInt8) (now : Nat) :
    (s.withBest best).finish now = (s.finish now).map (withBest · best) := by
  unfold finish
  rw [ensureActive_withBest, move_withBest]
  cases s.ensureActive <;> rfl

theorem fail_withBest (s : Session) (best : UInt8) (error : SyncError) (now : Nat) :
    (s.withBest best).fail error now = (s.fail error now).map (withBest · best) := by
  unfold fail
  rw [ensureActive_withBest, move_withBest]
  cases s.ensureActive with
  | error r => rfl
  | ok u => cases s.move .failed error.message now <;> rfl

theorem take_withBest (s : Session) (best : UInt8) (now : Nat) (r : Report) :
    (s.withBest best).take now r = (s.take now r).map (withBestAfter best) := by
  cases r with
  | peerConnected n =>
      simp only [take, setPeers_withBest]
      cases s.setPeers n <;> rfl
  | peerDisconnected n =>
      simp only [take, setPeers_withBest]
      cases s.setPeers n <;> rfl
  | fetchMissingFilters n =>
      simp only [take, recordFilters_withBest]
      cases s.recordFilters n now <;> rfl
  | beginHeaders height =>
      simp only [take, beginHeaders_withBest]
      cases s.beginHeaders height now <;> rfl
  | fetchedHeaders peerHeight count time =>
      simp only [take, recordHeaders_withBest]
      cases s.recordHeaders peerHeight count time now <;> rfl
  | discoveredAddresses finished =>
      simp only [take, recordDiscovery_withBest]
      cases s.recordDiscovery finished now <;> rfl
  | rescanProgress through =>
      simp only [take, recordRescan_withBest]
      cases s.recordRescan through now <;> rfl
  | synced =>
      simp only [take, finish_withBest]
      cases s.finish now <;> rfl
  | failed error =>
      simp only [take, fail_withBest]
      cases s.fail error now <;> rfl

theorem begin_withBest (s : Session) (best : UInt8) (now : Nat) :
    (s.withBest best).begin now = (s.begin now).map (withBest · best) := by
  unfold begin
  rw [move_withBest, apply_ite (Except.map _)]
  rfl

/-- A call that is no snapshot answers the same and does the same, whatever the
    value kept, and hands that value on. -/
theorem call_withBest (s : Session) (best : UInt8) {c : Call} (hc : c.isPoll = false) :
    (s.withBest best).call c = ((s.call c).1, (s.call c).2.withBest best) := by
  cases c with
  | begin now =>
      simp only [call, begin_withBest]
      cases s.begin now <;> rfl
  | report r now =>
      simp only [call, take_withBest]
      cases s.take now r <;> rfl
  | progress label now nowUnix => exact absurd hc (by simp [Call.isPoll])

theorem bestProgress_call (s : Session) {c : Call} (hc : c.isPoll = false) :
    (s.call c).2.bestProgress = s.bestProgress :=
  congrArg (fun out => out.2.bestProgress) (call_withBest s s.bestProgress hc)

theorem isShown_call (s : Session) (c : Call) : (s.call c).1.isShown = c.isPoll := by
  cases c with
  | begin now =>
      simp only [call]
      cases s.begin now <;> rfl
  | report r now =>
      simp only [call]
      cases s.take now r <;> rfl
  | progress label now nowUnix => rfl

/-- Snapshots can be left out of a run: nobody but the value kept can tell. -/
theorem run_filter_isPoll (s : Session) (best : UInt8) (calls : List Call) :
    (s.withBest best).run (calls.filter (!·.isPoll)) = (s.run calls).withBest best ∧
      (s.withBest best).answers (calls.filter (!·.isPoll)) =
        (s.answers calls).filter (!·.isShown) := by
  induction calls generalizing s with
  | nil => exact ⟨rfl, rfl⟩
  | cons c calls ih =>
      cases hc : c.isPoll with
      | true =>
          -- The snapshot changes the kept value only, which is put aside here.
          have hsame : s.withBest best = (s.call c).2.withBest best := by
            cases c with
            | progress label now nowUnix => rfl
            | _ => exact absurd hc (by simp [Call.isPoll])
          rw [List.filter_cons_of_neg (by simp [hc]), answers,
            List.filter_cons_of_neg (by simp [isShown_call, hc]), run_cons, hsame]
          exact ih (s.call c).2
      | false =>
          rw [List.filter_cons_of_pos (by simp [hc]), answers, answers,
            List.filter_cons_of_pos (by simp [isShown_call, hc]), run_cons, run_cons,
            call_withBest s best hc]
          exact ⟨(ih _).1, congrArg _ (ih _).2⟩

/-! ## What is shown -/

theorem estimate_le {s : Session} {label : String} {now : Nat} {nowUnix : Int64}
    {e : TimeEstimate} (h : s.estimate label now nowUnix = some e) : e.totalProgress ≤ 99 := by
  unfold estimate at h
  rcases Option.bind_eq_some_iff.mp h with ⟨started, _, h⟩
  simp only at h
  split at h
  · exact absurd h (by simp)
  · rw [← Option.some.inj h]
    exact percent_le _

theorem total_eq (s : Session) (label : String) (now : Nat) (nowUnix : Int64) :
    ∃ raw : UInt8, (s.progress label now nowUnix).1.totalProgress = max raw s.bestProgress ∧
      (s.phase = .synced → raw = 100) ∧ (s.phase ≠ .synced → raw ≤ 99) := by
  refine ⟨if s.phase = .synced then 100
    else ((s.estimate label now nowUnix).map (·.totalProgress)).getD 0, rfl, fun h => if_pos h,
    fun h => ?_⟩
  rw [if_neg h]
  cases he : s.estimate label now nowUnix with
  | none => exact (by decide : (0 : UInt8) ≤ 99)
  | some e => exact estimate_le he

/-- The greater of two percentages is one of them. -/
theorem max_cases (a b : UInt8) : max a b = a ∧ b ≤ a ∨ max a b = b ∧ a ≤ b := by
  change (if a ≤ b then b else a) = a ∧ b ≤ a ∨ (if a ≤ b then b else a) = b ∧ a ≤ b
  by_cases h : a ≤ b
  · exact Or.inr ⟨if_pos h, h⟩
  · exact Or.inl ⟨if_neg h, UInt8.le_of_lt (UInt8.not_le.mp h)⟩

theorem total_eq_hundred_iff {s : Session} (hs : s.Honest) (label : String) (now : Nat)
    (nowUnix : Int64) : (s.progress label now nowUnix).1.totalProgress = 100 ↔
      s.phase = .synced := by
  rcases total_eq s label now nowUnix with ⟨raw, htotal, hsynced, hother⟩
  rw [htotal]
  refine ⟨fun h => ?_, fun h => ?_⟩
  · rcases max_cases raw s.bestProgress with ⟨hmax, _⟩ | ⟨hmax, _⟩
    · by_cases hphase : s.phase = .synced
      · exact hphase
      · rw [← hmax, h] at hother
        exact absurd (hother hphase) (by decide)
    · exact hs.2 (hmax.symm.trans h)
  · -- The value kept is never above 100, so it does not win.
    rw [hsynced h]
    rcases max_cases 100 s.bestProgress with ⟨hmax, _⟩ | ⟨hmax, hle⟩
    · exact hmax
    · rw [hmax]
      exact UInt8.le_antisymm hs.1 hle

theorem bestProgress_le_total (s : Session) (label : String) (now : Nat) (nowUnix : Int64) :
    s.bestProgress ≤ (s.progress label now nowUnix).1.totalProgress := by
  rcases total_eq s label now nowUnix with ⟨raw, htotal, _⟩
  rw [htotal]
  rcases max_cases raw s.bestProgress with ⟨hmax, hle⟩ | ⟨hmax, _⟩
  · rwa [hmax]
  · rw [hmax]
    exact UInt8.le_refl _

theorem total_le {s : Session} (hs : s.Honest) (label : String) (now : Nat) (nowUnix : Int64) :
    (s.progress label now nowUnix).1.totalProgress ≤ 100 := by
  rcases total_eq s label now nowUnix with ⟨raw, htotal, hsynced, hother⟩
  rw [htotal]
  rcases max_cases raw s.bestProgress with ⟨hmax, _⟩ | ⟨hmax, _⟩
  · rw [hmax]
    by_cases hphase : s.phase = .synced
    · rw [hsynced hphase]
      exact UInt8.le_refl _
    · exact UInt8.le_trans (hother hphase) (by decide)
  · rw [hmax]
    exact hs.1

theorem honest_start (id : UInt64) (t : Nat) : (start id t).Honest :=
  ⟨by simp [start], fun h => absurd h (by simp [start])⟩

theorem Honest.call {s : Session} (hs : s.Honest) (c : Call) : (s.call c).2.Honest := by
  cases hc : c.isPoll with
  | false =>
      unfold Honest
      rw [bestProgress_call s hc]
      refine ⟨hs.1, fun h => ?_⟩
      have hphase := hs.2 h
      rw [(turns_of_call s c).phase_of_terminal (by rw [hphase]; rfl), hphase]
  | true =>
      cases c with
      | progress label now nowUnix =>
          exact ⟨total_le hs label now nowUnix, (total_eq_hundred_iff hs label now nowUnix).mp⟩
      | _ => exact absurd hc (by simp [Call.isPoll])

theorem Honest.run {s : Session} (hs : s.Honest) (calls : List Call) : (s.run calls).Honest := by
  induction calls generalizing s with
  | nil => exact hs
  | cons c calls ih => exact ih (hs.call c)

theorem total?_call (s : Session) {c : Call} (hc : c.isPoll = false) :
    (s.call c).1.total? = none := by
  have hshown := isShown_call s c
  rw [hc] at hshown
  cases hanswer : (s.call c).1 with
  | shown p =>
      rw [hanswer] at hshown
      exact absurd hshown (by simp [Answer.isShown])
  | _ => rfl

/-- What is shown climbs from the value kept before to the value kept after. -/
theorem totals_climb (s : Session) (calls : List Call) :
    Climbs (s.bestProgress :: (s.answers calls).filterMap Answer.total?)
      (s.run calls).bestProgress := by
  induction calls generalizing s with
  | nil => exact Climbs.iff.mpr ⟨List.pairwise_singleton _ _, by simp [answers]⟩
  | cons c calls ih =>
      have hrest := ih (s.call c).2
      cases hc : c.isPoll with
      | false =>
          rw [answers, List.filterMap_cons_none (total?_call s hc), ← bestProgress_call s hc]
          exact hrest
      | true =>
          cases c with
          | progress label now nowUnix =>
              -- What is shown is also what is kept from then on.
              have hle := bestProgress_le_total s label now nowUnix
              refine List.Pairwise.cons (fun n hn => ?_) hrest
              rcases List.mem_cons.mp hn with rfl | hn
              · exact hle
              · exact UInt8.le_trans hle ((List.pairwise_cons.mp hrest).1 n hn)
          | _ => exact absurd hc (by simp [Call.isPoll])

/-- Whatever a session is told and however often it is asked: what it shows
    never goes back and is 100 percent exactly in sync, and asking changes
    nothing but the value kept, which no answer but a snapshot goes by. -/
theorem progress_never_goes_back (id : UInt64) (t : Nat) (calls : List Call) :
    let s := (start id t).run calls
    let shown := ((start id t).answers calls).filterMap Answer.total?
    let others := calls.filter (!·.isPoll)
    shown.Pairwise (· ≤ ·) ∧ (∀ n ∈ shown, n ≤ 100) ∧
    (∀ label now nowUnix,
      ((s.progress label now nowUnix).1.totalProgress = 100 ↔ s.phase = .synced) ∧
      (s.progress label now nowUnix).2 =
        s.withBest (s.progress label now nowUnix).1.totalProgress) ∧
    (start id t).run others = s.withBest 0 ∧
    (start id t).answers others = ((start id t).answers calls).filter (!·.isShown) := by
  intro s shown others
  have hhonest : s.Honest := (honest_start id t).run calls
  have hclimb := Climbs.iff.mp (totals_climb (start id t) calls)
  have hothers := run_filter_isPoll (start id t) 0 calls
  refine ⟨(List.pairwise_cons.mp hclimb.1).2, fun n hn => ?_, fun label now nowUnix =>
    ⟨total_eq_hundred_iff hhonest label now nowUnix, rfl⟩, hothers.1, hothers.2⟩
  exact UInt8.le_trans (hclimb.2 n (List.mem_cons_of_mem _ hn)) hhonest.1

end Session

end ChainSync
