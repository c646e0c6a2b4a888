import ChainSync.Proofs.Rescan.Calls

/-!
# Account of a Rescan

What the calls of a rescan say about its outcome.

The calls of the loop are the same for every height that was scanned and answered:
the scan, its success, the answer. So all that is left of a run are the answers, what
was tried after the last of them, and the outcome, and `ScanAccount` says how the three
fit together. It is read off the rules of `Scans` by induction. Each rule adds an
answer at the front, and the heights move on by one.

Heights are numbers of 32 bits. They do not wrap, since none of them is past the
target, not even where the target is the largest number there is.

## Main definitions

* `reports`: The calls for heights that were scanned one after the other.
* `ScanAccount`: What was answered, what was tried, and how it ended.

## Theorems

* `Scans.account`: The calls of a loop.
* `toInt_heightAt`: The heights of a range.
* `Engine.rescan_calls_account`: The calls of a whole rescan.
-/

namespace ChainSync

/-- So many heights further on. -/
def heightAt (start : Int32) (i : Nat) : Int32 := start + Int32.ofNat i

@[simp] theorem heightAt_zero (start : Int32) : heightAt start 0 = start := Int32.add_zero start

theorem heightAt_succ (start : Int32) (i : Nat) :
    heightAt (start + 1) i = heightAt start (i + 1) := by
  rw [heightAt, heightAt, Int32.ofNat_add, Int32.add_assoc, Int32.add_comm 1]
  rfl

/-- So many heights, upward from one of them. -/
def heightsFrom (start : Int32) (count : Nat) : List Int32 :=
  (List.range count).map (heightAt start)

theorem heightsFrom_succ (start : Int32) (count : Nat) :
    heightsFrom start (count + 1) = start :: heightsFrom (start + 1) count := by
  rw [heightsFrom, List.range_succ_eq_map, List.map_cons, List.map_map, heightAt_zero, heightsFrom]
  congr 1
  exact List.map_congr_left fun i _ => (heightAt_succ start i).symm

/-- The heights of a range are the numbers from its start to its target. -/
theorem toInt_heightAt {start target : Int32} {i : Nat} (hi : i < Engine.blockCount start target) :
    (heightAt start i).toInt = start.toInt + i ∧ start.toInt + i ≤ target.toInt := by
  have hlow := start.le_toInt
  have hhigh := target.toInt_lt
  rw [Engine.blockCount] at hi
  have hle : start.toInt + i ≤ target.toInt := by omega
  refine ⟨?_, hle⟩
  have heq : heightAt start i = Int32.ofInt (start.toInt + i) := by
    rw [Int32.ofInt_add, Int32.ofInt_toInt, Int32.ofInt_eq_ofNat, heightAt]
  rw [heq]
  exact Int32.toInt_ofInt_of_le (by omega) (by omega)

/-- The heights behind the first one of a range. -/
theorem Engine.blockCount_succ {left : Nat} {height target : Int32}
    (h : left + 1 = Engine.blockCount height target) :
    (height < target → left ≠ 0) ∧ (left = 0 ∨ left = Engine.blockCount (height + 1) target) := by
  have hcount := h
  rw [blockCount] at hcount
  refine ⟨fun hlt => ?_, ?_⟩
  · have := Int32.lt_iff_toInt_lt.mp hlt
    omega
  · by_cases hzero : left = 0
    · exact .inl hzero
    · -- The next height is within the range, so it is a greater number.
      have hnext : (height + 1).toInt = height.toInt + 1 :=
        (toInt_heightAt (show 1 < Engine.blockCount height target by omega)).1
      rw [blockCount, hnext]
      omega

/-- The calls for heights that were scanned one after the other, with the answers. -/
def reports (start : Int32) (answers : List ScanAnswer) : List ScanCall :=
  answers.zipIdx.flatMap fun x => x.1.calls (heightAt start x.2)

theorem reports_cons (height : Int32) (answer : ScanAnswer) (answers : List ScanAnswer) :
    reports height (answer :: answers) = answer.calls height ++ reports (height + 1) answers := by
  rw [reports, List.zipIdx_cons, List.flatMap_cons, Nat.zero_add, List.zipIdx_succ,
    List.flatMap_map, heightAt_zero, reports]
  simp only [heightAt_succ]

theorem reports_singleton (height : Int32) (answer : ScanAnswer) :
    reports height [answer] = answer.calls height := by
  rw [reports_cons]
  exact List.append_nil _

/-- How the answers for the heights of a range, the calls for a height without an
    answer, and the outcome of a rescan fit together. -/
structure ScanAccount (count : Nat) (start target : Int32) (answers : List ScanAnswer)
    (tried : List ScanCall) (outcome : RescanOutcome) : Prop where
  /-- No height past the target is reported. -/
  length_le : answers.length ≤ count
  /-- All answers but the last one ask to go on. -/
  goOn : ∀ answer ∈ answers.dropLast, answer = .goOn
  /-- At most one height is tried that is not reported, the next one. -/
  tried : tried = [] ∨ answers.length < count ∧ (∀ answer ∈ answers, answer = .goOn) ∧
    (tried = [.scanBlock (heightAt start answers.length)] ∨
      ∃ e, tried = [.scanBlock (heightAt start answers.length),
        .scanned (heightAt start answers.length) (.failed e)])
  completed : ∀ height, outcome = .completed height ↔
    height = target ∧ answers.length = count ∧ ∀ answer ∈ answers, answer = .goOn
  cancelled : ∀ height, outcome = .cancelled height ↔
    answers.getLast? = some .stop ∧ height = heightAt start (answers.length - 1)

variable {target : Int32}

/-- A rescan that fails at a height, which may have been tried. -/
theorem ScanAccount.of_failure {left : Nat} {height : Int32} {tried : List ScanCall} (e : SyncError)
    (htried : tried = [] ∨ tried = [.scanBlock height] ∨
      ∃ e, tried = [.scanBlock height, .scanned height (.failed e)]) :
    ScanAccount (left + 1) height target [] tried (.ofError e) where
  length_le := Nat.zero_le _
  goOn := fun _ h => absurd h (by simp)
  tried := htried.imp_right fun h => ⟨Nat.succ_pos left, fun _ h => absurd h (by simp),
    by simpa using h⟩
  completed := fun _ => by simp [RescanOutcome.ofError]
  cancelled := fun _ => by simp [RescanOutcome.ofError]

/-- The account of a loop over so many heights, by induction on the loop. -/
theorem Scans.account {left : Nat} {height : Int32} {calls : List ScanCall}
    {x : Except Panic RescanOutcome} (h : Scans target left height calls x)
    {outcome : RescanOutcome} (hx : x = .ok outcome) :
    ∃ answers tried, calls = reports height answers ++ tried ∧
      ScanAccount left height target answers tried outcome := by
  induction h with
  | past =>
      cases hx
      refine ⟨[], [], rfl, Nat.le_refl _, ?_, .inl rfl, ?_, ?_⟩
      · exact fun _ h => absurd h (by simp)
      · exact fun _ => by simp [eq_comm]
      · exact fun _ => by simp
  -- A block that was not scanned is not reported.
  | calledOff e =>
      cases hx
      exact ⟨[], _, rfl, .of_failure e (.inl rfl)⟩
  | interrupted e =>
      cases hx
      exact ⟨[], _, rfl, .of_failure e (.inr (.inl rfl))⟩
  | fault e =>
      cases hx
      exact ⟨[], _, rfl, .of_failure e (.inr (.inr ⟨e, rfl⟩))⟩
  | broken p => cases hx
  -- The observer's own answer ends the loop behind the report.
  | @stopped left height =>
      cases hx
      refine ⟨[.stop], [], by rw [reports_singleton, List.append_nil], Nat.succ_pos left, ?_,
        .inl rfl, ?_, ?_⟩
      · exact fun _ h => absurd h (by simp)
      · exact fun _ => by simp
      · exact fun _ => by simp [eq_comm]
  | @deserted left height p =>
      cases hx
      refine ⟨[.panicked p], [], by rw [reports_singleton, List.append_nil], Nat.succ_pos left, ?_,
        .inl rfl, ?_, ?_⟩
      · exact fun _ h => absurd h (by simp)
      · exact fun _ => by simp [RescanOutcome.ofError]
      · exact fun _ => by simp [RescanOutcome.ofError]
  | @next left height calls x _ ih =>
      rcases ih hx with ⟨answers, tried, hcalls, hacc⟩
      refine ⟨.goOn :: answers, tried, ?_, ?_, ?_, ?_, ?_, ?_⟩
      · rw [hcalls, reports_cons, List.append_assoc]
      · exact Nat.succ_le_succ hacc.length_le
      · -- The new answer comes first, so it is not the last one unless it is alone.
        cases answers with
        | nil => exact fun _ h => absurd h (by simp)
        | cons answer answers =>
            rw [List.dropLast_cons_of_ne_nil (by simp)]
            exact List.forall_mem_cons.mpr ⟨rfl, hacc.goOn⟩
      · rcases hacc.tried with htried | ⟨hlt, hall, htried⟩
        · exact .inl htried
        · refine .inr ⟨Nat.succ_lt_succ hlt, List.forall_mem_cons.mpr ⟨rfl, hall⟩, ?_⟩
          rw [heightAt_succ] at htried
          exact htried
      · intro h
        rw [hacc.completed h]
        simp
      · intro h
        rw [hacc.cancelled h, heightAt_succ]
        cases answers with
        | nil => simp
        | cons answer answers => simp

namespace Engine

variable {χ : Type}

/-- A rescan that is not turned away and comes to its end has reported the heights
    from its start on, one after the other, each after a scan of its own that
    succeeded, and then its outcome. It has come through its target if all heights
    were answered that way, also if there are none; it was stopped if the last answer
    says so; and in all other cases it has failed, before or while it scanned one
    more height, or because its observer broke off. -/
theorem rescan_calls_account (scan : BlockScanner χ) (observer : ScanObserver χ) (handle : Nat)
    (start target : Int32) (others : Engine (Taped χ) → Engine (Taped χ) → Prop)
    (hothers : ∀ e e', others e e' → e'.calls = e.calls) {e e' : Engine (Taped χ)}
    {outcome : RescanOutcome}
    (hrun : (rescan scan.taped observer.taped handle start target).RunsAmong now others e
      (.ok outcome) e') :
    ∃ e₁, others e e₁ ∧ (e₁.slot.isTaken = false →
      ∃ answers tried panic,
        e'.calls = e.calls ++ reports start answers ++ tried ++ [outcome.ending panic] ∧
        ScanAccount (blockCount start target) start target answers tried outcome ∧
        (target < start → answers = [] ∧ tried = []) ∧
        ∀ i < blockCount start target,
          (heightAt start i).toInt = start.toInt + i ∧ start.toInt + i ≤ target.toInt) := by
  rw [rescan_eq] at hrun
  rcases hrun with ⟨e₁, h₁, hrest⟩
  refine ⟨e₁, h₁, fun hfree => ?_⟩
  rcases claim_of_free hfree start target with ⟨hid, _, hown⟩
  simp only [hid] at hrest
  rcases (writes_held handle start target _).run hothers hrest with ⟨w, hcalls, entries, panic, hw,
    hscans⟩
  rcases hscans.account rfl with ⟨answers, tried, hentries, hacc⟩
  have hsame : (e₁.claim start target).2.calls = e.calls := by
    rw [calls, hown]
    exact hothers e e₁ h₁
  refine ⟨answers, tried, panic, ?_, hacc, fun hpast => ?_, fun i hi => toInt_heightAt hi⟩
  · rw [hcalls, hsame, ← List.nil_append w, hw, hentries, ← List.append_assoc, ← List.append_assoc]
  · -- There is no height to be reported or tried.
    have hlt := Int32.lt_iff_toInt_lt.mp hpast
    have hnone : blockCount start target = 0 := by
      rw [blockCount]
      omega
    rw [hnone] at hacc
    refine ⟨List.eq_nil_of_length_eq_zero (Nat.le_zero.mp hacc.length_le), ?_⟩
    rcases hacc.tried with htried | ⟨hlt, _⟩
    · exact htried
    · exact absurd hlt (Nat.not_lt_zero _)

/-- An engine at the beginning. -/
def fresh : Engine (Taped Unit) where
  controller := { network := .testnet, observers := [] }
  own := { own := () }

/-- An observer that wants everything and breaks off when it is over. -/
def faintObserver : ScanObserver Unit where
  onScan _ e := (.goOn, e)
  onEnd _ _ e := (some .opaqueValue, e)
  onError _ _ e := (some .opaqueValue, e)

/-- A rescan of the two largest heights there are. -/
def topmostRescan : Routine (Engine (Taped Unit)) (Except Panic RescanOutcome) :=
  rescan (BlockScanner.taped fun _ => .done .scanned) faintObserver.taped 1 2147483646 2147483647

theorem topmost_rescan_calls_account :
    (∀ e e' : Engine (Taped Unit), e' = e → e'.calls = e.calls) ∧
    fresh.slot.isTaken = false ∧
    ∃ e', topmostRescan.RunsAmong now (fun e e' => e' = e) fresh
        (.ok (.completed 2147483647)) e' ∧
      ∃ answers tried panic,
        e'.calls = fresh.calls ++ reports 2147483646 answers ++ tried ++
          [.onEnd 2147483647 false panic] ∧
        ScanAccount (blockCount 2147483646 2147483647) 2147483646 2147483647 answers tried
          (.completed 2147483647) := by
  have hothers : ∀ e e' : Engine (Taped Unit), e' = e → e'.calls = e.calls :=
    fun _ _ h => by rw [h]
  have hpoll : topmostRescan.poll fresh =
      (.done (.ok (.completed 2147483647)), (topmostRescan.poll fresh).2) := Prod.ext rfl rfl
  have hrun : topmostRescan.RunsAmong now (fun e e' => e' = e) fresh
      (.ok (.completed 2147483647)) (topmostRescan.poll fresh).2 := by
    refine Routine.runsAmong_of_poll ?_ hpoll
    exact fun _ => rfl
  rcases rescan_calls_account _ faintObserver 1 _ _ _ hothers hrun with ⟨e₁, he₁, hcalls⟩
  rcases hcalls (he₁ ▸ rfl) with ⟨answers, tried, panic, hshape, hacc, _⟩
  exact ⟨hothers, rfl, _, hrun, answers, tried, panic, hshape, hacc⟩

end Engine

end ChainSync
