import ChainSync.Proofs.Cancel.Reasons
import Mathlib.Data.List.Nodup

/-!
# Watchers

How many watchers there are, and whose they are.

A watcher is started in one place only, where a handle is derived that is not cancelled
at once, and it comes to its end in a turn in which it finds a cause. Everything else
leaves the watchers to their handles (`staff_step`). So the number that a coordinator
keeps of them can go by starts and ends alone (`counter`). That it is right, and does not
fall below zero, takes more: each end has to take away one watcher and not several. It
does, because no two watchers have the same handle (`Lined`).

Which handles have a watcher is seen best once all watchers that were woken have had
their turns. A handle that is not cancelled has one in every state. A watcher that is
left has no cause, so its handle is not cancelled, and has not been let go of either,
since that would have cancelled it. Until then a cancelled handle may have its watcher
for some time, but never more than one.

## Main definitions

* `Coordinator.Step.starts`, `Coordinator.Step.ends`: Starts and ends of watchers.
* `Coordinator.counter`: The number kept.
* `Coordinator.staff`: The handles of the watchers.

## Theorems

* `Coordinator.staff_step`: What a step does to the watchers.
* `Coordinator.Lined.steps`: The number kept is right, whatever happens.
* `Coordinator.Recorded.mem_staff_iff`: Who has a watcher in a settled state.
* `Coordinator.watchers_belong_to_running_handles`: All of this, for every history.
-/

namespace ChainSync

namespace Coordinator

variable {c c' : Coordinator} {past : List Step} {first : Nat → Option Nat} {ds : List Derivation}

/-! ## Starts and ends -/

/-- Whether a step starts a watcher: a handle is derived, and nothing keeps it from
    being used. -/
def Step.starts (c : Coordinator) : Step → Bool
  | .op (.derive parent _) => !c.fired && !c.isTokenCancelled parent
  | _ => false

/-- Whether a step ends a watcher: it has its turn, and finds a cause. -/
def Step.ends (c : Coordinator) : Step → Bool
  | .watcher id => (c.finding id).isSome
  | _ => false

/-- The number of watchers as it is kept along the way: one more whenever one is
    started, and one less whenever one ends. -/
def counter : Coordinator → List Step → Int
  | _, [] => 0
  | c, s :: ss => (s.starts c).toNat - (s.ends c).toNat + counter (c.step s) ss

/-- The handles of the watchers, in their order. -/
def staff (c : Coordinator) : List Nat := c.watchers.map (·.handle)

/-- Requests leave the watchers alone. -/
theorem watchers_cancelEach (c : Coordinator) (qs : List Request) :
    (c.cancelEach qs).2.watchers = c.watchers := by
  induction qs generalizing c with
  | nil => rfl
  | cons q qs ih => rw [cancelEach_cons, ih, watchers_cancelWith]

/-- What a step does to the watchers: it adds that of a new handle, or takes away that
    of the handle whose turn it is, or leaves them to their handles. -/
theorem staff_step (hl : c.Lineage first ds) {s : Step} (hs : s.Possible c) :
    (s.starts c = true ∧ s.ends c = false ∧ (c.step s).staff = c.staff ++ [c.nextId]) ∨
    (s.starts c = false ∧ s.ends c = true ∧
      ∃ id ∈ c.staff, (c.step s).staff = c.staff.filter (· ≠ id)) ∨
    (s.starts c = false ∧ s.ends c = false ∧ (c.step s).staff = c.staff) := by
  have hprepared : (c.step s).staff = (c.prepared s).staff := by
    rw [staff, ← cancelEach_requests, watchers_cancelEach, staff]
  rw [hprepared]
  cases s with
  | watcher id =>
      cases hfound : c.finding id with
      | none =>
          -- Whoever finds nothing has only set his timer.
          have harmed : (c.prepared (.watcher id)).staff = c.staff := by
            simp only [prepared, hfound]
            exact handles_arm { c with woken := c.woken.erase id } id
          exact .inr (.inr ⟨rfl, by rw [Step.ends, hfound]; rfl, harmed⟩)
      | some cause =>
          rcases Option.bind_eq_some_iff.mp hfound with ⟨w, hw, _⟩
          have hid : w.handle = id := by simpa using List.find?_some hw
          refine .inr (.inl ⟨rfl, by rw [Step.ends, hfound]; rfl, id, ?_, ?_⟩)
          · rw [staff, ← c.handles_arm id, ← hid]
            exact List.mem_map_of_mem (hid ▸ List.mem_of_find?_eq_some hw)
          · simp only [prepared, hfound, Option.isSome_some, if_true, staff, retired,
              List.filter_map]
            rfl
  | op o =>
      cases o with
      | derive parent timeout =>
          -- The token of the new handle makes no difference to the one above.
          have habove : c.enrolled.isTokenCancelled parent = c.isTokenCancelled parent :=
            Forest.isCancelled_make hl.ordered (fun _ h => absurd h (by simp)) hs
          simp only [prepared, habove]
          cases hfired : c.fired with
          | true => exact .inr (.inr ⟨by simp [Step.starts, hfired], rfl, rfl⟩)
          | false =>
              cases hparent : c.isTokenCancelled parent with
              | true => exact .inr (.inr ⟨by simp [Step.starts, hparent], rfl, rfl⟩)
              | false =>
                  exact .inl ⟨by simp [Step.starts, hfired, hparent], rfl, List.map_append⟩
      | fire =>
          refine .inr (.inr ⟨rfl, rfl, ?_⟩)
          simp only [prepared, closed]
          split <;> rfl
      | signal =>
          refine .inr (.inr ⟨rfl, rfl, ?_⟩)
          simp only [prepared, closed]
          split <;> rfl
      | turn id => exact absurd hs fun h => h
      | reschedule woken => exact absurd hs fun h => h
      | _ => exact .inr (.inr ⟨rfl, rfl, rfl⟩)

/-! ## One watcher for each handle -/

/-- The watchers stand in the order of their handles, no two for the same one. -/
def Lined (c : Coordinator) : Prop := c.staff.Pairwise (· < ·)

theorem Lined.nodup (h : c.Lined) : c.staff.Nodup := h.imp Nat.ne_of_lt

theorem length_staff (c : Coordinator) : c.staff.length = c.activeWatchers := List.length_map _

/-- Without the watcher of one handle there is one less. -/
theorem Lined.length_filter (h : c.Lined) {id : Nat} (hid : id ∈ c.staff) :
    (c.staff.filter (· ≠ id)).length + 1 = c.staff.length := by
  have hfilter : c.staff.filter (· ≠ id) = c.staff.erase id := by
    rw [h.nodup.erase_eq_filter]
    refine List.filter_congr fun j _ => ?_
    rw [Bool.eq_iff_iff, decide_eq_true_iff, bne_iff_ne]
  have hpos := List.length_pos_of_mem hid
  rw [hfilter, List.length_erase_of_mem hid]
  omega

/-- A step keeps the watchers in order, and the number of them is that of before with
    the starts and without the ends. -/
theorem Lined.step (h : c.Lined) (hr : Recorded past c ds) {s : Step} (hs : s.Possible c) :
    (c.step s).Lined ∧ ((c.step s).activeWatchers : Int) =
      c.activeWatchers + ((s.starts c).toNat - (s.ends c).toNat) := by
  rw [← length_staff, ← length_staff]
  rcases staff_step hr.tended.lineage hs with
    ⟨hstarts, hends, heq⟩ | ⟨hstarts, hends, id, hid, heq⟩ | ⟨hstarts, hends, heq⟩
  · -- The handles from before have smaller numbers than the new one.
    rw [Lined, heq, hstarts, hends, List.length_append]
    refine ⟨List.pairwise_append.mpr ⟨h, List.pairwise_singleton _ _, fun i hi j hj => ?_⟩, by simp⟩
    rcases List.mem_map.mp hi with ⟨v, hv, rfl⟩
    rw [List.mem_singleton.mp hj]
    exact Nat.lt_succ_of_le (hr.sound.watchers v hv)
  · have hlength := h.length_filter hid
    rw [Lined, heq, hstarts, hends]
    refine ⟨h.sublist List.filter_sublist, ?_⟩
    simp only [Bool.toNat_false, Bool.toNat_true]
    omega
  · rw [Lined, heq, hstarts, hends]
    exact ⟨h, by simp⟩

/-- The number kept along a run is that of the watchers. -/
theorem Lined.steps (h : c.Lined) (hr : Recorded past c ds) {ss : List Step}
    (ho : c.Orderly ss) : (c.steps ss).Lined ∧
      ((c.steps ss).activeWatchers : Int) = c.activeWatchers + c.counter ss := by
  induction ss generalizing c past ds with
  | nil => exact ⟨h, (Int.add_zero _).symm⟩
  | cons s ss ih =>
      rcases h.step hr ho.1 with ⟨hstep, hcount⟩
      rcases ih hstep (hr.step ho.1) ho.2 with ⟨hsteps, hrest⟩
      refine ⟨hsteps, ?_⟩
      rw [steps_cons, hrest, hcount, counter, Int.add_assoc]

/-! ## Who has a watcher -/

/-- A handle that is not cancelled has a watcher, whether or not others have been woken. -/
theorem Recorded.mem_staff (hr : Recorded past c ds) {h : Handle} (hh : h ∈ c.handles)
    (hnot : c.isCancelled h.id = false) : h.id ∈ c.staff := by
  have hl := hr.tended.lineage
  rcases hl.of_handle? (hl.numbered.handle? hh) with ⟨d, hd, hid, _⟩
  rw [← hid, hl.isCancelled hd] at hnot
  rw [← hid]
  exact List.mem_map_of_mem (hr.tended.watched d hd hnot)

/-- A handle that nobody has any more has been cancelled. -/
theorem Recorded.isCancelled_of_dead (hr : Recorded past c ds) {h : Handle}
    (hh : h ∈ c.handles) (hlive : h.isLive = false) : c.isCancelled h.id = true := by
  have hfind := hr.tended.lineage.numbered.handle? hh
  have hheld := hr.sound.held h.id h hfind
  rw [isCancelled, hfind]
  exact hheld.reason (hheld.released hlive)

/-- In a settled state the handles that have a watcher are those that are in use and not
    cancelled. -/
theorem Recorded.mem_staff_iff (hr : Recorded past c ds) (hw : c.woken = []) {h : Handle}
    (hh : h ∈ c.handles) :
    h.id ∈ c.staff ↔ (h.isLive && !c.isCancelled h.id) = true := by
  have hl := hr.tended.lineage
  rw [Bool.and_eq_true, Bool.not_eq_true']
  refine ⟨fun hmem => ?_, fun ⟨_, hnot⟩ => hr.mem_staff hh hnot⟩
  rcases List.mem_map.mp hmem with ⟨w, hmem, hid⟩
  rcases hl.watchers w hmem with ⟨d, hd, rfl⟩
  have hnot : c.isCancelled h.id = false := by
    rw [← hid, show (d.watcher _).handle = d.id from rfl, hl.isCancelled hd, Bool.eq_false_iff]
    intro hcancelled
    -- The watcher would have been woken.
    have hwoken := hr.tended.awake _ hmem (.inr ((causeFor_isSome c _).mpr (.inl hcancelled)))
    rw [hw] at hwoken
    exact absurd hwoken List.not_mem_nil
  refine ⟨?_, hnot⟩
  cases hlive : h.isLive with
  | true => rfl
  | false => exact absurd (hnot.symm.trans (hr.isCancelled_of_dead hh hlive)) Bool.false_ne_true

/-- In a settled state there are as many watchers as handles that are in use and not
    cancelled. -/
theorem Recorded.activeWatchers_eq (hr : Recorded past c ds) (hlined : c.Lined)
    (hw : c.woken = []) :
    c.activeWatchers = c.handles.countP fun h => h.isLive && !c.isCancelled h.id := by
  have hl := hr.tended.lineage
  have hids : (c.handles.map (·.id)).Nodup := by
    rw [hl.numbered]
    exact List.nodup_range'
  have hperm : c.staff.Perm
      ((c.handles.filter fun h => h.isLive && !c.isCancelled h.id).map (·.id)) := by
    refine (List.perm_ext_iff_of_nodup hlined.nodup
      (hids.sublist (List.filter_sublist.map _))).mpr fun id => ?_
    constructor
    · intro hid
      rcases List.mem_map.mp hid with ⟨w, hmem, rfl⟩
      rcases hl.watchers w hmem with ⟨d, hd, rfl⟩
      rcases hl.handle? hd with ⟨h, hh, _⟩
      have hmem := List.mem_of_find?_eq_some hh
      have hsame : h.id = (d.watcher (firstTurn {} past d.id)).handle := id_of_handle? hh
      rw [← hsame] at hid ⊢
      exact List.mem_map_of_mem
        (List.mem_filter.mpr ⟨hmem, (hr.mem_staff_iff hw hmem).mp hid⟩)
    · intro hid
      rcases List.mem_map.mp hid with ⟨h, hmem, rfl⟩
      rcases List.mem_filter.mp hmem with ⟨hmem, hrunning⟩
      exact (hr.mem_staff_iff hw hmem).mpr hrunning
  have hlength := hperm.length_eq
  rwa [staff, List.length_map, List.length_map, ← List.countP_eq_length_filter] at hlength

/-- Turns of watchers derive nothing and take nothing back. So if all handles are
    cancelled, no watcher is left once things have settled. -/
theorem Recorded.activeWatchers_settle (hr : Recorded past c ds) (hlined : c.Lined)
    (hall : ∀ h ∈ c.handles, c.isCancelled h.id = true) : c.settle.2.activeWatchers = 0 := by
  rcases c.settle_orderly with ⟨ids, ho, heq, hnone⟩
  have hrest := hr.steps ho
  have hsettled := (hlined.steps hr ho).1
  rw [derivations_turns, List.append_nil, ← heq] at hrest
  rw [← heq] at hsettled
  rw [hrest.activeWatchers_eq hsettled hnone, List.countP_eq_zero]
  intro h hh
  rcases hrest.tended.lineage.of_handle? (hrest.tended.lineage.numbered.handle? hh) with
    ⟨d, hd, hid, _⟩
  rcases hr.tended.lineage.handle? hd with ⟨g, hg, _⟩
  have hcancelled := hall g (List.mem_of_find?_eq_some hg)
  rw [id_of_handle? hg, hid] at hcancelled
  simp [c.grows_settle.isCancelled hcancelled]

/-- No watcher leaks. The number kept of watchers is right at every moment of a history,
    so that it is never taken below zero, and no handle has more than one; a handle that
    is not cancelled has one. In a settled state a handle has one exactly if it is in use
    and not cancelled, and there are no others. So once all handles are given up or
    cancelled, for whatever reason, no watcher is left as soon as things have settled. -/
theorem watchers_belong_to_running_handles (past : List Step) (ho : Orderly {} past) :
    let c := steps {} past
    let running (h : Handle) : Bool := h.isLive && !c.isCancelled h.id
    (∀ before after, past = before ++ after →
      counter {} before = (steps {} before).activeWatchers) ∧
    (∀ h ∈ c.handles, c.staff.count h.id ≤ 1 ∧
      (c.isCancelled h.id = false → c.staff.count h.id = 1)) ∧
    (c.woken = [] →
      c.activeWatchers = c.handles.countP running ∧
      (∀ h ∈ c.handles, c.staff.count h.id = (running h).toNat) ∧
      ((∀ h ∈ c.handles, running h = false) → c.activeWatchers = 0)) ∧
    ((∀ h ∈ c.handles, running h = false) → c.settle.2.activeWatchers = 0) := by
  intro c running
  have hempty : Lined {} := .nil
  have hr : Recorded past c (derivations {} past) := recorded past ho
  have hlined : c.Lined := (hempty.steps recorded_empty ho).1
  have hnodup := hlined.nodup
  refine ⟨?_, fun h hh => ⟨?_, fun hnot => ?_⟩, fun hw => ⟨?_, fun h hh => ?_, fun hover => ?_⟩,
    fun hover => ?_⟩
  · rintro before after rfl
    rw [(hempty.steps recorded_empty (orderly_append.mp ho).1).2]
    exact (Int.zero_add _).symm
  · exact List.nodup_iff_count_le_one.mp hnodup h.id
  · exact List.count_eq_one_of_mem hnodup (hr.mem_staff hh hnot)
  · exact hr.activeWatchers_eq hlined hw
  · have hiff := hr.mem_staff_iff hw hh
    cases hrunning : running h with
    | true => exact List.count_eq_one_of_mem hnodup (hiff.mpr hrunning)
    | false =>
        refine List.count_eq_zero_of_not_mem fun hmem => ?_
        exact absurd (hrunning.symm.trans (hiff.mp hmem)) Bool.false_ne_true
  · rw [hr.activeWatchers_eq hlined hw]
    exact List.countP_eq_zero.mpr fun h hh => by simpa [running] using hover h hh
  · refine hr.activeWatchers_settle hlined fun h hh => ?_
    -- A handle that does not go on was cancelled, at the latest when it was given up.
    cases hlive : h.isLive with
    | false => exact hr.isCancelled_of_dead hh hlive
    | true => simpa [running, hlive] using hover h hh

/-- Three handles, one below another: the first is given up before its watcher has had a
    turn, which ends the second, and the third goes on. -/
theorem one_watcher_is_left :
    let past : List Step := [.op (.makeToken none), .op (.derive 0 none), .op (.derive 1 none),
      .op (.derive 0 (some 5)), .op (.drop 1), .watcher 1, .watcher 2, .watcher 3]
    let c := steps {} past
    Orderly {} past ∧ c.woken = [] ∧ counter {} past = 1 ∧ c.activeWatchers = 1 ∧
      c.staff.count 2 = 0 ∧ c.staff.count 3 = 1 := by
  intro past c
  have ho : Orderly {} past := by decide
  have hw : c.woken = [] := by decide
  rcases watchers_belong_to_running_handles past ho with ⟨hcounter, _, hsettled, _⟩
  rcases hsettled hw with ⟨hcount, hstaff, _⟩
  have hone : c.activeWatchers = 1 := hcount.trans (by decide)
  refine ⟨ho, hw, ?_, hone, ?_, ?_⟩
  · exact (hcounter past [] (List.append_nil _).symm).trans (congrArg Int.ofNat hone)
  · exact (hstaff ⟨2, 2, some .parentCancelled, 1⟩ (by decide)).trans (by decide)
  · exact (hstaff ⟨3, 3, none, 1⟩ (by decide)).trans (by decide)

end Coordinator

end ChainSync
