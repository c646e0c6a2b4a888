import ChainSync.Proofs.Controller.InOrder
import ChainSync.Proofs.Rescan.Account
import ChainSync.Proofs.Simulation.Headers

/-!
# What a Simulation Reports

The reports of a simulation are fixed before it begins.

Peers, filters, headers, discovery and the rescan come one after the other, and what
is heard of them (`SimulationPlan.trace`) can be read off the plan. A session that has
just begun takes all of them, since no count goes back.

## Main definitions

* `SimulationPlan.heights`, `SimulationPlan.reports`: The reports of a run.
* `SimulationPlan.trace`, `SimulationPlan.tracesBy`: What is heard of them.
* `SimulationPlan.Counted`: The numbers in a trace.

## Theorems

* `SimulationPlan.heights_spec`: The heights of the rescan.
* `SimulationPlan.takesAll_reports`: The reports are taken.
-/

namespace ChainSync

namespace SimulationPlan

/-! ## The heights of the rescan -/

/-- The heights of the rescan. -/
def heights (plan : SimulationPlan) : List Int32 :=
  heightsFrom plan.rescanStart (Engine.blockCount plan.rescanStart plan.headers)

theorem rescanStart_nonneg (plan : SimulationPlan) : 0 ≤ plan.rescanStart := by
  rw [Int32.le_iff_toInt_le, rescanStart, toInt_max]
  exact Int.le_max_right _ _

/-- The heights follow each other, none is negative, and the last one is the number of
    headers. -/
theorem heights_spec (plan : SimulationPlan) :
    (plan.heights.map Int32.toInt = (List.range plan.heights.length).map fun i : Nat =>
      plan.rescanStart.toInt + (i : Int)) ∧
    (∀ height ∈ plan.heights, 0 ≤ height) ∧
    plan.heights.getLast? =
      if plan.rescanStart ≤ plan.headers then some plan.headers else none := by
  have hnonneg : 0 ≤ plan.rescanStart.toInt := Int32.le_iff_toInt_le.mp plan.rescanStart_nonneg
  unfold heights heightsFrom
  refine ⟨?_, fun height hheight => ?_, ?_⟩
  · rw [List.map_map, List.length_map, List.length_range]
    exact List.map_congr_left fun i hi => (toInt_heightAt (List.mem_range.mp hi)).1
  · rcases List.mem_map.mp hheight with ⟨i, hi, rfl⟩
    rw [Int32.le_iff_toInt_le, (toInt_heightAt (List.mem_range.mp hi)).1]
    exact Int.add_nonneg hnonneg (Int.natCast_nonneg i)
  · rw [List.getLast?_map, List.getLast?_range]
    by_cases hle : plan.rescanStart ≤ plan.headers
    · have hle' := Int32.le_iff_toInt_le.mp hle
      have hcount : (Engine.blockCount plan.rescanStart plan.headers : Int) =
          plan.headers.toInt - plan.rescanStart.toInt + 1 := by
        rw [Engine.blockCount]
        omega
      have hbefore : Engine.blockCount plan.rescanStart plan.headers - 1 <
          Engine.blockCount plan.rescanStart plan.headers := by omega
      have hlast := (toInt_heightAt hbefore).1
      rw [if_pos hle, if_neg (by omega), Option.map_some]
      refine congrArg some (Int32.toInt_inj.mp ?_)
      rw [hlast]
      omega
    · have hlt := Int32.lt_iff_toInt_lt.mp (Int32.not_le.mp hle)
      have hcount : Engine.blockCount plan.rescanStart plan.headers = 0 := by
        rw [Engine.blockCount]
        omega
      rw [if_neg hle, if_pos hcount]
      rfl

/-! ## All reports -/

/-- The reports of a run, one after the other. -/
def reports (plan : SimulationPlan) (nowUnix : Int64) : List Report :=
  plan.approach.map (·.report) ++ ((plan.headerReports nowUnix).map (·.report)
    ++ (discovery.map (·.report) ++ plan.heights.map .rescanProgress))

/-- What is heard of a header count. -/
def headerEvent (plan : SimulationPlan) (nowUnix : Int64) (count : Int32) : Event :=
  .fetchedHeaders plan.headers count (Int64.ofInt
    (plan.firstHeaderTime nowUnix + count.toInt * plan.network.blockInterval))

/-- The numbers of peers, which are counted up. -/
def peerCounts (plan : SimulationPlan) : List Int32 :=
  (List.range plan.peers).map fun n => max (Int32.ofNat (n + 1)) 0

/-- What is heard of a whole run. -/
def trace (plan : SimulationPlan) (nowUnix : Int64) : List Event :=
  plan.peerCounts.map .peerConnected
    ++ [10, 20, 32].map .fetchMissingFilters
    ++ (headerCounts plan.headers).1.map (plan.headerEvent nowUnix)
    ++ [false, false, false, true].map .discoveredAddresses
    ++ plan.heights.map .rescanProgress

/-- The traces of a plan, by when the clock on the wall is read. -/
def tracesBy (plan : SimulationPlan) (clock : WallClock) (whole : List Event) : Prop :=
  ∃ instant, whole = plan.trace (clock instant)

theorem filterMap_reports (plan : SimulationPlan) (nowUnix : Int64) :
    (plan.reports nowUnix).filterMap Report.event? = plan.trace nowUnix := by
  have hmap {α : Type} (f : α → Report) (g : α → Event) (l : List α)
      (h : ∀ a, (f a).event? = some (g a)) : (l.map f).filterMap Report.event? = l.map g := by
    have hcomp : Report.event? ∘ f = some ∘ g := funext h
    rw [List.filterMap_map, hcomp, List.filterMap_eq_map]
  have hheaders := hmap (fun n => (plan.headerReport nowUnix n).report) (plan.headerEvent nowUnix)
    (headerCounts plan.headers).1 fun _ => rfl
  have hheights := hmap .rescanProgress .rescanProgress plan.heights fun _ => rfl
  have hpeers := hmap (fun n => .peerConnected (Int32.ofNat (n + 1)))
    (fun n => .peerConnected (max (Int32.ofNat (n + 1)) 0)) (List.range plan.peers) fun _ => rfl
  have hsplit : plan.reports nowUnix =
      (List.range plan.peers).map (fun n => .peerConnected (Int32.ofNat (n + 1)))
        ++ ([10, 20, 32].map .fetchMissingFilters ++ (.beginHeaders 0
        :: ((headerCounts plan.headers).1.map (fun n => (plan.headerReport nowUnix n).report)
        ++ ([false, false, false, true].map .discoveredAddresses
        ++ plan.heights.map .rescanProgress)))) := by
    simp [reports, approach, headerReports, discovery, List.map_map, Function.comp_def,
      List.replicate_succ]
  rw [hsplit, List.filterMap_append, hpeers, List.filterMap_append, List.filterMap_cons_none rfl,
    List.filterMap_append, hheaders, List.filterMap_append, hheights, trace, peerCounts,
    List.map_map]
  simp [Report.event?, Function.comp_def]

/-- The peers are counted from one, as long as their number fits. -/
theorem toInt_peerCounts {plan : SimulationPlan} (hfits : plan.peers < 2147483648) :
    plan.peerCounts.map Int32.toInt = (List.range plan.peers).map fun n : Nat => (n : Int) + 1 := by
  rw [peerCounts, List.map_map]
  refine List.map_congr_left fun n hn => ?_
  have hlt := List.mem_range.mp hn
  have hcount : (Int32.ofNat (n + 1)).toInt = (n : Int) + 1 := by
    rw [← Int32.ofInt_eq_ofNat, Int32.toInt_ofInt_of_le (by omega) (by omega)]
    rfl
  have hpos : ¬Int32.ofNat (n + 1) ≤ 0 := by
    rw [Int32.not_le, Int32.lt_iff_toInt_lt, hcount]
    exact Int.lt_add_one_iff.mpr (Int.natCast_nonneg n)
  rw [Function.comp_apply, show max (Int32.ofNat (n + 1)) 0 =
    if Int32.ofNat (n + 1) ≤ 0 then 0 else Int32.ofNat (n + 1) from rfl, if_neg hpos]
  exact hcount

/-- The numbers that are told in a trace. -/
structure Counted (plan : SimulationPlan) : Prop where
  /-- The peers are counted from one, as long as their number fits. -/
  peers : plan.peers < 2147483648 →
    plan.peerCounts.map Int32.toInt = (List.range plan.peers).map fun n : Nat => (n : Int) + 1
  /-- The header counts increase. -/
  headers : (headerCounts plan.headers).1.Pairwise (· < ·)
  /-- The last of them is the number of headers; without headers there is none. -/
  lastHeader : (headerCounts plan.headers).1.getLast? =
    if 0 < plan.headers then some plan.headers else none
  /-- The heights follow each other. -/
  heights : plan.heights.map Int32.toInt = (List.range plan.heights.length).map fun i : Nat =>
    plan.rescanStart.toInt + (i : Int)
  nonneg : ∀ height ∈ plan.heights, 0 ≤ height
  /-- The last of them is the number of headers, unless there is none. -/
  lastHeight : plan.heights.getLast? =
    if plan.rescanStart ≤ plan.headers then some plan.headers else none

theorem counted {plan : SimulationPlan} (hmost : plan.headers.toInt ≤ mostHeaders) :
    plan.Counted where
  peers := toInt_peerCounts
  headers := (headerCounts_spec (.inl hmost)).2.1
  lastHeader := (headerCounts_spec (.inl hmost)).2.2
  heights := plan.heights_spec.1
  nonneg := plan.heights_spec.2.1
  lastHeight := plan.heights_spec.2.2

/-- Heights that do not go back are taken. -/
theorem takesAll_heights {st : Standing} {heights : List Int32}
    (hup : st.isUpTo .rescanning = true) (hnone : st.terminal = none)
    (hheights : (st.rescanned :: heights).Pairwise (· ≤ ·)) :
    st.TakesAll (heights.map .rescanProgress) := by
  induction heights generalizing st with
  | nil => exact ⟨Standing.isTerminal_of_isUpTo hup rfl, hnone⟩
  | cons height heights ih =>
      rcases List.pairwise_cons.mp hheights with ⟨hall, hrest⟩
      have hle : decide (st.rescanned ≤ height) = true :=
        decide_eq_true (hall height List.mem_cons_self)
      exact ⟨Bool.and_eq_true_iff.mpr ⟨hup, hle⟩, ih rfl hnone hrest⟩

/-- A session that has just begun takes all reports. -/
theorem takesAll_reports (plan : SimulationPlan) (nowUnix : Int64) :
    ({ phase := .connectingPeers } : Standing).TakesAll (plan.reports nowUnix) := by
  have hheights : ((0 : Int32) :: plan.heights).Pairwise (· ≤ ·) := by
    refine List.pairwise_cons.mpr ⟨plan.heights_spec.2.1, ?_⟩
    refine List.pairwise_map.mpr (List.Pairwise.imp_of_mem ?_ List.pairwise_lt_range)
    intro i j hi hj hlt
    rw [Int32.le_iff_toInt_le, (toInt_heightAt (List.mem_range.mp hi)).1,
      (toInt_heightAt (List.mem_range.mp hj)).1]
    omega
  -- From the last report to the first.
  have hrescan : ({ phase := .discoveringAddresses, filters := 32, discovered := true } :
      Standing).TakesAll (plan.heights.map .rescanProgress) := takesAll_heights rfl rfl hheights
  have hdiscovery : ({ phase := .fetchingHeaders, filters := 32 } : Standing).TakesAll
      (discovery.map (·.report) ++ plan.heights.map .rescanProgress) :=
    ⟨rfl, rfl, rfl, rfl, hrescan⟩
  have hheaders : ({ phase := .fetchingHeaders, filters := 32 } : Standing).TakesAll
      ((headerCounts plan.headers).1.map (fun n => (plan.headerReport nowUnix n).report)
        ++ (discovery.map (·.report) ++ plan.heights.map .rescanProgress)) := by
    refine hdiscovery.after_same fun r hr => ?_
    rcases List.mem_map.mp hr with ⟨n, _, rfl⟩
    exact ⟨rfl, rfl⟩
  have hfilters : ({ phase := .connectingPeers } : Standing).TakesAll
      ([10, 20, 32].map .fetchMissingFilters ++ (.beginHeaders 0
        :: ((headerCounts plan.headers).1.map (fun n => (plan.headerReport nowUnix n).report)
        ++ (discovery.map (·.report) ++ plan.heights.map .rescanProgress)))) :=
    ⟨rfl, rfl, rfl, rfl, hheaders⟩
  have hpeers : ∀ r ∈ (List.range plan.peers).map fun n => .peerConnected (Int32.ofNat (n + 1)),
      ({ phase := .connectingPeers } : Standing).takes r = true ∧
        ({ phase := .connectingPeers } : Standing).after r = { phase := .connectingPeers } := by
    intro r hr
    rcases List.mem_map.mp hr with ⟨n, _, rfl⟩
    exact ⟨rfl, rfl⟩
  simpa [reports, approach, headerReports, List.map_map, Function.comp_def] using
    hfilters.after_same hpeers

end SimulationPlan

end ChainSync
