import ChainSync.CommandLine.Answer
import ChainSync.Proofs.Controller.Start
import ChainSync.Proofs.Logging.Places
import ChainSync.Proofs.Simulation.Work

/-!
# The Trace of a Simulation

What is heard of a simulated sync, from its start to the answer of the program.

A start with good addresses leads to a simulation that is under way, with all of its
reports to come and one operation, also if a shutdown has come before it. From there on
everything has been shown of the work. What is left is the guard around the drive, which
never acts as long as there are not too many headers, and what the program makes of the
answer of the drive. A run of the program is one in which nothing comes from outside but
the time that the work waits for.

## Main definitions

* `SimulationPlan.routine`: The drive of a simulation with its guard.
* `CommandLine.SimulateOptions.fresh`: The engine before the start.
* `CommandLine.SimulateOptions.Told`: What a simulation comes to.

## Theorems

* `SimulationPlan.surely_routine`: A simulation that is under way.
* `CommandLine.SimulateOptions.underway`, `CommandLine.SimulateOptions.start_refused`: The
  two ends of the start.
* `CommandLine.SimulateOptions.surely_told`, `CommandLine.runSimulation_told`: Simulations
  with good addresses.
* `CommandLine.simulation_tells_trace`: All of it.
* `CommandLine.deadline_shows_as_cancellation`: A race between two watchers and the rescan.
-/

namespace ChainSync

open Routine Engine
open Coordinator (Derivation)

namespace SimulationPlan

variable {plan : SimulationPlan} {clock : WallClock} {hasty : Bool} {sync : Derivation}
  {ds : List Derivation} {e : Engine SimulationStage}

/-- Whether the run has been broken off. -/
def isBroken (e : Engine SimulationStage) : Option Unit := if e.own.broken then some () else none

/-- The drive of a simulation, which is given up once the run has been broken off. -/
def routine (plan : SimulationPlan) (clock : WallClock) (handle token : Nat) :
    Routine (Engine SimulationStage) (Except Unit (Except SyncError Unit)) :=
  (drive handle (plan.work clock token).run).unlessStopped isBroken

theorem play_eq (plan : SimulationPlan) (clock : WallClock) (handle token : Nat)
    (e : Engine SimulationStage) : plan.play clock handle token e =
      match run none (plan.routine clock handle token) e with
      | (some (.ok result), e) => (some result, e)
      | (_, e) => (none, e) := rfl

/-- A simulation that is under way comes to its end, and is never broken off. -/
theorem surely_routine (hsync : sync ∈ ds) (hroot : sync.parent = 0)
    (hfits : (headerCounts plan.headers).2 = false)
    (h : ∀ i, Underway (plan.trace (clock i)) false none ds (plan.reports (clock i)) e)
    (hlater : sync.time ≤ e.now) :
    (plan.routine clock sync.id sync.token).Surely (Outside hasty) attended
      (fun x e => ∃ a, x = .ok a ∧ ∃ whole, plan.tracesBy clock whole ∧
        Ended whole hasty sync.time sync.timeout plan.rescanTimeout a e) e := by
  have hbefore {whole taken began ds rest} {e : Engine SimulationStage}
      (h : Underway whole taken began ds rest e) : isBroken e = none := by
    rw [isBroken, h.own]
    rfl
  -- From outside, time goes on, and nothing else of what matters changes.
  have houtside {whole : Nat → List Event} {taken began ds} {rest : Nat → List Report}
      {e e' : Engine SimulationStage} {turns : Bool} (hout : e.Outside turns e')
      (h : ∀ i, Underway (whole i) taken began ds (rest i) e ∧ sync.time ≤ e.now) (i : Nat) :
      Underway (whole i) taken began ds (rest i) e' ∧ sync.time ≤ e'.now :=
    ⟨(h i).1.outside hout, Nat.le_trans (h i).2 hout.coordinator.now_le⟩
  have hattended {whole : Nat → List Event} {taken began ds} {rest : Nat → List Report} :
      Upholds (Outside hasty) attended Tidy fun e =>
        ∀ i, Underway (whole i) taken began ds (rest i) e ∧ sync.time ≤ e.now :=
    { between := houtside
      waits := fun _ h hK => ⟨⟨_, (h 0).1.undisturbed⟩, fun e₁ hout => hK e₁ (houtside hout h)⟩ }
  refine surely_unlessStopped fun e₁ he₁ => ?_
  have h₁ (i : Nat) := (h i).outside he₁
  have hlater₁ := Nat.le_trans hlater he₁.coordinator.now_le
  rw [hbefore (h₁ 0)]
  -- The guard stops nothing that is under way, so it demands nothing more of a wait.
  refine Surely.mono (isMono_attended.givenUp _ _) (fun a e hended => ⟨a, rfl, hended⟩)
    (surely_drive (isMono_attended.givenUp _ _) (isStable_attended.givenUp _ _) ?_
      hsync hroot hfits h₁ hlater₁)
  refine hattended.givenUp fun _ h hgone => ?_
  rw [hbefore (h 0).1] at hgone
  exact absurd hgone (by simp only [reduceCtorEq, not_false_eq_true])

end SimulationPlan

/-- An error is no fault if its code says that the operation has been called off or has run
    out of time. -/
theorem SyncError.isCancellation_iff (err : SyncError) : err.isCancellation = true ↔
    err.code = .cancelled ∨ err.code = .deadlineExceeded := by
  cases err <;> simp [SyncError.isCancellation, SyncError.code]

/-- A start concerns the controller and the coordinator only. -/
theorem Engine.start_eq {χ : Type} {e : Engine χ} {config : Config} {parent : Nat}
    {answer : Except SyncError SyncStart} {c : Controller} {k : Coordinator}
    (h : e.controller.start config e.coordinator parent e.instant = (answer, c, k)) :
    ∃ e', e.start config parent = (answer, e') ∧ e'.controller = c ∧ e'.coordinator = k ∧
      e'.own = e.own ∧ e'.slot = e.slot := by
  simp only [Engine.start, h]
  exact ⟨_, rfl, rfl, rfl, rfl, rfl⟩

namespace CommandLine

open SimulationPlan

namespace SimulateOptions

variable {o : SimulateOptions} {turns : Bool} {e₀ : Engine SimulationStage}

/-- The engine before the start, with a token for the sync and one observer. -/
def fresh (o : SimulateOptions) : Engine SimulationStage :=
  let e : Engine SimulationStage :=
    { controller := ({ network := o.network } : Controller).addObserver .silent, own := {} }
  let noted := match o.config.validate with
    | .ok () => e
    | .error err => e.note [.warn ("Configuration rejected: " ++ err.message)]
  { noted with coordinator := (noted.coordinator.makeToken none).2 }

theorem fresh_eq (o : SimulateOptions) : ∃ journal, o.fresh =
    { controller := ({ network := o.network } : Controller).addObserver .silent, own := {}
      coordinator := (({} : Coordinator).makeToken none).2, journal } := by
  unfold fresh
  cases o.config.validate with
  | ok _ => exact ⟨_, rfl⟩
  | error err => exact ⟨_, rfl⟩

/-- Before the start there is a token, and no operation. -/
theorem undisturbed (hout : o.fresh.Outside turns e₀) :
    e₀.coordinator.Undisturbed [] ∧ 0 < e₀.coordinator.forest.tokens.length := by
  have hempty : ({} : Coordinator).Undisturbed [] :=
    ⟨⟨[], Coordinator.recorded_empty, fun _ h => absurd h List.not_mem_nil⟩,
      fun _ h => absurd h List.not_mem_nil⟩
  have hmade : o.fresh.coordinator.Undisturbed [] := by
    rcases o.fresh_eq with ⟨_, hfresh⟩
    rw [hfresh]
    exact hempty.step (s := .op (.makeToken none)) (fun _ h => absurd h (by simp)) trivial
      fun _ h => absurd h List.not_mem_nil
  have hlength : o.fresh.coordinator.forest.tokens.length = 1 := by
    rcases o.fresh_eq with ⟨_, hfresh⟩
    rw [hfresh]
    rfl
  refine ⟨hmade.passes hout.coordinator, ?_⟩
  exact hlength.symm.le.trans hout.coordinator.grows.forest.length_le

/-- Before the start nobody has heard anything, and nothing is under way. -/
theorem untouched (hout : o.fresh.Outside turns e₀) :
    e₀.controller = ({ network := o.network } : Controller).addObserver .silent ∧
      e₀.controller.isSyncing = false ∧ e₀.own = {} ∧ e₀.slot.isTaken = false := by
  rcases o.fresh_eq with ⟨_, hfresh⟩
  rw [hout.controller, hout.own, hout.slot, hfresh]
  exact ⟨rfl, rfl, rfl, rfl⟩

/-- A start with good addresses leads to a simulation that is under way. -/
theorem underway (hout : o.fresh.Outside turns e₀) {addresses : List String}
    (h : o.config.Accepts addresses) : ∃ id e,
    let sync := e₀.coordinator.next 0 o.config.syncTimeout
    e₀.start o.config 0 = (.ok { session := id, peers := addresses, handle := sync.id }, e) ∧
      e.tokenOf? sync.id = some sync.token ∧ e.now = e₀.now ∧
      ∀ (plan : SimulationPlan) nowUnix,
        Underway (plan.trace nowUnix) false none [sync] (plan.reports nowUnix) e := by
  rcases untouched hout with ⟨hcontroller, hidle, hown₀, hslot⟩
  rcases undisturbed hout with ⟨hundisturbed, hroot⟩
  rcases Controller.begin_eq e₀.instant hidle with ⟨s, hs, _, hbegin⟩
  rcases Engine.start_eq (Controller.start_of_accepts e₀.coordinator 0 hbegin h) with
    ⟨e, hstart, hc, hk, hown, hkept⟩
  have hid : (e₀.coordinator.derive 0 o.config.syncTimeout).1 = e₀.coordinator.nextId :=
    congrArg Prod.fst (e₀.coordinator.derive_eq 0 o.config.syncTimeout)
  have hderived : e.coordinator.Undisturbed [e₀.coordinator.next 0 o.config.syncTimeout] :=
    hk ▸ hundisturbed.derive hroot o.config.syncTimeout
  have hfresh : s.standing = { phase := .connectingPeers } := by
    rw [Session.standing, hs.phase, hs.filters, hs.discovered, hs.rescanned, hs.terminal]
  rw [hid] at hstart
  refine ⟨e₀.controller.nextId, e, hstart, ?_, ?_, fun plan nowUnix => ?_⟩
  · rcases hderived.recorded with ⟨_, hr, _⟩
    rcases hr.tended.lineage.handle? (List.mem_singleton.mpr rfl) with ⟨g, hg, htoken⟩
    rw [Engine.tokenOf?, hg, Option.map_some, htoken]
  · rw [Engine.now, hk, Coordinator.now_derive, Engine.now]
  · have hexpects : e.controller.Expects (plan.trace nowUnix) (plan.reports nowUnix) := by
      rw [hc, hcontroller]
      refine ⟨⟨s, rfl, ?_⟩, Nat.zero_lt_one, plan.filterMap_reports nowUnix⟩
      rw [hfresh]
      exact plan.takesAll_reports nowUnix
    exact ⟨hexpects, hown.trans hown₀, hkept ▸ hslot, hderived⟩

/-- A start with a bad address is heard of once, and nothing else is. -/
theorem start_refused (hout : o.fresh.Outside turns e₀) {err : SyncError}
    (h : o.config.normalizedPeers = .error err) :
    ∃ e, e₀.start o.config 0 = (.error err, e) ∧
      e.controller.heard 0 = [.syncError err.code err] := by
  rcases untouched hout with ⟨hcontroller, hidle, _⟩
  rcases Controller.begin_eq e₀.instant hidle with ⟨s, hs, hactive, hbegin⟩
  rcases Controller.start_of_refused e₀.coordinator 0 hbegin rfl hactive h with
    ⟨s', _, _, _, hstart⟩
  rcases Engine.start_eq hstart with ⟨e, heq, hc, _⟩
  refine ⟨e, heq, ?_⟩
  rw [hc, hcontroller]
  rfl

/-! ## The answer -/

/-- What a simulation with good addresses comes to: observers have heard the trace of the
    plan or a beginning of it, and the command succeeds. -/
structure Told (s : Surroundings) (o : SimulateOptions) (hasty : Bool) (since : Nat)
    (answer : Except SyncError Unit) (e : Engine SimulationStage) : Prop where
  ended : ∃ instant, Ended ((o.plan o.peers.length).trace (s.wallClock instant)) hasty since
    o.config.syncTimeout o.config.rescanTimeout answer e
  succeeds : (afterDrive s o.headers e (some answer)).exit = 0

/-- An end that is excused is no fault. -/
theorem told_of_ended {s : Surroundings} {hasty : Bool} {since instant : Nat}
    {answer : Except SyncError Unit} {e : Engine SimulationStage}
    (h : Ended ((o.plan o.peers.length).trace (s.wallClock instant)) hasty since
      o.config.syncTimeout o.config.rescanTimeout answer e) : Told s o hasty since answer e := by
  refine ⟨⟨instant, h⟩, ?_⟩
  rcases h with ⟨rfl, _⟩ | ⟨_, err, _, rfl, _, hexcused⟩
  · rfl
  · have hstopped : err.isCancellation = true :=
      (err.isCancellation_iff).mpr (hexcused.imp And.left And.left)
    simp only [afterDrive, hstopped, if_true]

/-- A simulation with good addresses comes to its end, if no sum of headers is too great. -/
theorem surely_told_of_whole (s : Surroundings)
    (hfits : (SimulationPlan.headerCounts o.headers).2 = false)
    {addresses : List String} (haccepts : o.config.Accepts addresses) {hasty : Bool}
    (hout : o.fresh.Outside hasty e₀) :
    ∃ start e, e₀.start o.config 0 = (.ok start, e) ∧ start.peers.length = o.peers.length ∧
      ((o.plan o.peers.length).routine s.wallClock start.handle
        ((e.tokenOf? start.handle).getD 0)).Surely (Outside hasty) attended
        (fun x e' => ∃ a, x = .ok a ∧ Told s o hasty e₀.now a e') e := by
  rcases underway hout haccepts with ⟨id, e, hstart, htoken, hnow, hunderway⟩
  refine ⟨_, e, hstart, haccepts.length_eq.symm, ?_⟩
  rw [htoken, Option.getD_some]
  refine Surely.mono isMono_attended (fun x e' => ?_)
    (surely_routine (List.mem_singleton.mpr rfl) rfl hfits
      (fun i => hunderway (o.plan o.peers.length) (s.wallClock i)) hnow.symm.le)
  rintro ⟨a, rfl, _, ⟨instant, rfl⟩, hended⟩
  exact ⟨a, rfl, told_of_ended hended⟩

theorem surely_told (s : Surroundings) (hmost : o.headers.toInt ≤ mostHeaders)
    {addresses : List String} (haccepts : o.config.Accepts addresses) {hasty : Bool}
    (hout : o.fresh.Outside hasty e₀) :
    ∃ start e, e₀.start o.config 0 = (.ok start, e) ∧ start.peers.length = o.peers.length ∧
      ((o.plan o.peers.length).routine s.wallClock start.handle
        ((e.tokenOf? start.handle).getD 0)).Surely (Outside hasty) attended
        (fun x e' => ∃ a, x = .ok a ∧ Told s o hasty e₀.now a e') e :=
  surely_told_of_whole s (SimulationPlan.headerCounts_spec (.inl hmost)).1 haccepts hout

end SimulateOptions

theorem runSimulation_eq (s : Surroundings) (o : SimulateOptions) : runSimulation s o =
    match o.fresh.start o.config 0 with
    | (.error err, e) => { s.fault err.message with journal := e.journal.reverse }
    | (.ok start, e) =>
      let played := (o.plan start.peers.length).play s.wallClock start.handle
        ((e.tokenOf? start.handle).getD 0) e
      afterDrive s o.headers played.2 played.1 := by
  unfold runSimulation SimulateOptions.fresh
  cases o.config.validate <;> rfl

/-- The exit code is that of the simulation once logging is set up. -/
theorem exit_simulate {s : Surroundings} {o : SimulateOptions} {files : Directory}
    {lines : List Line} (h : setUpLoggingBy s.system o.config.logging false "" s.files
      s.now.seconds = (.ok (), files, lines)) :
    (simulate s o).exit = (runSimulation { s with files } o).exit := by
  simp only [simulate, h]

/-- Where no directory for log files can be made, the command fails. -/
theorem exit_simulate_of_makePath {s : Surroundings} {o : SimulateOptions} {dir : String}
    {e : FileError} {root : Directory} (hdir : o.logDir = some dir)
    (h : s.files.makePath dir s.now.seconds = (.error e, root)) :
    (simulate s o).exit = faultCode := by
  let files : LogFiles := { dir, maxFiles := o.config.maxLogFiles }
  have hpath : joinPath "" files.dir = dir := by simp [joinPath, files]
  have hopened := openLogFilesBy_of_makePath s.system (hpath.symm ▸ h)
  have hfiles : o.config.logging.files = some files := by
    simp only [Config.logging, SimulateOptions.config, hdir, Option.map_some, files]
  simp only [simulate, setUpLoggingBy, hfiles, hopened, Option.isNone_some, Bool.and_false,
    Bool.false_eq_true, if_false]
  rfl

section

variable (s : Surroundings) {o : SimulateOptions}

/-- A run of the program with good addresses. Nothing comes from outside but time. -/
theorem runSimulation_told_of_whole (hfits : (SimulationPlan.headerCounts o.headers).2 = false)
    {addresses : List String}
    (haccepts : o.config.Accepts addresses) : ∃ start e a e',
    o.fresh.start o.config 0 = (.ok start, e) ∧
      (o.plan o.peers.length).play s.wallClock start.handle ((e.tokenOf? start.handle).getD 0) e =
        (some a, e') ∧
      runSimulation s o = afterDrive s o.headers e' (some a) ∧ o.Told s false 0 a e' := by
  have hzero : o.fresh.now = 0 := by
    rcases o.fresh_eq with ⟨_, hfresh⟩
    rw [hfresh]
    rfl
  have hself : o.fresh.Outside false o.fresh := .refl o.fresh
  rcases SimulateOptions.surely_told_of_whole s hfits haccepts hself with
    ⟨start, e, hstart, hpeers, hsurely⟩
  rcases run_of_surely hsurely with ⟨x, e', hrun, a, rfl, htold⟩
  have hplay : (o.plan o.peers.length).play s.wallClock start.handle
      ((e.tokenOf? start.handle).getD 0) e = (some a, e') := by
    rw [play_eq, hrun]
  refine ⟨start, e, a, e', hstart, hplay, ?_, hzero ▸ htold⟩
  rw [runSimulation_eq, hstart]
  simp only [hpeers, hplay]

theorem runSimulation_told (hmost : o.headers.toInt ≤ mostHeaders) {addresses : List String}
    (haccepts : o.config.Accepts addresses) : ∃ start e a e',
    o.fresh.start o.config 0 = (.ok start, e) ∧
      (o.plan o.peers.length).play s.wallClock start.handle ((e.tokenOf? start.handle).getD 0) e =
        (some a, e') ∧
      runSimulation s o = afterDrive s o.headers e' (some a) ∧ o.Told s false 0 a e' :=
  runSimulation_told_of_whole s (SimulationPlan.headerCounts_spec (.inl hmost)).1 haccepts

/-- A run of the program with a bad address. -/
theorem exit_runSimulation_refused {err : SyncError} (h : o.config.normalizedPeers = .error err) :
    (runSimulation s o).exit = faultCode := by
  have hself : o.fresh.Outside false o.fresh := .refl o.fresh
  rcases SimulateOptions.start_refused hself h with ⟨e, hstart, _⟩
  rw [runSimulation_eq, hstart]
  rfl

end

/-- A simulation tells what its plan says. The numbers in its trace are those of the plan.
    With good addresses, and whenever a shutdown or a deadline comes, observers hear a
    beginning of the trace and then one error, which says what has stopped the sync, or all
    of the trace and then that the sync is done; the command succeeds either way. With a bad
    address they hear of that alone, and the command fails.

    Watchers have their turns while the work waits. If they may also have them in between
    (`hasty`), a deadline of the sync can show as a cancellation of its rescan. -/
theorem simulation_tells_trace (s : Surroundings) (o : SimulateOptions)
    (hmost : o.headers.toInt ≤ mostHeaders) :
    let plan := o.plan o.peers.length
    (plan.peers = max o.peers.length 1 ∧ plan.headers = o.headers ∧ plan.Counted) ∧
    ((∀ peer ∈ o.peers, ∃ address,
        Address.normalize peer o.network.defaultPort = .ok address) →
      (∀ hasty e₀, o.fresh.Outside hasty e₀ → ∃ start e, e₀.start o.config 0 = (.ok start, e) ∧
        (plan.routine s.wallClock start.handle ((e.tokenOf? start.handle).getD 0)).Surely
          (Outside hasty) (amid (Outside true))
          (fun x e' => ∃ a, x = .ok a ∧ o.Told s hasty e₀.now a e') e) ∧
      (∃ start e a e', o.fresh.start o.config 0 = (.ok start, e) ∧
        plan.play s.wallClock start.handle ((e.tokenOf? start.handle).getD 0) e = (some a, e') ∧
        runSimulation s o = afterDrive s o.headers e' (some a) ∧ o.Told s false 0 a e') ∧
      ∀ files lines,
        setUpLoggingBy s.system o.config.logging false "" s.files s.now.seconds =
          (.ok (), files, lines) →
        (simulate s o).exit = 0) ∧
    ((∃ peer ∈ o.peers, ∃ fault,
        Address.normalize peer o.network.defaultPort = .error fault) →
      (∀ turns e₀, o.fresh.Outside turns e₀ → ∃ err e, e₀.start o.config 0 = (.error err, e) ∧
        e.controller.heard 0 = [.syncError .invalidAddress err]) ∧
      (simulate s o).exit = faultCode) := by
  refine ⟨⟨rfl, rfl, counted hmost⟩, fun hgood => ?_, fun hbad => ?_⟩
  · rcases (o.config.accepts_iff_forall).mpr hgood with ⟨addresses, haccepts⟩
    refine ⟨fun hasty e₀ hout => ?_, runSimulation_told s hmost haccepts, fun files lines h => ?_⟩
    · rcases SimulateOptions.surely_told s hmost haccepts hout with ⟨start, e, hstart, _, hsurely⟩
      exact ⟨start, e, hstart, hsurely.weaken (isMono_amid _) fun _ _ _ h => h.2⟩
    · rcases runSimulation_told { s with files } hmost haccepts with
        ⟨_, _, _, _, _, _, hrun, htold⟩
      rw [exit_simulate h, hrun]
      exact htold.succeeds
  · rcases hbad with ⟨peer, hpeer, fault, hfault⟩
    rcases o.config.accepts_or_refused with ⟨addresses, haccepts, _⟩ | ⟨_, fault, _, hrefused⟩
    · rcases (o.config.accepts_iff_forall).mp ⟨addresses, haccepts⟩ peer hpeer with ⟨_, haddress⟩
      exact absurd (hfault.symm.trans haddress) (by simp only [reduceCtorEq, not_false_eq_true])
    · refine ⟨fun turns e₀ hout => ?_, ?_⟩
      · rcases SimulateOptions.start_refused hout hrefused with ⟨e, hstart, hheard⟩
        exact ⟨_, e, hstart, hheard⟩
      · -- Logging may fail as well, and that is a fault too.
        rcases hlogging : setUpLoggingBy s.system o.config.logging false "" s.files
          s.now.seconds with ⟨_ | _, files, lines⟩
        · simp only [simulate, hlogging]
          rfl
        · rw [exit_simulate hlogging]
          exact exit_runSimulation_refused _ hrefused

/-- Two simulations of a hundred headers, where a second peer has a bad address or none. -/
theorem small_simulations_tell_trace :
    let s : Surroundings := .of { seconds := 1700000000 }
    let good : SimulateOptions :=
      { network := .testnet, peers := ["127.0.0.1"], headers := 100, rescanBlocks := 10, step := 5
        timeout := some 60, rescanTimeout := some 2, logFilter := .info, logDir := none }
    let bad : SimulateOptions := { good with peers := ["127.0.0.1", "[::1"] }
    (good.headers.toInt ≤ mostHeaders ∧ ∀ peer ∈ good.peers, ∃ address,
      Address.normalize peer good.network.defaultPort = .ok address) ∧
    (∃ peer ∈ bad.peers, ∃ fault,
      Address.normalize peer bad.network.defaultPort = .error fault) ∧
    (∃ a e, runSimulation s good = afterDrive s 100 e (some a) ∧ good.Told s false 0 a e) ∧
    (simulate s good).exit = 0 ∧ (simulate s bad).exit = faultCode := by
  intro s good bad
  have hmost : good.headers.toInt ≤ mostHeaders := by decide
  have hgood : ∀ peer ∈ good.peers, ∃ address,
      Address.normalize peer good.network.defaultPort = .ok address :=
    List.forall_mem_singleton.mpr ⟨"127.0.0.1:19108", by cbv⟩
  have hbad : ∃ peer ∈ bad.peers, ∃ fault,
      Address.normalize peer bad.network.defaultPort = .error fault :=
    ⟨"[::1", List.mem_cons_of_mem _ (List.mem_singleton.mpr rfl), ⟨"[::1", .missingBracket⟩, by cbv⟩
  rcases (simulation_tells_trace s good hmost).2.1 hgood with ⟨_, ⟨_, _, a, e, _, _, hrun⟩, hexit⟩
  exact ⟨⟨hmost, hgood⟩, hbad, ⟨a, e, hrun⟩, hexit _ _ rfl,
    ((simulation_tells_trace s bad hmost).2.2 hbad).2⟩

/-- What else goes on in a race: the clock moves on, and at one point, when the rescan is about
    to look at its handle for the first time, the deadline of the sync passes and all watchers
    have their turns. -/
def raced (step : Nat) (e : Engine SimulationStage) : Engine SimulationStage :=
  if step = 46 then (e.settle.moveTo 5000).settle else e.moveTo (e.now + 1)

theorem outside_raced (step : Nat) (e : Engine SimulationStage) :
    e.Outside true (raced step e) := by
  unfold raced
  split
  · exact (outside_settle e).trans ((outside_moveTo _ 5000).trans (outside_settle _))
  · exact outside_moveTo e _

/-- Without a shutdown a simulation may end with the code of a cancellation, since the watcher
    of the sync cancels the rescan below it as well. And where there is no directory for the
    log files, the command fails before anything is told. -/
theorem deadline_shows_as_cancellation :
    let o : SimulateOptions :=
      { network := .testnet, peers := [], headers := 0, rescanBlocks := 0, step := 0
        timeout := some 1, rescanTimeout := none, logFilter := .error, logDir := none }
    (∃ start e err e', o.fresh.start o.config 0 = (.ok start, e) ∧
      ((o.plan 0).routine (fun _ => 0) start.handle ((e.tokenOf? start.handle).getD 0)).RunsAmong
        now (Outside true) e (.ok (.error err)) e' ∧
      err.code = .cancelled ∧ e'.coordinator.fired = false) ∧
    (simulate (.of { seconds := 1700000000 } [("dev", .directory [("null", .file "" 0)] 0)])
      { o with logDir := some "/dev/null/x" }).exit = faultCode := by
  intro o
  have hstart : o.fresh.start o.config 0 =
      (.ok { session := 1, peers := [], handle := 1 }, (o.fresh.start o.config 0).2) :=
    Prod.ext rfl rfl
  generalize hrace : ((o.plan 0).routine (fun _ => 0) 1
    (((o.fresh.start o.config 0).2.tokenOf? 1).getD 0)).runAmid now raced 0
    (o.fresh.start o.config 0).2 = race
  have hend : race.1 = some (.ok (.error (.cancelled
      "Operation cancelled: parent operation cancelled"))) ∧
      race.2.coordinator.fired = false := by
    rw [← hrace]
    decide +kernel
  have hrun := runsAmong_of_runAmid .refl outside_raced (hrace.trans (Prod.ext hend.1 rfl))
  refine ⟨⟨_, _, _, _, hstart, hrun, rfl, hend.2⟩, ?_⟩
  have hsteps : pathSteps "/dev/null/x" = [.into "dev", .into "null", .into "x"] := by
    rw [pathSteps_eq]
    decide
  have hnone : Directory.makePath [("dev", .directory [("null", .file "" 0)] 0)] "/dev/null/x"
      1700000000 = (.error .notDirectory, [("dev", .directory [("null", .file "" 0)] 0)]) := by
    rw [Directory.makePath, hsteps]
    rfl
  exact exit_simulate_of_makePath rfl hnone

end CommandLine

end ChainSync
