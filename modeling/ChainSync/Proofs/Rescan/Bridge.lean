import ChainSync.Controller.Drive
import ChainSync.Proofs.Controller.Rescanned
import ChainSync.Proofs.Engine.Moves
import ChainSync.Proofs.Rescan.Replies
import ChainSync.Proofs.Rescan.Steps
import ChainSync.Proofs.Routine.Heeding

/-!
# Rescans Reported to a Session

What a session and a rescan know of each other when the one is told how far the
other has come.

Two things go on at the same time, and either can end first. While a block is
scanned, others may take the session further, end it or begin another one, and
whatever they do is part of the controller that the next height is reported to.
So nothing can be said of a height without the controller at that moment. The
bridge is watched therefore: each report is put on record with the controller
right before and right after it. The watched bridge is also run on tape, so that
the record can be compared with what was scanned.

A session that is under way takes every height, counted or not, so the rescan
goes on. It is asked to stop by the first height that there is no session for.
That the record says so is shown change by change: the rescan itself does
nothing to the controller (`Overlooks`), and neither scanner nor others do more
than call it. So the record is right at every moment, also of a rescan that is
never over, and `Replies` tells what follows for the end.

## Main definitions

* `Crossing`, `Watched`: A report with the controller around it.
* `BlockScanner.watched`, `ScanObserver.watched`: Scanner and observer on record.
* `Crossing.Honest`: What a report is answered, and what it tells.
* `Engine.bridgedRescan`: A rescan that is reported to a session.
* `Engine.Bridging`: The record and the end of a rescan.

## Theorems

* `Engine.honest_bridge`: A single report.
* `Engine.keeps_bridge`, `Engine.does_scan_bridged`: The parts of a rescan.
* `Replies.bridging`: The end of a rescan.
* `Engine.bridged_rescan_heeds_sessions`: All of it.
-/

namespace ChainSync

/-- A height that was reported, with the controller right before and after. -/
structure Crossing where
  height : Int32
  answer : ScanAnswer
  before : Controller
  after : Controller

/-- The height and the answer alone. -/
def Crossing.reply (c : Crossing) : Int32 × ScanAnswer := (c.height, c.answer)

/-- Observers hear what they are due to hear of a height and nothing else, and the rescan is
    asked to go on as long as a session is under way. -/
structure Crossing.Honest (c : Crossing) : Prop where
  told : c.after.observers = (c.before.emit? (c.before.due c.height)).observers
  answer : c.answer = if c.before.isSyncing then .goOn else .stop

/-- A state with a record. -/
structure Watched (χ : Type) where
  own : χ
  crossings : List Crossing := []
  /-- The controller before and after each call about the end of a rescan. -/
  endings : List (Controller × Controller) := []

namespace Engine

variable {χ : Type}

/-- The engine without the record. -/
def unwatched (e : Engine (Watched χ)) : Engine χ := { e with own := e.own.own }

/-- The engine with the record of another one. -/
def rewatched (e : Engine χ) (watch : Engine (Watched χ)) : Engine (Watched χ) :=
  { e with own := { watch.own with own := e.own } }

/-- Puts a report on record. -/
def recordCrossing (c : Crossing) : Engine (Watched χ) → Engine (Watched χ) :=
  modifyOwn fun w => { w with crossings := w.crossings ++ [c] }

/-- Puts a call about the end on record. -/
def recordEnding (before after : Controller) : Engine (Watched χ) → Engine (Watched χ) :=
  modifyOwn fun w => { w with endings := w.endings ++ [(before, after)] }

/-- The reports so far. -/
def crossings (e : Engine (Taped (Watched χ))) : List Crossing := e.own.own.crossings

/-- The calls about ends so far. -/
def endings (e : Engine (Taped (Watched χ))) : List (Controller × Controller) := e.own.own.endings

end Engine

/-- A scanner that cannot get at the record. -/
def BlockScanner.watched {χ : Type} (scan : BlockScanner χ) : BlockScanner (Watched χ) :=
  fun height => (scan height).lift Engine.unwatched Engine.rewatched

/-- An observer whose calls are put on record. -/
def ScanObserver.watched {χ : Type} (observer : ScanObserver χ) : ScanObserver (Watched χ) where
  onScan height e :=
    let (answer, e') := observer.onScan height e.unwatched
    (answer, (e'.rewatched e).recordCrossing ⟨height, answer, e.controller, e'.controller⟩)
  onEnd height cancelled e :=
    let (panic, e') := observer.onEnd height cancelled e.unwatched
    (panic, (e'.rewatched e).recordEnding e.controller e'.controller)
  onError code message e :=
    let (panic, e') := observer.onError code message e.unwatched
    (panic, (e'.rewatched e).recordEnding e.controller e'.controller)

namespace Engine

variable {χ : Type} {e e' e'' : Engine χ}

/-- The controller has only been called. -/
def Called (e e' : Engine χ) : Prop := ∃ calls, e'.controller = e.controller.run calls

theorem Called.of_eq (h : e'.controller = e.controller) : e.Called e' := ⟨[], h⟩

theorem Called.trans (h : e.Called e') (h' : e'.Called e'') : e.Called e'' := by
  rcases h with ⟨calls, hcalls⟩
  rcases h' with ⟨more, hmore⟩
  exact ⟨calls ++ more, by rw [hmore, hcalls, Controller.run_append]⟩

theorem called_report (e : Engine χ) (r : Report) : e.Called (e.report r).2 :=
  (e.moves_report r).calls.imp fun _ h => h.2

/-! ## A single report -/

/-- A height that is reported to a controller whose session calls have led to. -/
theorem honest_bridge (he : ∀ s, e.controller.session = some s → s.Reachable) (height : Int32) :
    (Crossing.mk height (bridge.onScan height e).1 e.controller
      (bridge.onScan height e).2.controller).Honest := by
  cases hsync : e.controller.isSyncing with
  | true =>
      rcases Controller.report_due he hsync height e.instant with ⟨s', hreport⟩
      constructor
      · simp only [bridge, report, hreport]
        cases e.controller.due height <;> rfl
      · simp only [bridge, report, hreport, hsync]
        rfl
  | false =>
      rcases Controller.report_refused hsync height e.instant with ⟨why, hreport⟩
      constructor
      · simp only [bridge, report, hreport, Controller.due_eq_none hsync]
        rfl
      · simp only [bridge, report, hreport, hsync]
        rfl

/-! ## The changes of a rescan -/

/-- The controller has been called, and what was reported to it is on record. -/
structure Bridged (e e' : Engine (Taped (Watched χ))) : Prop where
  called : e.Called e'
  record : ∃ calls crossings endings, e'.calls = e.calls ++ calls ∧
    e'.crossings = e.crossings ++ crossings ∧ e'.endings = e.endings ++ endings ∧
    crossings.map Crossing.reply = calls.filterMap ScanCall.reply? ∧
    (∀ c ∈ crossings, (∃ before, c.before = e.controller.run before) ∧
      ((∀ s, c.before.session = some s → s.Reachable) → c.Honest)) ∧
    ∀ p ∈ endings, p.2 = p.1

namespace Bridged

variable {e e' e'' : Engine (Taped (Watched χ))}

/-- A step that reports nothing. -/
theorem of_called (calls : List ScanCall) (h : e.Called e') (hcalls : e'.calls = e.calls ++ calls)
    (hnone : calls.filterMap ScanCall.reply? = []) (hcrossings : e'.crossings = e.crossings)
    (hendings : e'.endings = e.endings) : e.Bridged e' := by
  refine ⟨h, calls, [], [], hcalls, ?_, ?_, hnone.symm, ?_, ?_⟩
  · rw [List.append_nil, hcrossings]
  · rw [List.append_nil, hendings]
  · exact fun _ hc => absurd hc List.not_mem_nil
  · exact fun _ hp => absurd hp List.not_mem_nil

theorem trans (h : e.Bridged e') (h' : e'.Bridged e'') : e.Bridged e'' := by
  rcases h.record with ⟨calls, crossings, endings, hcalls, hcrossings, hendings, hreply, hc, hp⟩
  rcases h'.record with ⟨calls', crossings', endings', hcalls', hcrossings', hendings', hreply',
    hc', hp'⟩
  refine ⟨h.called.trans h'.called, calls ++ calls', crossings ++ crossings', endings ++ endings',
    ?_, ?_, ?_, ?_, ?_, ?_⟩
  · rw [hcalls', hcalls, List.append_assoc]
  · rw [hcrossings', hcrossings, List.append_assoc]
  · rw [hendings', hendings, List.append_assoc]
  · rw [List.map_append, List.filterMap_append, hreply, hreply']
  · intro c hmem
    rcases List.mem_append.mp hmem with hmem | hmem
    · exact hc c hmem
    · -- What was called first leads up to the later reports.
      rcases hc' c hmem with ⟨⟨before, hbefore⟩, hhonest⟩
      rcases h.called with ⟨first, hfirst⟩
      exact ⟨⟨first ++ before, by rw [hbefore, hfirst, Controller.run_append]⟩, hhonest⟩
  · intro p hmem
    exact (List.mem_append.mp hmem).elim (hp p) (hp' p)

end Bridged

theorem overlooks_bridged : Overlooks (Bridged (χ := χ)) where
  aside e e' hcontroller _ hown := by
    refine .of_called [] (.of_eq hcontroller) ?_ rfl ?_ ?_
    · rw [List.append_nil, calls, hown]
      rfl
    · rw [crossings, hown]
      rfl
    · rw [endings, hown]
      rfl
  trans := Bridged.trans

/-- A scanner that only calls the controller. -/
theorem does_scan_bridged {scan : BlockScanner χ} {height : Int32} (h : (scan height).Does Called) :
    (scan.watched.taped height).Does Bridged := by
  have hjot (call : ScanCall) (hcall : call.reply? = none) :
      (Routine.update (jot call)).Does (Bridged (χ := χ)) := by
    refine Overlooks.does_update fun e => ?_
    refine .of_called [call] (.of_eq rfl) rfl ?_ rfl rfl
    rw [List.filterMap_cons, hcall]
    rfl
  -- It can get at neither the record nor the tape.
  have hwatched : (scan.watched height).Does fun e e' => e.Called e' ∧ e'.own.crossings =
      e.own.crossings ∧ e'.own.endings = e.own.endings := h.lift fun e e' he => ⟨he, rfl, rfl⟩
  have htaped : ((scan.watched height).lift untaped retaped).Does Bridged :=
    hwatched.lift fun e e' he =>
      .of_called [] he.1 (List.append_nil _).symm rfl he.2.1 he.2.2
  refine (hjot (.scanBlock height) rfl).bind fun _ => htaped.bind fun result => ?_
  exact (hjot (.scanned height result) rfl).bind fun _ => trivial

/-- A call about the end leaves the controller alone. -/
theorem bridged_ending {e e' : Engine (Taped (Watched χ))} (call : ScanCall)
    (hcontroller : e'.controller = e.controller) (hcalls : e'.calls = e.calls ++ [call])
    (hnone : call.reply? = none) (hcrossings : e'.crossings = e.crossings)
    (hendings : e'.endings = e.endings ++ [(e.controller, e.controller)]) : e.Bridged e' := by
  refine ⟨.of_eq hcontroller, [call], [], [_], hcalls, ?_, hendings, ?_, ?_, ?_⟩
  · rw [hcrossings, List.append_nil]
  · rw [List.filterMap_cons, hnone]
    rfl
  · exact fun _ hc => absurd hc List.not_mem_nil
  · intro p hp
    rw [List.mem_singleton.mp hp]

theorem keeps_bridge : (bridge (χ := χ)).watched.taped.Keeps Bridged where
  onScan height e := by
    refine ⟨called_report e.untaped.unwatched _, [.onScan height _], [_], [], rfl, rfl,
      (List.append_nil _).symm, rfl, ?_, fun _ hp => absurd hp List.not_mem_nil⟩
    intro c hc
    rw [List.mem_singleton.mp hc]
    exact ⟨⟨[], rfl⟩, fun he => honest_bridge (e := e.untaped.unwatched) he height⟩
  onEnd height cancelled e := bridged_ending (.onEnd height cancelled none) rfl rfl rfl rfl rfl
  onError code message e := bridged_ending (.onError code message none) rfl rfl rfl rfl rfl

/-! ## A whole rescan -/

/-- The record and the end of a rescan. -/
structure Bridging (start target : Int32) (calls : List ScanCall) (crossings : List Crossing)
    (x : Except Panic RescanOutcome) : Prop where
  /-- The heights that were reported are those that have been scanned. -/
  scanned : calls.filterMap ScanCall.scanned? = crossings.map (·.height)
  heights : crossings.map (·.height) = (List.range crossings.length).map (heightAt start)
  length_le : crossings.length ≤ blockCount start target
  /-- A height that there is no session for is the last one. -/
  stopped : ∀ front c back, crossings = front ++ c :: back → c.before.isSyncing = false →
    back = [] ∧ x = .ok (.cancelled c.height)
  /-- Nothing else makes the observer stop a rescan. -/
  cancelled : ∀ height, x = .ok (.cancelled height) →
    ∃ front c, crossings = front ++ [c] ∧ c.height = height ∧ c.before.isSyncing = false
  /-- A rescan that is completed has found a session at all of its heights. -/
  completed : ∀ height, x = .ok (.completed height) → height = target ∧
    ∀ h, start ≤ h → h ≤ target → ∃ c ∈ crossings, c.height = h ∧ c.before.isSyncing = true

end Engine

open Engine

/-- The heights of a range are at places of it. -/
theorem exists_heightAt {start target height : Int32} (hstart : start ≤ height)
    (htarget : height ≤ target) : ∃ i < blockCount start target, heightAt start i = height := by
  rw [Int32.le_iff_toInt_le] at hstart htarget
  have hi : (height.toInt - start.toInt).toNat < blockCount start target := by
    rw [blockCount]
    omega
  refine ⟨_, hi, Int32.toInt_inj.mp ?_⟩
  rw [(toInt_heightAt hi).1]
  omega

/-- The end of a rescan whose answers were honest. -/
theorem Replies.bridging {start target : Int32} {calls : List ScanCall}
    {crossings : List Crossing} {x : Except Panic RescanOutcome}
    (h : Replies (blockCount start target) start target calls (crossings.map Crossing.reply) x)
    (hhonest : ∀ c ∈ crossings, c.Honest) : Bridging start target calls crossings x where
  scanned := by
    rw [h.scanned, List.map_map]
    rfl
  heights := by
    have hheights := h.heights
    rw [List.map_map, List.length_map] at hheights
    exact hheights
  length_le := by
    have hlength := h.length_le
    rwa [List.length_map] at hlength
  stopped front c back hsplit hsync := by
    have hanswer : c.answer = .stop := by
      rw [(hhonest c (hsplit ▸ List.mem_append_right _ List.mem_cons_self)).answer, hsync]
      rfl
    have hreplies : crossings.map Crossing.reply =
        front.map Crossing.reply ++ (c.height, .stop) :: back.map Crossing.reply := by
      rw [hsplit, List.map_append, List.map_cons, Crossing.reply, hanswer]
    exact (h.stopped _ _ _ hreplies).imp_left List.map_eq_nil_iff.mp
  cancelled height hx := by
    rcases h.cancelled height hx with ⟨said, hsaid⟩
    rcases List.map_eq_append_iff.mp hsaid with ⟨front, last, rfl, _, hlast⟩
    rcases List.map_eq_singleton_iff.mp hlast with ⟨c, rfl, hc⟩
    refine ⟨front, c, rfl, congrArg Prod.fst hc, ?_⟩
    have hanswer := (hhonest c (List.mem_append_right _ List.mem_cons_self)).answer
    rw [show c.answer = .stop from congrArg Prod.snd hc] at hanswer
    cases hsync : c.before.isSyncing with
    | false => rfl
    | true => simp [hsync] at hanswer
  completed height hx := by
    rcases h.completed height hx with ⟨htarget, hlength, hall⟩
    refine ⟨htarget, fun k hstart hend => ?_⟩
    rcases exists_heightAt hstart hend with ⟨i, hi, rfl⟩
    -- As many heights were reported as there are, so this one was.
    have hmem : heightAt start i ∈ (crossings.map Crossing.reply).map Prod.fst := by
      rw [h.heights, hlength]
      exact List.mem_map_of_mem (List.mem_range.mpr hi)
    rcases List.mem_map.mp hmem with ⟨_, hreply, hheight⟩
    rcases List.mem_map.mp hreply with ⟨c, hc, rfl⟩
    refine ⟨c, hc, hheight, ?_⟩
    have hanswer := (hhonest c hc).answer
    rw [show c.answer = .goOn from hall _ hreply] at hanswer
    cases hsync : c.before.isSyncing with
    | true => rfl
    | false => simp [hsync] at hanswer

namespace Engine

variable {χ : Type}

/-- A rescan that is reported to a session, on tape and on record. -/
def bridgedRescan (scan : BlockScanner χ) (handle : Nat) (start target : Int32) :
    Routine (Engine (Taped (Watched χ))) (Except Panic RescanOutcome) :=
  rescan scan.watched.taped bridge.watched.taped handle start target

/-- The bridge keeps rescan and session honest with each other, whatever others do to the
    controller in the meantime. At every moment of a rescan, all heights that were reported
    have told observers what was due: the height itself if a session was under way that had
    not come further, and nothing otherwise, or below zero. Nothing else is told on behalf of
    the bridge. When the rescan is over, the reported heights are those that were scanned,
    one after the other. It was stopped by its observer at the first of them for which no
    session was under way, and only there, so heights that a session drops do not stop it;
    and if it is completed, there was a session at each of its heights. -/
theorem bridged_rescan_heeds_sessions (scan : BlockScanner χ) (handle : Nat) (start target : Int32)
    (hscan : ∀ height, (scan height).Does Called)
    (others : Engine (Taped (Watched χ)) → Engine (Taped (Watched χ)) → Prop)
    (hothers : ∀ e e', others e e' → e.Called e' ∧ e'.calls = e.calls ∧
      e'.crossings = e.crossings ∧ e'.endings = e.endings)
    {e e' : Engine (Taped (Watched χ))}
    (hsession : ∀ s, e.controller.session = some s → s.Reachable)
    {rest : Routine (Engine (Taped (Watched χ))) (Except Panic RescanOutcome)}
    (hrun : (bridgedRescan scan handle start target).Comes now others e rest e') :
    ∃ calls crossings endings, e'.calls = e.calls ++ calls ∧
      e'.crossings = e.crossings ++ crossings ∧ e'.endings = e.endings ++ endings ∧
      crossings.map Crossing.reply = calls.filterMap ScanCall.reply? ∧
      (∀ c ∈ crossings, c.Honest) ∧ (∀ p ∈ endings, p.2 = p.1) ∧
      ∀ x, rest = .done x → Bridging start target calls crossings x := by
  have hdoes : (bridgedRescan scan handle start target).Does Bridged :=
    overlooks_bridged.does_rescan (fun height => does_scan_bridged (hscan height)) keeps_bridge
      handle start target
  have hsteps (e e' : Engine (Taped (Watched χ))) (h : others e e') : e.Bridged e' := by
    rcases hothers e e' h with ⟨hcalled, hcalls, hcrossings, hendings⟩
    exact .of_called [] hcalled (hcalls.trans (List.append_nil _).symm) rfl hcrossings
      hendings
  have hbridged : e.Bridged e' :=
    (Routine.Comes.keeps overlooks_bridged.refl Bridged.trans hsteps hdoes hrun).1
  rcases hbridged.record with ⟨calls, crossings, endings, hcalls, hcrossings, hendings, hreply,
    hrecord, hsame⟩
  have hhonest : ∀ c ∈ crossings, c.Honest := by
    intro c hc
    rcases hrecord c hc with ⟨⟨before, hbefore⟩, honest⟩
    refine honest ?_
    rw [hbefore]
    exact Controller.session_reachable hsession before
  refine ⟨calls, crossings, endings, hcalls, hcrossings, hendings, hreply, hhonest, hsame, ?_⟩
  rintro x rfl
  rcases Routine.Comes.writes (fun e e' h => (hothers e e' h).2.1)
    (writes_rescan handle start target) hrun with ⟨entries, hentries, replies, hreplies⟩
  rw [List.nil_append, List.append_cancel_left (hentries.symm.trans hcalls)] at hreplies
  rw [← hreplies.reported, ← hreply] at hreplies
  exact hreplies.bridging hhonest

/-- An engine whose session has come to height 5. -/
def underWay : Engine (Taped (Watched Unit)) where
  controller := ({ network := .testnet, observers := [.silent] } : Controller).run
    [.begin 0, .report (.rescanProgress 5) 1]
  own := { own := { own := () } }

/-- A scanner that finds the session ended at height 6. -/
def concludingScan : BlockScanner Unit := fun height => do
  .update fun e => if height = 6 then (e.conclude none).2 else e
  return .scanned

theorem ended_session_stops_bridged_rescan :
    (∀ height, (concludingScan height).Does Called) ∧
    (∀ s, underWay.controller.session = some s → s.Reachable) ∧
    ∃ e', (bridgedRescan concludingScan 1 4 8).Comes now (fun e e' => e' = e) underWay
        (.done (.ok (.cancelled 6))) e' ∧
      e'.crossings.map Crossing.reply = [(4, .goOn), (5, .goOn), (6, .stop)] ∧
      e'.controller.heard 0 = [.rescanProgress 5, .rescanProgress 5, .synced true] ∧
      (∀ c ∈ e'.crossings, c.Honest) ∧
      ∃ calls, Bridging 4 8 calls e'.crossings (.ok (.cancelled 6)) := by
  have hscan (height : Int32) : (concludingScan height).Does Called := by
    refine ⟨fun e => ?_, fun _ => trivial⟩
    change e.Called (if height = 6 then (e.conclude none).2 else e)
    split
    · exact (e.moves_conclude none).calls.imp fun _ h => h.2
    · exact .of_eq rfl
  have hsession : ∀ s, underWay.controller.session = some s → s.Reachable := by
    refine Controller.session_reachable ?_ _
    exact fun s hs => absurd hs (by simp only [reduceCtorEq, not_false_eq_true])
  have hrun : (bridgedRescan concludingScan 1 4 8).Comes now (fun e e' => e' = e) underWay
      (.done (.ok (.cancelled 6))) ((bridgedRescan concludingScan 1 4 8).poll underWay).2 :=
    Routine.Comes.refl.poll
  have hothers (e e' : Engine (Taped (Watched Unit))) (h : e' = e) : e.Called e' ∧
      e'.calls = e.calls ∧ e'.crossings = e.crossings ∧ e'.endings = e.endings := by
    rw [h]
    exact ⟨.of_eq rfl, rfl, rfl, rfl⟩
  rcases bridged_rescan_heeds_sessions concludingScan 1 4 8 hscan _ hothers hsession hrun with
    ⟨calls, crossings, endings, _, hcrossings, _, _, hhonest, _, hend⟩
  have hnew : ((bridgedRescan concludingScan 1 4 8).poll underWay).2.crossings = crossings :=
    hcrossings
  rw [← hnew] at hhonest hend
  exact ⟨hscan, hsession, _, hrun, rfl, rfl, hhonest, calls, hend _ rfl⟩

end Engine

end ChainSync
