import ChainSync.Proofs.Cancel.Sound
import ChainSync.Proofs.Controller.Calls
import Mathlib.Data.List.Forall2

/-!
# Starting a Session

What a start leaves behind, wherever it stops.

A start goes through the controller, the settings and the coordinator, in that
order, and it can end after each of them. With a session under way it stops at
the controller and nothing has been touched. With a peer that has a bad address
it stops at the settings: by then the new session has taken the place of the
old one, so it is made to fail, and the coordinator has not been asked yet.
Otherwise one handle is derived.

All states of a controller and a coordinator are covered, also those that no run
leads to. Only the ids need a run: they count the sessions that have been begun
since the controller was made, as long as 64 bits are enough for them.

## Main definitions

* `Config.Accepts`, `Config.FirstRefused`: What the settings make of the peers.
* `Session.Fresh`: A session that has only been begun.
* `Coordinator.Derives`: One more handle.
* `Controller.begun`: The ids of the sessions that a run begins.

## Theorems

* `Config.normalizedPeers_ok_iff`, `Config.normalizedPeers_error`: The peers.
* `Controller.begin_eq`: A session is begun.
* `Controller.start_of_accepts`, `Controller.start_of_refused`: The two ends of
  a start that is let in.
* `Controller.begun_counts`: The ids of a run.
* `Controller.start_stops_cleanly`: All of it.
-/

namespace ChainSync

namespace Config

/-- The settings' peers with a port each, in the order of the settings. -/
def Accepts (c : Config) (addresses : List String) : Prop :=
  List.Forall₂ (fun peer address => Address.normalize peer c.network.defaultPort = .ok address)
    c.peers addresses

/-- The first peer with a bad address, and what is wrong with it. -/
def FirstRefused (c : Config) (peer : String) (fault : Address.Error) : Prop :=
  ∃ before after, c.peers = before ++ peer :: after ∧
    (∀ p ∈ before, ∃ address, Address.normalize p c.network.defaultPort = .ok address) ∧
    Address.normalize peer c.network.defaultPort = .error fault

theorem normalizedPeer_ok_iff (n : Network) (peer address : String) :
    normalizedPeer n peer = .ok address ↔ Address.normalize peer n.defaultPort = .ok address := by
  unfold normalizedPeer
  cases Address.normalize peer n.defaultPort <;> simp

theorem normalizedPeers_ok_iff (c : Config) (addresses : List String) :
    c.normalizedPeers = .ok addresses ↔ c.Accepts addresses := by
  rw [normalizedPeers, Accepts]
  generalize c.peers = peers
  induction peers generalizing addresses with
  | nil => cases addresses <;> simp [pure, Except.pure]
  | cons peer peers ih =>
      rw [List.mapM_cons]
      cases hpeer : normalizedPeer c.network peer with
      | error e =>
          have hnot (a : String) : Address.normalize peer c.network.defaultPort ≠ .ok a := by
            rw [ne_eq, ← normalizedPeer_ok_iff, hpeer]
            simp
          cases addresses <;> simp [bind, Except.bind, hnot]
      | ok address =>
          have hok := (normalizedPeer_ok_iff _ _ _).mp hpeer
          cases hrest : peers.mapM (normalizedPeer c.network) with
          | error e =>
              cases addresses <;> simp [bind, Except.bind, hok, ← ih, hrest]
          | ok rest =>
              cases addresses <;> simp [bind, Except.bind, pure, Except.pure, hok, ← ih, hrest]

/-- The error of the settings' peers is that of the first bad one. -/
theorem normalizedPeers_error {c : Config} {e : SyncError} (h : c.normalizedPeers = .error e) :
    ∃ peer fault, c.FirstRefused peer fault ∧ e = .invalidAddress fault.message := by
  rw [normalizedPeers] at h
  unfold FirstRefused
  generalize c.peers = peers at h ⊢
  induction peers with
  | nil => exact absurd h (by simp [pure, Except.pure])
  | cons peer peers ih =>
      rw [List.mapM_cons] at h
      cases hpeer : Address.normalize peer c.network.defaultPort with
      | error fault =>
          refine ⟨peer, fault, ⟨[], peers, rfl, by simp, hpeer⟩, ?_⟩
          simpa [normalizedPeer, hpeer, bind, Except.bind, eq_comm] using h
      | ok address =>
          -- The fault is further down, behind a peer that is accepted.
          rw [(normalizedPeer_ok_iff _ _ _).mpr hpeer] at h
          cases hrest : peers.mapM (normalizedPeer c.network) with
          | ok rest => simp [hrest, bind, Except.bind, pure, Except.pure] at h
          | error e' =>
              have he : e' = e := by simpa [hrest, bind, Except.bind] using h
              rcases ih (he ▸ hrest) with ⟨p, fault, ⟨before, after, hpeers, hbefore, hp⟩, he⟩
              exact ⟨p, fault, ⟨peer :: before, after, by rw [hpeers]; rfl,
                List.forall_mem_cons.mpr ⟨⟨address, hpeer⟩, hbefore⟩, hp⟩, he⟩

/-- The peers are all accepted, or there is a first one that is not. -/
theorem accepts_or_refused (c : Config) :
    (∃ addresses, c.Accepts addresses ∧ c.normalizedPeers = .ok addresses) ∨
      ∃ peer fault, c.FirstRefused peer fault ∧
        c.normalizedPeers = .error (.invalidAddress fault.message) := by
  cases h : c.normalizedPeers with
  | ok addresses => exact .inl ⟨addresses, (c.normalizedPeers_ok_iff _).mp h, rfl⟩
  | error e =>
      rcases normalizedPeers_error h with ⟨peer, fault, hfirst, rfl⟩
      exact .inr ⟨peer, fault, hfirst, rfl⟩

/-- All peers are accepted exactly if each of them is. -/
theorem accepts_iff_forall (c : Config) : (∃ addresses, c.Accepts addresses) ↔
    ∀ peer ∈ c.peers, ∃ address, Address.normalize peer c.network.defaultPort = .ok address := by
  constructor
  · rintro ⟨addresses, h⟩ peer hpeer
    rcases (List.forall₂_iff_get.mp h) with ⟨hlength, hget⟩
    rcases List.getElem_of_mem hpeer with ⟨i, hi, rfl⟩
    exact ⟨_, hget i hi (hlength ▸ hi)⟩
  · intro hall
    rcases c.accepts_or_refused with ⟨addresses, h, _⟩ | ⟨peer, fault, ⟨_, _, hpeers, _, hbad⟩, _⟩
    · exact ⟨addresses, h⟩
    · rcases hall peer (by rw [hpeers]; simp) with ⟨address, hgood⟩
      rw [hgood] at hbad
      exact absurd hbad (by simp only [reduceCtorEq, not_false_eq_true])

/-- Settings that pass their own check have no bad peer. -/
theorem accepts_of_validate {c : Config} (h : c.validate = .ok ()) :
    ∃ addresses, c.Accepts addresses := by
  rcases c.accepts_or_refused with ⟨addresses, haccepts, _⟩ | ⟨_, _, _, hbad⟩
  · exact ⟨addresses, haccepts⟩
  · rw [validate, hbad] at h
    -- Whatever else the check finds, it ends in an error.
    split_ifs at h

end Config

/-- A session that has been begun and has heard of nothing yet. -/
structure Session.Fresh (s : Session) (id : UInt64) : Prop where
  id : s.id = id
  phase : s.phase = .connectingPeers
  history : s.history.map (fun t => (t.source, t.target)) = [(.idle, .connectingPeers)]
  peers : s.peers = 0
  filters : s.filters = 0
  headersStart : s.headersStart = 0
  peerHeight : s.peerHeight = 0
  headers : s.headers = 0
  lastHeaderTime : s.lastHeaderTime = 0
  discovered : s.discovered = false
  rescanned : s.rescanned = 0
  bestProgress : s.bestProgress = 0
  terminal : s.terminal = none
  times : s.headersStartedAt = none ∧ s.discoveryStartedAt = none ∧ s.rescanStartedAt = none ∧
    s.finishedAt = none

theorem Session.begin_fresh (id : UInt64) (now : Nat) :
    ∃ s, (Session.start id now).begin now = .ok s ∧ s.Fresh id :=
  ⟨_, rfl, by constructor <;> simp [Session.start, Session.stamp]⟩

namespace Coordinator

/-- One handle more, whose watcher waits for a parent and for a timeout unless the
    handle is cancelled from the beginning. -/
structure Derives (k k' : Coordinator) (id parent : Nat) (timeout : Option Nat) : Prop where
  given : id = k.nextId
  handles : k'.handles.map (·.id) = k.handles.map (·.id) ++ [id]
  watchers : k'.watchers = k.watchers ++
    if k.fired || k.isTokenCancelled parent then []
    else [{ handle := id, own := k.forest.tokens.length, parent, timeout }]

/-- A token more makes no difference to those that are there. -/
theorem isTokenCancelled_enrolled (k : Coordinator) (t : Nat) :
    k.enrolled.isTokenCancelled t = k.isTokenCancelled t := by
  change (k.forest.make none).2.cancelledWithin (t + 1) t = k.forest.cancelledWithin (t + 1) t
  generalize t + 1 = steps
  induction steps generalizing t with
  | zero => rfl
  | succ steps ih =>
      have habove : (k.forest.make none).2.cancelledWithin steps =
        k.forest.cancelledWithin steps := funext ih
      simp only [Forest.cancelledWithin, habove]
      rcases Nat.lt_trichotomy t k.forest.tokens.length with h | h | h
      · rw [Forest.getElem?_make h]
      · rw [h, Forest.getElem?_make_new, List.getElem?_eq_none_iff.mpr (Nat.le_refl _)]
        rfl
      · rw [List.getElem?_eq_none_iff.mpr (Nat.le_of_lt h), List.getElem?_eq_none_iff.mpr]
        rw [Forest.length_make]
        exact h

theorem map_id_cancelWith (k : Coordinator) (id : Nat) (reason : CancelReason) :
    (k.cancelWith id reason).2.handles.map (·.id) = k.handles.map (·.id) := by
  cases hh : k.handle? id with
  | none => simp only [cancelWith, hh]
  | some h =>
      simp only [cancelWith, hh, cancelToken, modifyHandle, List.map_map]
      refine List.map_congr_left fun handle _ => ?_
      simp only [Function.comp_apply]
      split <;> rfl

theorem derives (k : Coordinator) (parent : Nat) (timeout : Option Nat) :
    k.Derives (k.derive parent timeout).2 (k.derive parent timeout).1 parent timeout := by
  have hadded : k.added.handles.map (·.id) = k.handles.map (·.id) ++ [k.nextId] := by simp [added]
  rw [derive_eq, isTokenCancelled_enrolled]
  cases hfired : k.fired with
  | true => exact ⟨rfl, by simp [map_id_cancelWith, hadded], by simp [added, hfired]⟩
  | false =>
      cases hparent : k.isTokenCancelled parent with
      | true =>
          refine ⟨rfl, by simp [map_id_cancelWith, hadded, enrolled], ?_⟩
          simp [added, enrolled, hfired, hparent]
      | false => exact ⟨rfl, by simp [hadded, enrolled], by simp [hfired, hparent]⟩

end Coordinator

namespace Controller

theorem begin_refused {c : Controller} (now : Nat) (h : c.isSyncing = true) :
    c.begin now = .error .syncInProgress := by
  rw [begin, if_pos h]

/-- Without a session under way a new one takes the next id. -/
theorem begin_eq {c : Controller} (now : Nat) (h : c.isSyncing = false) :
    ∃ s, s.Fresh c.nextId ∧ s.isActive = true ∧
      c.begin now = .ok (c.nextId, { c with session := some s, nextId := c.nextId + 1 }) := by
  rcases Session.begin_fresh c.nextId now with ⟨s, hs, hfresh⟩
  refine ⟨s, hfresh, ?_, ?_⟩
  · rw [Session.isActive, hfresh.phase]
    rfl
  · rw [begin, if_neg (by rw [h]; decide), hs]

section

variable {c c₁ : Controller} {config : Config} (k : Coordinator) (parent : Nat) {now : Nat}
  {id : UInt64} (hbegin : c.begin now = .ok (id, c₁))
include hbegin

/-- With good addresses only, a start that is let in derives a handle. -/
theorem start_of_accepts {addresses : List String} (h : config.Accepts addresses) :
    c.start config k parent now =
      (.ok { session := id, peers := addresses, handle := (k.derive parent config.syncTimeout).1 },
        c₁, (k.derive parent config.syncTimeout).2) := by
  simp only [start, hbegin, (config.normalizedPeers_ok_iff addresses).mpr h]

/-- A bad address ends the new session, and the coordinator is not asked. -/
theorem start_of_refused {s : Session} {e : SyncError} (hs : c₁.session = some s)
    (hactive : s.isActive = true) (h : config.normalizedPeers = .error e) :
    ∃ s', s'.id = s.id ∧ s'.phase = .failed ∧ s'.terminal = some (.ofError e) ∧
      c.start config k parent now =
        (.error e, ({ c₁ with session := some s' } : Controller).emit (.syncError e.code e),
          k) := by
  rcases Session.take_closing now (some e) hactive with ⟨s', htake, hphase, hterminal⟩
  refine ⟨s', (Session.advances_of_take htake).id, hphase, hterminal, ?_⟩
  have hreport : c₁.report (.failed e) now =
      .ok (({ c₁ with session := some s' } : Controller).emit (.syncError e.code e)) := by
    simp only [report, hs]
    rw [show Report.failed e = closing (some e) from rfl, htake]
    rfl
  simp only [start, hbegin, h, hreport]

end

/-- The ids of the sessions that a run begins, in order. -/
def begun (c : Controller) : List Call → List UInt64
  | [] => []
  | call :: calls =>
    (if c.begins call then (c.after call).session.map (·.id) else none).toList ++
      (c.after call).begun calls

@[simp] theorem nextId_emit? (c : Controller) (event : Option Event) :
    (c.emit? event).nextId = c.nextId := by
  cases event <;> rfl

theorem nextId_report {c c' : Controller} {r : Report} {now : Nat}
    (h : c.report r now = .ok c') : c'.nextId = c.nextId := by
  unfold report at h
  split at h
  · exact absurd h (by simp only [reduceCtorEq, not_false_eq_true])
  · split at h
    · rw [← Except.ok.inj h, nextId_emit?]
    · exact absurd h (by simp only [reduceCtorEq, not_false_eq_true])

theorem nextId_conclude (c : Controller) (error : Option SyncError) (now : Nat) :
    (c.conclude error now).2.nextId = c.nextId := by
  cases hs : c.session with
  | none => simp only [conclude, hs]
  | some s =>
      cases hactive : s.isActive with
      | true =>
          rcases Session.take_closing now error hactive with ⟨s', htake, _⟩
          simp only [conclude, hs, hactive, if_true, htake, nextId_emit?]
      | false =>
          simp only [conclude, hs, hactive, Bool.false_eq_true, if_false]
          cases error with
          | none => rfl
          | some e =>
              simp only []
              split <;> rfl

/-- A call that begins a session takes the next id, and no other call does. -/
theorem nextId_after (c : Controller) (call : Call) :
    (c.after call).nextId = if c.begins call then c.nextId + 1 else c.nextId := by
  cases call with
  | addObserver o => rfl
  | begin now =>
      cases hbegin : c.begin now with
      | error e => simp [after, begins, hbegin, Except.isOk, Except.toBool]
      | ok result =>
          rcases begin_ok hbegin with ⟨_, s, _, _, _, hc⟩
          simp [after, begins, hbegin, hc, Except.isOk, Except.toBool]
  | start config k parent now =>
      cases hbegin : c.begin now with
      | error e => simp [after, begins, start, hbegin, Except.isOk, Except.toBool]
      | ok result =>
          rcases begin_ok hbegin with ⟨_, s, _, hactive, _, hc⟩
          have hs : result.2.session = some s := by rw [hc]
          have hid : result.2.nextId = c.nextId + 1 := by rw [hc]
          have hstart : (c.start config k parent now).2.1.nextId = c.nextId + 1 := by
            cases hpeers : config.normalizedPeers with
            | ok addresses =>
                rw [start_of_accepts k parent hbegin ((config.normalizedPeers_ok_iff _).mp hpeers)]
                exact hid
            | error e =>
                rcases start_of_refused k parent hbegin hs hactive hpeers with ⟨s', _, _, _, heq⟩
                rw [heq]
                exact hid
          simpa [after, begins, hbegin, Except.isOk, Except.toBool] using hstart
  | report r now =>
      cases hreport : c.report r now with
      | error e => simp [after, begins, hreport]
      | ok c' => simp [after, begins, hreport, nextId_report hreport]
  | conclude error now => exact nextId_conclude c error now
  | progress now nowUnix =>
      simp only [after, begins, progress]
      split <;> rfl

/-- The ids of a run count on from the next one, as long as 64 bits are enough. -/
theorem begun_counts (c : Controller) (calls : List Call)
    (h : c.nextId.toNat + (c.begun calls).length ≤ UInt64.size) :
    (c.begun calls).map UInt64.toNat = List.range' c.nextId.toNat (c.begun calls).length := by
  induction calls generalizing c with
  | nil => rfl
  | cons call calls ih =>
      have hnext := c.nextId_after call
      cases hb : c.begins call with
      | false =>
          rw [hb, if_neg (by decide)] at hnext
          have hrest : c.begun (call :: calls) = (c.after call).begun calls := by
            simp [begun, hb]
          rw [hrest] at h ⊢
          rw [← hnext] at h ⊢
          exact ih _ h
      | true =>
          rw [hb, if_pos rfl] at hnext
          rcases after_begins hb with ⟨s, event, s', _, hid, hcont, _⟩
          have hsession : (c.after call).session.map (·.id) = some c.nextId := by
            rw [hcont.session, Option.map_some, hcont.advances.id, hid]
          have hrest : c.begun (call :: calls) = c.nextId :: (c.after call).begun calls := by
            simp [begun, hb, hsession]
          rw [hrest, List.length_cons] at h
          rw [hrest, List.map_cons, List.length_cons, List.range'_succ]
          -- The id of the last session may be the last one there is.
          cases hlast : (c.after call).begun calls with
          | nil => rfl
          | cons id ids =>
              rw [← hlast]
              have hsucc : (c.after call).nextId.toNat = c.nextId.toNat + 1 := by
                rw [hlast, List.length_cons] at h
                rw [hnext, UInt64.toNat_add, show (1 : UInt64).toNat = 1 from rfl]
                exact Nat.mod_eq_of_lt (by simp only [UInt64.size] at h; omega)
              rw [ih _ (by rw [hsucc]; omega), hsucc]

/-- The controller once a session has been begun. -/
def opened (c : Controller) (s : Session) : Controller :=
  { c with session := some s, nextId := c.nextId + 1 }

/-- A start that comes to its end: all peers are accepted, and one handle has been
    derived for the new session. -/
def StartsUnder (c : Controller) (s : Session) (config : Config) (k : Coordinator) (parent : Nat)
    (result : Except SyncError SyncStart × Controller × Coordinator) : Prop :=
  ∃ addresses handle k', config.Accepts addresses ∧
    k.Derives k' handle parent config.syncTimeout ∧
    result = (.ok { session := c.nextId, peers := addresses, handle }, c.opened s, k')

/-- A start that stops at a peer: the new session has failed over the first bad
    address, the observers have heard of that once, and there is no handle. -/
def StartsInVain (c : Controller) (s : Session) (config : Config) (k : Coordinator)
    (result : Except SyncError SyncStart × Controller × Coordinator) : Prop :=
  ∃ peer fault s', config.FirstRefused peer fault ∧ s'.id = c.nextId ∧ s'.phase = .failed ∧
    s'.terminal = some ⟨.invalidAddress, .invalidAddress fault.message⟩ ∧
    result = (.error (.invalidAddress fault.message),
      { c.opened s with
        session := some s'
        observers := c.observers.map
          (·.tell (.syncError .invalidAddress (.invalidAddress fault.message))) }, k)

theorem start_refused {c : Controller} (config : Config) (k : Coordinator) (parent now : Nat)
    (h : c.isSyncing = true) : c.start config k parent now = (.error .syncInProgress, c, k) := by
  simp only [start, begin_refused now h]

/-- A start that is let in, by what becomes of the peers. -/
theorem start_cases {c : Controller} (config : Config) (k : Coordinator) (parent now : Nat)
    (h : c.isSyncing = false) :
    ∃ s : Session, s.Fresh c.nextId ∧ c.begin now = .ok (c.nextId, c.opened s) ∧
      (c.StartsUnder s config k parent (c.start config k parent now) ∨
        (¬∃ addresses, config.Accepts addresses) ∧
          c.StartsInVain s config k (c.start config k parent now)) := by
  rcases begin_eq now h with ⟨s, hfresh, hactive, hbegin⟩
  refine ⟨s, hfresh, hbegin, ?_⟩
  rcases config.accepts_or_refused with ⟨addresses, haccepts, _⟩ | ⟨peer, fault, hfirst, hbad⟩
  · refine .inl ⟨addresses, _, _, haccepts, k.derives parent config.syncTimeout, ?_⟩
    exact start_of_accepts k parent hbegin haccepts
  · rcases start_of_refused k parent hbegin rfl hactive hbad with ⟨s', hid, hphase, hterminal, heq⟩
    rw [emit_eq] at heq
    refine .inr ⟨?_, peer, fault, s', hfirst, hid.trans hfresh.id, hphase, hterminal, heq⟩
    rintro ⟨addresses, haccepts⟩
    rw [(config.normalizedPeers_ok_iff addresses).mpr haccepts] at hbad
    exact absurd hbad (by simp only [reduceCtorEq, not_false_eq_true])

/-- A start with a session under way is refused and touches nothing. Otherwise a
    fresh session with the next id takes the place of the old one; it stays, with
    a handle for it, if every peer is accepted, and it fails over the first one
    that is not, which its observers hear once, without a handle. So settings that
    pass their own check never make a start end over an address. The ids count the
    sessions begun since the controller was made. -/
theorem start_stops_cleanly (c : Controller) (k : Coordinator) (parent : Nat) (config : Config)
    (now : Nat) :
    (c.begin now = .error .syncInProgress ↔ c.isSyncing = true) ∧
    ((c.start config k parent now).1 = .error .syncInProgress ↔ c.isSyncing = true) ∧
    (c.isSyncing = true → c.after (.begin now) = c ∧ (c.start config k parent now).2 = (c, k)) ∧
    (c.isSyncing = false → ∃ s : Session, s.Fresh c.nextId ∧
      c.begin now = .ok (c.nextId, c.opened s) ∧
      (c.StartsUnder s config k parent (c.start config k parent now) ∨
        c.StartsInVain s config k (c.start config k parent now)) ∧
      ((∃ r, (c.start config k parent now).1 = .ok r) ↔ ∀ peer ∈ config.peers,
        ∃ address, Address.normalize peer config.network.defaultPort = .ok address)) ∧
    (config.validate = .ok () → (c.start config k parent now).2.1.observers = c.observers ∧
      ∀ e, (c.start config k parent now).1 = .error e → e.code.value ≠ 3) ∧
    (∀ network calls, (({ network } : Controller).begun calls).length < UInt64.size →
      (({ network } : Controller).begun calls).map UInt64.toNat =
        List.range' 1 (({ network } : Controller).begun calls).length) := by
  refine ⟨?_, ?_, fun h => ?_, fun h => ?_, fun hvalid => ?_, fun network calls h => ?_⟩
  · cases h : c.isSyncing with
    | true => simp [begin_refused now h]
    | false =>
        rcases begin_eq now h with ⟨s, _, _, hbegin⟩
        simp [hbegin]
  · cases h : c.isSyncing with
    | true => simp [start_refused config k parent now h]
    | false =>
        -- A start that is let in ends well or over an address.
        rcases start_cases config k parent now h with
          ⟨s, _, _, ⟨_, _, _, _, _, heq⟩ | ⟨_, _, _, _, _, _, _, _, heq⟩⟩
        · simp [heq]
        · simp [heq]
  · exact ⟨by simp only [after, begin_refused now h], by rw [start_refused config k parent now h]⟩
  · rcases start_cases config k parent now h with ⟨s, hfresh, hbegin, hcases⟩
    refine ⟨s, hfresh, hbegin, hcases.imp_right And.right, ?_⟩
    rw [← config.accepts_iff_forall]
    rcases hcases with ⟨addresses, _, _, haccepts, _, heq⟩ | ⟨hnone, _, _, _, _, _, _, _, heq⟩
    · exact ⟨fun _ => ⟨addresses, haccepts⟩, fun _ => ⟨_, by rw [heq]⟩⟩
    · refine ⟨?_, fun haccepts => absurd haccepts hnone⟩
      rintro ⟨r, hr⟩
      rw [heq] at hr
      exact absurd hr (by simp only [reduceCtorEq, not_false_eq_true])
  · cases h : c.isSyncing with
    | true =>
        rw [start_refused config k parent now h]
        refine ⟨rfl, fun e he => ?_⟩
        rw [← Except.error.inj he]
        decide
    | false =>
        rcases start_cases config k parent now h with
          ⟨s, _, _, ⟨_, _, _, _, _, heq⟩ | ⟨hnone, _⟩⟩
        · rw [heq]
          exact ⟨rfl, fun e he => absurd he (by simp only [reduceCtorEq, not_false_eq_true])⟩
        · exact absurd (Config.accepts_of_validate hvalid) hnone
  · refine begun_counts { network } calls ?_
    rw [show ({ network } : Controller).nextId.toNat = 1 from rfl]
    omega

end Controller

end ChainSync
