import ChainSync.Controller.Basic
import ChainSync.Proofs.Session.Trace

/-!
# Controller Calls

Runs of a controller, call by call.

Every operation of a controller is one atomic step: workers that call at the
same time are served one after the other. A run is therefore a list of calls,
and all orders of the calls of any number of workers are among the lists. The
start of a session that fails over an address is one call here; its two halves,
the begin and the report of the failure, are calls of their own as well, so a
worker that gets in between is covered too.

Nearly everything that is to be shown of a run follows from what one call does
to the session under way: `Continues` says it once, `after_continues` proves it
of every call that begins no session, and `after_begins` reduces a call that
begins one to a new session that continues.

## Main definitions

* `Controller.Call`, `Controller.after`, `Controller.run`: Calls and runs.
* `Controller.begins`, `Controller.StaysOn`: Which calls begin a session.
* `Controller.ends`, `Controller.endings`: Which calls end one.
* `Controller.heard`: What an observer has been told.
* `Controller.Continues`: What a call does to the session under way.

## Theorems

* `Controller.begin_ok`: A session begins unless one is under way.
* `Session.take_closing`: A session under way takes the report of its end.
* `Controller.after_continues`, `Controller.after_begins`: One call.
* `Controller.run_tells`: A run tells observers what its session tells.
-/

namespace ChainSync

namespace Controller

/-- What a controller can be asked to do, and the points in time at which it
    looks at its clock. -/
inductive Call where
  | addObserver (o : Observer)
  | begin (now : Nat)
  | start (config : Config) (k : Coordinator) (parent now : Nat)
  | report (r : Report) (now : Nat)
  /-- The end of a drive, with the error it has come to. -/
  | conclude (error : Option SyncError) (now : Nat)
  | progress (now : Nat) (nowUnix : Int64)

/-- The controller after a call. -/
def after (c : Controller) : Call → Controller
  | .addObserver o => c.addObserver o
  | .begin now => match c.begin now with
    | .ok (_, c) => c
    | .error _ => c
  | .start config k parent now => (c.start config k parent now).2.1
  | .report r now => match c.report r now with
    | .ok c => c
    | .error _ => c
  | .conclude error now => (c.conclude error now).2
  | .progress now nowUnix => (c.progress now nowUnix).2

/-- The controller after calls, one after the other. -/
def run (c : Controller) (calls : List Call) : Controller := calls.foldl after c

@[simp] theorem run_nil (c : Controller) : c.run [] = c := rfl

@[simp] theorem run_cons (c : Controller) (call : Call) (calls : List Call) :
    c.run (call :: calls) = (c.after call).run calls := rfl

theorem run_append (c : Controller) (before after : List Call) :
    c.run (before ++ after) = (c.run before).run after := List.foldl_append

/-- Whether a call begins a session. -/
def begins (c : Controller) : Call → Bool
  | .begin now => (c.begin now).isOk
  | .start _ _ _ now => (c.begin now).isOk
  | _ => false

/-- Calls none of which begins a session. -/
def StaysOn (c : Controller) : List Call → Prop
  | [] => True
  | call :: calls => c.begins call = false ∧ (c.after call).StaysOn calls

theorem staysOn_append {c : Controller} {before after : List Call} :
    c.StaysOn (before ++ after) ↔ c.StaysOn before ∧ (c.run before).StaysOn after := by
  induction before generalizing c with
  | nil => simp only [List.nil_append, StaysOn, run_nil, true_and]
  | cons call calls ih => simp only [List.cons_append, StaysOn, run_cons, ih, and_assoc]

end Controller

/-- Whether a report ends a session. -/
def Report.isClosing : Report → Bool
  | .synced => true
  | .failed _ => true
  | _ => false

namespace Session

-- Three kinds of reports may be dropped without an event; none of them is
-- meant to end the session.
theorem take_isTerminal {s s' : Session} {now : Nat} {r : Report} {event : Option Event}
    (h : s.take now r = .ok (event, s')) : event.any Event.isTerminal = r.isClosing := by
  cases r with
  | fetchMissingFilters n =>
      rcases bind_ok h with ⟨⟨accepted, s₂⟩, _, h⟩
      rcases Prod.mk.inj (Except.ok.inj h) with ⟨rfl, _⟩
      cases accepted <;> rfl
  | discoveredAddresses finished =>
      rcases bind_ok h with ⟨⟨accepted, s₂⟩, _, h⟩
      rcases Prod.mk.inj (Except.ok.inj h) with ⟨rfl, _⟩
      cases accepted <;> rfl
  | rescanProgress through =>
      rcases bind_ok h with ⟨⟨accepted, s₂⟩, _, h⟩
      rcases Prod.mk.inj (Except.ok.inj h) with ⟨rfl, _⟩
      cases accepted <;> rfl
  | _ =>
      rcases bind_ok h with ⟨s₂, _, h⟩
      rcases Prod.mk.inj (Except.ok.inj h) with ⟨rfl, _⟩
      rfl

/-- The event that ends a session for a given reason. -/
def closingEvent : Option SyncError → Event
  | none => .synced true
  | some error => .syncError error.code error

theorem take_closing {s : Session} (now : Nat) (error : Option SyncError)
    (h : s.isActive = true) : ∃ s', s.take now (Controller.closing error) =
      .ok (some (closingEvent error), s') ∧
      s'.phase = (if error.isSome then .failed else .synced) ∧
      s'.terminal = (error.map .ofError).or s.terminal := by
  cases error with
  | none =>
      refine ⟨s.moved .synced "synced" now, ?_, rfl, rfl⟩
      simp only [Controller.closing, take, finish_eq now h, bind, Except.bind, pure, Except.pure,
        closingEvent]
  | some error =>
      refine ⟨{ s.moved .failed error.message now with terminal := some (.ofError error) }, ?_,
        rfl, rfl⟩
      simp only [Controller.closing, take, fail_eq error now h, bind, Except.bind, pure,
        Except.pure, closingEvent]

end Session

namespace Controller

/-- Whether a call succeeds in ending a session: a report of the end that is
    taken, the end of a drive that finds a session under way, or a start that
    fails over an address. -/
def ends (c : Controller) : Call → Bool
  | .start config _ _ now => (c.begin now).isOk && !config.normalizedPeers.isOk
  | .report r now => r.isClosing && (c.report r now).isOk
  | .conclude _ _ => c.isSyncing
  | _ => false

/-- How many calls of a run succeed in ending a session. -/
def endings (c : Controller) : List Call → Nat
  | [] => 0
  | call :: calls => (c.ends call).toNat + (c.after call).endings calls

/-- What the observer at a place has been told, oldest first. -/
def heard (c : Controller) (i : Nat) : List Event :=
  ((c.observers[i]?).map Observer.received).getD []

/-- What a call does to a session under way, and what every observer hears of
    it. -/
structure Continues (c : Controller) (s : Session) (event : Option Event) (s' : Session)
    (c' : Controller) : Prop where
  session : c'.session = some s'
  advances : s.Advances event s'
  heard : ∀ i < c.observers.length, c'.heard i = c.heard i ++ event.toList
  length : c.observers.length ≤ c'.observers.length

theorem begin_ok {c c' : Controller} {id : UInt64} {now : Nat} (h : c.begin now = .ok (id, c')) :
    c.isSyncing = false ∧ ∃ s, s.Tells [] ∧ s.isActive = true ∧ s.id = c.nextId ∧
      c' = { c with session := some s, nextId := c.nextId + 1 } := by
  unfold begin at h
  cases hsync : c.isSyncing with
  | true =>
      rw [hsync, if_pos rfl] at h
      exact absurd h (by simp only [reduceCtorEq, not_false_eq_true])
  | false =>
      rw [hsync, if_neg (by decide)] at h
      cases hbegin : (Session.start c.nextId now).begin now with
      | error r =>
          rw [hbegin] at h
          exact absurd h (by simp only [reduceCtorEq, not_false_eq_true])
      | ok s =>
          rw [hbegin] at h
          rcases Prod.mk.inj (Except.ok.inj h) with ⟨_, rfl⟩
          rcases Session.tells_begin hbegin with ⟨htells, hactive⟩
          exact ⟨rfl, s, htells, hactive, (Session.advances_of_begin hbegin).id, rfl⟩

theorem heard_emit (c : Controller) (e : Event) {i : Nat} (hi : i < c.observers.length) :
    (c.emit e).heard i = c.heard i ++ [e] := by
  have ho : c.observers[i]? = some c.observers[i] := List.getElem?_eq_getElem hi
  simp only [heard, emit_eq, List.getElem?_map, ho, Option.map_some, Option.getD_some,
    Observer.received_tell]

/-- Whatever a session does is passed on to all observers. -/
theorem continues_emit? (c : Controller) {s s' : Session} {event : Option Event}
    (h : s.Advances event s') :
    c.Continues s event s' (({ c with session := some s' } : Controller).emit? event) := by
  cases event with
  | none => exact ⟨rfl, h, fun i _ => by simp [emit?, heard], Nat.le_refl _⟩
  | some e =>
      refine ⟨rfl, h, fun i hi => ?_, by simp [emit?, emit_eq]⟩
      exact heard_emit { c with session := some s' } e hi

/-- A session that is left alone continues. -/
theorem continues_refl {c : Controller} {s : Session} (hs : c.session = some s) :
    c.Continues s none s c where
  session := hs
  advances := Session.Advances.quiet rfl rfl rfl rfl
  heard := fun i _ => by simp
  length := Nat.le_refl _

/-- A report that is taken is passed on, and ends the session if it is meant to. -/
theorem report_continues {c c' : Controller} {s : Session} {r : Report} {now : Nat}
    (hs : c.session = some s) (h : c.report r now = .ok c') :
    ∃ event s', c.Continues s event s' c' ∧ event.any Event.isTerminal = r.isClosing := by
  unfold report at h
  rw [hs] at h
  cases htake : s.take now r with
  | error rejection =>
      simp only [htake] at h
      exact absurd h (by simp only [reduceCtorEq, not_false_eq_true])
  | ok result =>
      rcases result with ⟨event, s'⟩
      simp only [htake] at h
      rw [← Except.ok.inj h]
      exact ⟨event, s', continues_emit? c (Session.advances_of_take htake),
        Session.take_isTerminal htake⟩

/-- The end of a drive ends a session under way, and leaves any other alone. -/
theorem conclude_continues {c : Controller} {s : Session} (error : Option SyncError) (now : Nat)
    (hs : c.session = some s) :
    ∃ event s', c.Continues s event s' (c.conclude error now).2 ∧
      event.any Event.isTerminal = s.isActive := by
  unfold conclude
  simp only [hs]
  cases hactive : s.isActive with
  | true =>
      rcases Session.take_closing now error hactive with ⟨s', htake, _, _⟩
      rw [if_pos rfl]
      simp only [htake]
      refine ⟨_, s', continues_emit? c (Session.advances_of_take htake), ?_⟩
      cases error <;> rfl
  | false =>
      -- Only the answer of the drive depends on the error then.
      rw [if_neg (by decide)]
      refine ⟨none, s, ?_, rfl⟩
      cases error with
      | none => exact continues_refl hs
      | some e =>
          simp only []
          split <;> exact continues_refl hs

/-- What one call does while a session goes on: the session advances, and all
    observers hear of the event. The call succeeds in ending the session
    exactly if the event says so. -/
theorem after_continues {c : Controller} {s : Session} {call : Call} (hs : c.session = some s)
    (hstay : c.begins call = false) : ∃ event s', c.Continues s event s' (c.after call) ∧
      event.any Event.isTerminal = c.ends call := by
  cases call with
  | addObserver o =>
      refine ⟨none, s, ⟨hs, Session.Advances.quiet rfl rfl rfl rfl, fun i hi => ?_, ?_⟩, rfl⟩
      · simp [after, addObserver, heard, List.getElem?_append_left hi]
      · simp [after, addObserver]
  | begin now =>
      refine ⟨none, s, ?_, rfl⟩
      cases hbegin : c.begin now with
      | ok result => simp [begins, hbegin, Except.isOk, Except.toBool] at hstay
      | error e =>
          simp only [after, hbegin]
          exact continues_refl hs
  | start config k parent now =>
      cases hbegin : c.begin now with
      | ok result => simp [begins, hbegin, Except.isOk, Except.toBool] at hstay
      | error e =>
          refine ⟨none, s, ?_, by simp [ends, hbegin, Except.isOk, Except.toBool]⟩
          simp only [after, start, hbegin]
          exact continues_refl hs
  | report r now =>
      cases hreport : c.report r now with
      | ok c' =>
          rcases report_continues hs hreport with ⟨event, s', hc, hend⟩
          simp only [after, hreport]
          exact ⟨event, s', hc, by simp [ends, hreport, hend, Except.isOk, Except.toBool]⟩
      | error e =>
          simp only [after, hreport]
          exact ⟨none, s, continues_refl hs, by simp [ends, hreport, Except.isOk, Except.toBool]⟩
  | conclude error now =>
      rcases conclude_continues error now hs with ⟨event, s', hc, hend⟩
      exact ⟨event, s', hc, by simp [ends, isSyncing, hs, hend]⟩
  | progress now nowUnix =>
      -- Asking for the progress only remembers what was answered.
      refine ⟨none, (s.progress c.network.label now nowUnix).2, ?_, rfl⟩
      have hafter : c.after (.progress now nowUnix) =
          { c with session := some (s.progress c.network.label now nowUnix).2 } := by
        simp only [after, progress, hs]
      rw [hafter]
      exact ⟨rfl, Session.Advances.quiet rfl rfl rfl rfl, fun i _ => by simp [heard],
        Nat.le_refl _⟩

theorem Continues.of_observers {c c₁ c' : Controller} {s s' : Session} {event : Option Event}
    (h : c₁.Continues s event s' c') (ho : c₁.observers = c.observers) :
    c.Continues s event s' c' := by
  refine ⟨h.session, h.advances, fun i hi => ?_, by rw [← ho]; exact h.length⟩
  have hheard : c.heard i = c₁.heard i := by simp only [Controller.heard, ho]
  rw [hheard]
  exact h.heard i (by rwa [ho])

/-- A call that begins a session makes a new one, which has told nothing yet,
    and lets it continue; a start that fails over an address ends it at once. -/
theorem after_begins {c : Controller} {call : Call} (h : c.begins call = true) :
    ∃ s event s', s.Tells [] ∧ s.id = c.nextId ∧ c.Continues s event s' (c.after call) ∧
      event.any Event.isTerminal = c.ends call := by
  cases call with
  | begin now =>
      cases hbegin : c.begin now with
      | error e => simp [begins, hbegin, Except.isOk, Except.toBool] at h
      | ok result =>
          rcases begin_ok hbegin with ⟨_, s, htells, _, hid, hc⟩
          simp only [after, hbegin]
          exact ⟨s, none, s, htells, hid,
            (continues_refl (by rw [hc])).of_observers (by rw [hc]), rfl⟩
  | start config k parent now =>
      cases hbegin : c.begin now with
      | error e => simp [begins, hbegin, Except.isOk, Except.toBool] at h
      | ok result =>
          rcases result with ⟨id, c₁⟩
          rcases begin_ok hbegin with ⟨_, s, htells, hactive, hid, hc⟩
          have hs : c₁.session = some s := by rw [hc]
          have ho : c₁.observers = c.observers := by rw [hc]
          cases hpeers : config.normalizedPeers with
          | ok peers =>
              simp only [after, start, hbegin, hpeers]
              exact ⟨s, none, s, htells, hid, (continues_refl hs).of_observers ho,
                by simp [ends, hpeers, Except.isOk, Except.toBool]⟩
          | error e =>
              -- The new session is under way, so the failure cannot be refused.
              rcases Session.take_closing now (some e) hactive with ⟨s₁, htake, _, _⟩
              cases hreport : c₁.report (.failed e) now with
              | error rejected =>
                  simp only [closing] at htake
                  simp [report, hs, htake] at hreport
              | ok c₂ =>
                  rcases report_continues hs hreport with ⟨event, s', hcont, hend⟩
                  simp only [after, start, hbegin, hpeers, hreport]
                  refine ⟨s, event, s', htells, hid, hcont.of_observers ho, ?_⟩
                  simp [ends, hbegin, hpeers, hend, Report.isClosing, Except.isOk, Except.toBool]
  | _ => simp [begins] at h

/-- A run on one session tells its observers what the session tells, and ends
    it as often as it tells them of an end. -/
theorem run_tells {c : Controller} {s : Session} {trace : List Event} {calls : List Call}
    (hs : c.session = some s) (ht : s.Tells trace) (hstay : c.StaysOn calls) :
    ∃ s' more, (c.run calls).session = some s' ∧ s'.Tells (trace ++ more) ∧ s'.id = s.id ∧
      (∀ i < c.observers.length, (c.run calls).heard i = c.heard i ++ more) ∧
      c.observers.length ≤ (c.run calls).observers.length ∧
      more.countP Event.isTerminal = c.endings calls := by
  -- By induction on the calls, with what has been told so far as the invariant.
  induction calls generalizing c s trace with
  | nil => exact ⟨s, [], hs, by simpa using ht, rfl, fun i _ => by simp, Nat.le_refl _, rfl⟩
  | cons call calls ih =>
      rcases after_continues hs hstay.1 with ⟨event, s₁, hc, hend⟩
      rcases ih hc.session (ht.advance hc.advances) hstay.2 with
        ⟨s', more, hs', ht', hid, hheard, hlen, hcount⟩
      refine ⟨s', event.toList ++ more, hs', by simpa using ht', hid.trans hc.advances.id, ?_,
        Nat.le_trans hc.length hlen, ?_⟩
      · intro i hi
        rw [run_cons, hheard i (Nat.lt_of_lt_of_le hi hc.length), hc.heard i hi,
          List.append_assoc]
      · rw [List.countP_append, hcount, endings, countP_toList, hend]

end Controller

end ChainSync
