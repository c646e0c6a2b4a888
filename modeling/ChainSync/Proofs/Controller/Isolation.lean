import ChainSync.Proofs.Controller.Calls

/-!
# Isolated Observers

Observers have no influence on the sync they observe.

An observer may break off whenever it is told of something. Each callback is
isolated, so what it breaks off with goes no further, and going through the
observers one after the other comes to telling all of them
(`Controller.emit_eq`). What a call answers and what it makes of the session
therefore depends on the controller without its observers: `whoever_observes`
says so of every call, with the event that all observers are told of, whoever
they are.

Two controllers are alike if they differ only in observers that break off at
times. The two runs that are compared may also add different observers of that
kind, at different moments. An observer that never breaks off hears the same in
both, and so do any two observers of one run from the moment both are there.

## Main definitions

* `Observer.IsSteady`, `steady`: Observers that never break off.
* `Controller.Hears`: What all observers hear.
* `Controller.Alike`, `Controller.noticed`: Controllers and runs that differ in
  other observers only.
* `Controller.answer`, `Controller.record`: What a run shows to its callers.

## Theorems

* `Controller.whoever_observes`: A call without its observers.
* `Controller.Alike.after`, `Controller.Alike.run`: A call, and a run, on
  controllers that are alike.
* `Controller.observers_have_no_influence`: Two runs compared.
* `Controller.flaky_observer_has_no_influence`: A run with and without an
  observer that breaks off at everything.
-/

namespace ChainSync

namespace Observer

/-- The observer once it has been told of an event, if there is one. -/
def tell? (o : Observer) : Option Event → Observer
  | some e => o.tell e
  | none => o

/-- Whether an observer never breaks off, whatever it is told. -/
def IsSteady (o : Observer) : Prop := ∀ told, o.response told = none

theorem isSteady_tell? (o : Observer) (event : Option Event) :
    (o.tell? event).IsSteady ↔ o.IsSteady := by
  cases event <;> rfl

end Observer

open Classical in
/-- The observers that never break off. -/
noncomputable def steady (observers : List Observer) : List Observer :=
  observers.filter fun o => decide o.IsSteady

theorem steady_map_tell? (observers : List Observer) (event : Option Event) :
    steady (observers.map (·.tell? event)) = (steady observers).map (·.tell? event) := by
  rw [steady, List.filter_map]
  refine congrArg _ (List.filter_congr fun o _ => ?_)
  exact decide_eq_decide.mpr (o.isSteady_tell? event)

theorem steady_append (os os' : List Observer) : steady (os ++ os') = steady os ++ steady os' :=
  List.filter_append ..

theorem steady_singleton {o : Observer} (h : ¬o.IsSteady) : steady [o] = [] := by
  simp [steady, h]

namespace Controller

/-- What a call answers. -/
inductive Answer where
  | added
  | begun (id : Except SyncError UInt64)
  | started (start : Except SyncError SyncStart) (k : Coordinator)
  | replied (reply : Except SyncError Unit)
  | shown (progress : Option Progress)

/-- The answer of a call. -/
def answer (c : Controller) : Call → Answer
  | .addObserver _ => .added
  | .begin now => .begun ((c.begin now).map (·.1))
  | .start config k parent now =>
    .started (c.start config k parent now).1 (c.start config k parent now).2.2
  | .report r now => .replied ((c.report r now).map fun _ => ())
  | .conclude error now => .replied (c.conclude error now).1
  | .progress now nowUnix => .shown (c.progress now nowUnix).1

/-- The controller with other observers. -/
def observedBy (c : Controller) (observers : List Observer) : Controller := { c with observers }

/-- What a call does, whoever observes: it answers the same, leaves the same behind,
    and tells all observers of the same event. -/
def DoesAlike (c : Controller) (call : Call) : Prop :=
  ∃ (answer : Answer) (event : Option Event) (c' : Controller), ∀ os,
    (c.observedBy os).answer call = answer ∧
      (c.observedBy os).after call = c'.observedBy (os.map (·.tell? event))

theorem map_tell?_none (os : List Observer) : os.map (·.tell? none) = os := List.map_id' os

theorem emit?_observedBy (c : Controller) (os : List Observer) (event : Option Event) :
    (c.observedBy os).emit? event = c.observedBy (os.map (·.tell? event)) := by
  cases event with
  | some e =>
      rw [emit?, emit_eq]
      rfl
  | none =>
      rw [map_tell?_none]
      rfl

/-- A call that leaves the observers alone, and whatever does not depend on them. -/
theorem DoesAlike.quiet {c : Controller} {call : Call} (answer : Answer) (c' : Controller)
    (h : ∀ os, (c.observedBy os).answer call = answer ∧
      (c.observedBy os).after call = c'.observedBy os) : c.DoesAlike call :=
  ⟨answer, none, c', fun os => by rw [map_tell?_none]; exact h os⟩

theorem begin_observedBy (c : Controller) (now : Nat) (os : List Observer) :
    (c.observedBy os).begin now =
      (c.begin now).map fun (id, c') => (id, c'.observedBy os) := by
  have hsyncing : (c.observedBy os).isSyncing = c.isSyncing := rfl
  have hid : (c.observedBy os).nextId = c.nextId := rfl
  rw [begin, begin, hsyncing, hid]
  split
  · rfl
  · cases (Session.start c.nextId now).begin now <;> rfl

/-- A report, whoever observes. -/
theorem report_observedBy (c : Controller) (r : Report) (now : Nat) :
    (∃ e, ∀ os, (c.observedBy os).report r now = .error e) ∨
      ∃ (event : Option Event) (c' : Controller), ∀ os,
        (c.observedBy os).report r now = .ok (c'.observedBy (os.map (·.tell? event))) := by
  cases hs : c.session with
  | none => exact .inl ⟨noSession, fun os => by simp only [report, observedBy, hs]⟩
  | some s =>
      cases htake : s.take now r with
      | error rejection =>
          exact .inl ⟨rejection.toError, fun os => by simp only [report, observedBy, hs, htake]⟩
      | ok taken =>
          refine .inr ⟨taken.1, { c with session := some taken.2 }, fun os => ?_⟩
          simp only [report, observedBy, hs, htake]
          exact congrArg Except.ok
            (emit?_observedBy ({ c with session := some taken.2 } : Controller) os taken.1)

/-- The end of a drive, whoever observes. -/
theorem conclude_observedBy (c : Controller) (error : Option SyncError) (now : Nat) :
    c.DoesAlike (.conclude error now) := by
  cases hs : c.session with
  | none =>
      refine .quiet (.replied (.error noSession)) c fun os => ?_
      simp only [answer, after, conclude, observedBy, hs, and_self]
  | some s =>
      cases hactive : s.isActive with
      | true =>
          rcases Session.take_closing now error hactive with ⟨s', htake, _⟩
          refine ⟨.replied s'.verdict, some (Session.closingEvent error),
            { c with session := some s' }, fun os => ?_⟩
          simp only [answer, after, conclude, observedBy, hs, hactive, if_true, htake, true_and]
          exact emit?_observedBy ({ c with session := some s' } : Controller) os _
      | false =>
          -- What is answered depends on the session that is over, and on the error.
          refine .quiet (.replied (c.conclude error now).1) c fun os => ?_
          simp only [answer, after, conclude, observedBy, hs, hactive, Bool.false_eq_true, if_false]
          cases error with
          | none => exact ⟨rfl, rfl⟩
          | some e =>
              simp only []
              split <;> exact ⟨rfl, rfl⟩

/-- A start, whoever observes: it is refused, or lets the failure of an address in
    as a report, or derives a handle. -/
theorem start_observedBy (c : Controller) (config : Config) (k : Coordinator)
    (parent now : Nat) : c.DoesAlike (.start config k parent now) := by
  cases hbegin : c.begin now with
  | error e =>
      refine .quiet (.started (.error e) k) c fun os => ?_
      simp only [answer, after, start, begin_observedBy, hbegin, Except.map, and_self]
  | ok begun =>
      cases hpeers : config.normalizedPeers with
      | ok peers =>
          refine .quiet (.started (.ok ⟨begun.1, peers, (k.derive parent config.syncTimeout).1⟩)
            (k.derive parent config.syncTimeout).2) begun.2 fun os => ?_
          simp only [answer, after, start, begin_observedBy, hbegin, Except.map, hpeers, and_self]
      | error e =>
          rcases begun.2.report_observedBy (.failed e) now with ⟨e', hreport⟩ | ⟨event, c', hreport⟩
          · refine .quiet (.started (.error e') k) begun.2 fun os => ?_
            simp only [answer, after, start, begin_observedBy, hbegin, Except.map, hpeers, hreport,
              and_self]
          · refine ⟨.started (.error e) k, event, c', fun os => ?_⟩
            simp only [answer, after, start, begin_observedBy, hbegin, Except.map, hpeers, hreport,
              and_self]

/-- What a call does does not depend on who observes, unless it adds an observer. -/
theorem whoever_observes (c : Controller) {call : Call} (hcall : ∀ o, call ≠ .addObserver o) :
    c.DoesAlike call := by
  cases call with
  | addObserver o => exact absurd rfl (hcall o)
  | begin now =>
      cases hbegin : c.begin now with
      | error e =>
          refine .quiet (.begun (.error e)) c fun os => ?_
          simp only [answer, after, begin_observedBy, hbegin, Except.map, and_self]
      | ok begun =>
          refine .quiet (.begun (.ok begun.1)) begun.2 fun os => ?_
          simp only [answer, after, begin_observedBy, hbegin, Except.map, and_self]
  | start config k parent now => exact c.start_observedBy config k parent now
  | report r now =>
      rcases c.report_observedBy r now with ⟨e, hreport⟩ | ⟨event, c', hreport⟩
      · refine .quiet (.replied (.error e)) c fun os => ?_
        simp only [answer, after, hreport, Except.map, and_self]
      · refine ⟨.replied (.ok ()), event, c', fun os => ?_⟩
        simp only [answer, after, hreport, Except.map, and_self]
  | conclude error now => exact c.conclude_observedBy error now
  | progress now nowUnix =>
      cases hs : c.session with
      | none =>
          refine .quiet (.shown none) c fun os => ?_
          simp only [answer, after, progress, observedBy, hs, and_self]
      | some s =>
          refine .quiet (.shown (some (s.progress c.network.label now nowUnix).1))
            { c with session := some (s.progress c.network.label now nowUnix).2 } fun os => ?_
          simp only [answer, after, progress, observedBy, hs, and_self]

/-! ## What is heard -/

/-- All observers that were there before have heard the same since. -/
structure Hears (c : Controller) (trace : List Event) (c' : Controller) : Prop where
  stay : c.observers.length ≤ c'.observers.length
  heard : ∀ i < c.observers.length, c'.heard i = c.heard i ++ trace

namespace Hears

theorem refl (c : Controller) : c.Hears [] c :=
  ⟨Nat.le_refl _, fun _ _ => (List.append_nil _).symm⟩

theorem trans {c c₁ c₂ : Controller} {trace more : List Event} (h : c.Hears trace c₁)
    (h' : c₁.Hears more c₂) : c.Hears (trace ++ more) c₂ where
  stay := Nat.le_trans h.stay h'.stay
  heard := fun i hi => by
    rw [h'.heard i (Nat.lt_of_lt_of_le hi h.stay), h.heard i hi, List.append_assoc]

/-- One who joins has heard nothing, and the others hear nothing of it. -/
theorem addObserver (c : Controller) (o : Observer) : c.Hears [] (c.after (.addObserver o)) where
  stay := by simp [after, Controller.addObserver]
  heard := fun i hi => by
    simp [after, Controller.addObserver, Controller.heard, List.getElem?_append_left hi]

theorem observedBy (c d : Controller) (event : Option Event) :
    c.Hears event.toList (d.observedBy (c.observers.map (·.tell? event))) where
  stay := by simp [Controller.observedBy]
  heard := fun i hi => by
    cases event with
    | none => simp [Controller.heard, Controller.observedBy, map_tell?_none]
    | some e =>
        have hheard := heard_emit c e hi
        rw [emit_eq] at hheard
        exact hheard

end Hears

/-! ## Two runs -/

/-- Two controllers that differ in nothing but observers that break off at times. -/
structure Alike (c c' : Controller) : Prop where
  others : c' = c.observedBy c'.observers
  steady : steady c'.observers = steady c.observers

/-- The calls that others than observers that break off at times could notice. -/
noncomputable def noticed (calls : List Call) : List Call :=
  open Classical in calls.filter fun
    | .addObserver o => decide o.IsSteady
    | _ => true

/-- What a call shows to its callers: what it answers, and the session that it
    leaves. An observer that is added is not among the calls of the sync. -/
def entry (c : Controller) : Call → List (Answer × Option Session)
  | .addObserver _ => []
  | call => [(c.answer call, (c.after call).session)]

/-- What a run shows to its callers, call by call. -/
def record (c : Controller) : List Call → List (Answer × Option Session)
  | [] => []
  | call :: calls => c.entry call ++ (c.after call).record calls

namespace Alike

variable {c c' : Controller}

theorem symm (h : c.Alike c') : c'.Alike c := by
  refine ⟨?_, h.steady.symm⟩
  rw [h.others]
  rfl

theorem trans {c'' : Controller} (h : c.Alike c') (h' : c'.Alike c'') : c.Alike c'' := by
  refine ⟨?_, h'.steady.trans h.steady⟩
  rw [h'.others, h.others]
  rfl

/-- The same call on both. -/
theorem after (h : c.Alike c') (call : Call) :
    c'.answer call = c.answer call ∧ (c.after call).Alike (c'.after call) ∧
      ∃ trace, c.Hears trace (c.after call) ∧ c'.Hears trace (c'.after call) := by
  by_cases hcall : ∃ o, call = .addObserver o
  · rcases hcall with ⟨o, rfl⟩
    refine ⟨rfl, ⟨?_, ?_⟩, [], .addObserver c o, .addObserver c' o⟩
    · simp only [Controller.after, Controller.addObserver]
      rw [h.others]
      rfl
    · simp only [Controller.after, Controller.addObserver, steady_append, h.steady]
  · rcases c.whoever_observes (fun o ho => hcall ⟨o, ho⟩) with ⟨answer, event, c₁, hdoes⟩
    rcases hdoes c.observers with ⟨hanswer, hafter⟩
    rcases hdoes c'.observers with ⟨hanswer', hafter'⟩
    rw [← h.others] at hanswer' hafter'
    change c.answer call = answer at hanswer
    change c.after call = _ at hafter
    refine ⟨hanswer'.trans hanswer.symm, ⟨?_, ?_⟩, event.toList, ?_, ?_⟩
    · rw [hafter, hafter']
      rfl
    · rw [hafter, hafter']
      simp only [observedBy, steady_map_tell?, h.steady]
    · rw [hafter]
      exact .observedBy c c₁ event
    · rw [hafter']
      exact .observedBy c' c₁ event

theorem entry (h : c.Alike c') (call : Call) : c'.entry call = c.entry call := by
  rcases h.after call with ⟨hanswer, hafter, _⟩
  have hsession : (c'.after call).session = (c.after call).session := by
    rw [hafter.others]
    rfl
  cases call with
  | addObserver o => rfl
  | _ => simp only [Controller.entry, hanswer, hsession]

/-- An observer that breaks off at times, added on one side only. -/
theorem addObserver (h : c.Alike c') {o : Observer} (ho : ¬o.IsSteady) :
    c.Alike (c'.after (.addObserver o)) := by
  refine h.trans ⟨rfl, ?_⟩
  simp only [Controller.after, Controller.addObserver, steady_append, steady_singleton ho,
    List.append_nil]

end Alike

/-- The first call of a run goes unnoticed, or it is the first that is noticed. -/
theorem noticed_cons (call : Call) (calls : List Call) :
    (∃ o, call = .addObserver o ∧ ¬o.IsSteady ∧ noticed (call :: calls) = noticed calls) ∨
      noticed (call :: calls) = call :: noticed calls := by
  cases call with
  | addObserver o =>
      by_cases ho : o.IsSteady
      · exact .inr (by simp [noticed, ho])
      · exact .inl ⟨o, rfl, ho, by simp [noticed, ho]⟩
  | _ => exact .inr rfl

/-- Calls that go unnoticed show nothing. -/
theorem alike_of_noticed_nil {c c' : Controller} (h : c.Alike c') {calls : List Call}
    (hcalls : noticed calls = []) :
    c'.record calls = [] ∧ c.Alike (c'.run calls) ∧ c'.Hears [] (c'.run calls) := by
  induction calls generalizing c' with
  | nil => exact ⟨rfl, h, .refl c'⟩
  | cons call calls ih =>
      rcases noticed_cons call calls with ⟨o, rfl, ho, hrest⟩ | hfirst
      · rcases ih (h.addObserver ho) (hrest ▸ hcalls) with ⟨hrecord, hrun, hheard⟩
        exact ⟨hrecord, hrun, (Hears.addObserver c' o).trans hheard⟩
      · rw [hfirst] at hcalls
        exact absurd hcalls (by simp only [reduceCtorEq, not_false_eq_true])

/-- A run whose first noticed call is a given one: up to it nothing is shown. -/
theorem alike_of_noticed_cons {c c' : Controller} (h : c.Alike c') {call : Call}
    {calls more : List Call} (hcalls : noticed calls = call :: more) :
    ∃ c₁ rest, c.Alike c₁ ∧ noticed rest = more ∧
      c'.record calls = c₁.entry call ++ (c₁.after call).record rest ∧
      c'.run calls = (c₁.after call).run rest ∧ c'.Hears [] c₁ := by
  induction calls generalizing c' with
  | nil => exact absurd hcalls (by simp [noticed])
  | cons first calls ih =>
      rcases noticed_cons first calls with ⟨o, rfl, ho, hrest⟩ | hfirst
      · rcases ih (h.addObserver ho) (hrest ▸ hcalls) with
          ⟨c₁, rest, h₁, hmore, hrecord, hrun, hheard⟩
        exact ⟨c₁, rest, h₁, hmore, hrecord, hrun, (Hears.addObserver c' o).trans hheard⟩
      · rw [hfirst] at hcalls
        rcases List.cons.inj hcalls with ⟨rfl, hrest⟩
        exact ⟨c', calls, h, hrest, rfl, rfl, .refl c'⟩

/-- Two runs whose noticed calls are the same, on controllers that are alike. -/
theorem Alike.run {c c' : Controller} (h : c.Alike c') {calls calls' : List Call}
    (hcalls : noticed calls' = noticed calls) :
    c'.record calls' = c.record calls ∧ (c.run calls).Alike (c'.run calls') ∧
      ∃ trace, c.Hears trace (c.run calls) ∧ c'.Hears trace (c'.run calls') := by
  -- By induction on one run; the other is caught up with at each noticed call.
  induction calls generalizing c c' calls' with
  | nil =>
      rcases alike_of_noticed_nil h hcalls with ⟨hrecord, hrun, hheard⟩
      exact ⟨hrecord, hrun, [], .refl c, hheard⟩
  | cons call calls ih =>
      rcases noticed_cons call calls with ⟨o, rfl, ho, hrest⟩ | hfirst
      · rcases ih (h.symm.addObserver ho).symm (hcalls.trans hrest) with
          ⟨hrecord, hrun, trace, hheard, hheard'⟩
        exact ⟨hrecord, hrun, trace, (Hears.addObserver c o).trans hheard, hheard'⟩
      · rcases alike_of_noticed_cons h (hcalls.trans hfirst) with
          ⟨c₁, rest, h₁, hrest, hrecord, hrun, hjoin⟩
        rcases h₁.after call with ⟨_, hsame, event, hevent, hevent'⟩
        rcases ih hsame hrest with ⟨hrecord', hrun', trace, hheard, hheard'⟩
        rw [hrun]
        refine ⟨?_, hrun', event ++ trace, hevent.trans hheard, hjoin.trans (hevent'.trans hheard')⟩
        rw [hrecord, record, h₁.entry, hrecord']

/-- Observers have no influence on the sync. Two runs with the same observers and the
    same calls, up to observers that break off at times, answer each call the same and
    pass through the same sessions; in the end, the other observers are the same
    and have heard the same. From any point of the two runs on, all observers that
    are there in one of them hear the same, those that break off included: telling one
    after another, and putting down what each of them breaks off with, comes to
    telling all. -/
theorem observers_have_no_influence {c c' : Controller} {calls calls' : List Call}
    (h : c.Alike c') (hcalls : noticed calls' = noticed calls) :
    c'.record calls' = c.record calls ∧
      (c'.run calls').session = (c.run calls).session ∧
      steady (c'.run calls').observers = steady (c.run calls).observers ∧
      (∀ before before' after after', calls = before ++ after → calls' = before' ++ after' →
        noticed before' = noticed before → noticed after' = noticed after →
        ∃ trace, (c.run before).Hears trace (c.run calls) ∧
          (c'.run before').Hears trace (c'.run calls')) ∧
      ∀ (d : Controller) (e : Event), callAll e d.observers =
        (d.observers.map (·.panic? e), (d.emit e).observers) ∧
        (d.emit e).observers = d.observers.map (·.tell e) := by
  rcases h.run hcalls with ⟨hrecord, hrun, _⟩
  refine ⟨hrecord, ?_, hrun.steady, ?_, fun d e => ?_⟩
  · rw [hrun.others]
    rfl
  · rintro before before' after after' rfl rfl hbefore hafter
    rw [run_append, run_append]
    exact ((h.run hbefore).2.1.run hafter).2.2
  · rw [callAll_eq, emit_eq]
    exact ⟨rfl, rfl⟩

/-- A run with and without observers that break off at everything they are told. -/
theorem flaky_observer_has_no_influence :
    let panicky : Observer := .panicking .opaqueValue
    let c : Controller := { network := .testnet, observers := [.silent] }
    let c' : Controller := { network := .testnet, observers := [panicky, .silent] }
    let calls : List Call := [.begin 0, .report (.peerConnected 1) 1, .conclude none 2]
    let calls' : List Call := [.begin 0, .addObserver panicky, .report (.peerConnected 1) 1,
      .conclude none 2]
    c.Alike c' ∧ noticed calls' = noticed calls ∧ c'.record calls' = c.record calls ∧
      (c.run calls).heard 0 = [.peerConnected 1, .synced true] := by
  intro panicky c c' calls calls'
  have hflaky : ¬panicky.IsSteady := fun h => absurd (h []) (by simp [panicky, Observer.panicking])
  have halike : c.Alike c' := by
    refine ⟨rfl, ?_⟩
    change steady ([panicky] ++ [.silent]) = _
    rw [steady_append, steady_singleton hflaky, List.nil_append]
  have hcalls : noticed calls' = noticed calls := by
    simp [noticed, calls, calls', hflaky]
  exact ⟨halike, hcalls, (observers_have_no_influence halike hcalls).1, by decide +kernel⟩

end Controller

end ChainSync
