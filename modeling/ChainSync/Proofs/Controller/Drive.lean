import ChainSync.Controller.Drive
import ChainSync.Proofs.Controller.Trace
import ChainSync.Proofs.Engine.Moves

/-!
# Driven Sessions

What a drive comes to.

A drive has two parts. Its work runs under a handle and may be given up at any
wait; `underHandle_outcome` says that the outcome is the work's own or the
reason the handle gives. Then the drive concludes: it ends the session with
the outcome if nobody has done so before, and answers its caller.

The answer depends on the session at that moment and on the outcome only.
`Session.Answers` is the table, and `conclude_answers` reads it off the
program for every session that keeps an error exactly if it has failed. That
the session does, and that there is one end in all, was shown of every run of
calls; the whole drive is such a run, since everything it does is a move.

## Main definitions

* `Session.reply`, `Session.Answers`: The answer to an outcome.

## Theorems

* `Controller.conclude_active`, `Controller.conclude_over`: The end of a drive.
* `Controller.conclude_window`, `Controller.conclude_fails`: What it leaves of
  the session.
* `Engine.drive_split`: The parts of a drive.
* `Engine.underHandle_outcome`: Where an outcome comes from.
* `Engine.poll_drive_of_cancelled`: A drive under a cancelled handle.
* `Engine.drive_answers`: What a drive comes to.
* `Engine.drive_answers_late_failure`: A drive whose work fails after a sync.
-/

namespace ChainSync

namespace Session

/-- What a session that is over replies to an error of its work, if there is one. -/
def reply (s : Session) : Option SyncError → Except SyncError Unit
  | none => s.verdict
  | some e =>
    if e.isCancellation || s.terminal.map (·.error) = some e then s.verdict else .error e

/-- How a session that is over answers the outcome of its work. -/
structure Answers (s : Session) (outcome a : Except SyncError Unit) : Prop where
  ended : s.isActive = false
  ok : a = .ok () ↔
    s.phase = .synced ∧ ∀ err, outcome = .error err → err.isCancellation = true
  /-- A failed session answers with its own error, unless there is news. -/
  failed : s.phase = .failed → ∃ t, s.terminal = some t ∧
    ((∃ err, outcome = .error err ∧ err.isCancellation = false ∧ err ≠ t.error ∧ a = .error err) ∨
      ((∀ err, outcome = .error err → err.isCancellation = true ∨ err = t.error) ∧
        a = .error t.error))
  late : s.phase ≠ .failed → ∀ err, outcome = .error err → err.isCancellation = false →
    a = .error err

/-- A session that is over has synced or failed. -/
theorem phase_of_over {s : Session} (hover : s.isActive = false) :
    s.phase = .synced ∨ s.phase = .failed := by
  rw [isActive, Bool.not_eq_false'] at hover
  cases hp : s.phase with
  | synced => exact .inl rfl
  | failed => exact .inr rfl
  | _ =>
      rw [hp] at hover
      exact absurd hover (by decide)

/-- What a synced session replies: success, unless there is a fault. -/
theorem answers_of_synced {s : Session} (hp : s.phase = .synced) (ht : s.terminal = none)
    (outcome : Except SyncError Unit) : s.Answers outcome (s.reply (Engine.error? outcome)) := by
  have hover : s.isActive = false := by
    rw [isActive, hp]
    rfl
  have hverdict : s.verdict = .ok () := by rw [verdict, ht]
  have hfailed : s.phase ≠ .failed := by
    rw [hp]
    decide
  cases outcome with
  | ok u =>
      refine ⟨hover, ?_, fun h => absurd h hfailed, fun _ err herr => ?_⟩
      · simp [Engine.error?, reply, hverdict, hp]
      · exact absurd herr (by simp only [reduceCtorEq, not_false_eq_true])
  | error e =>
      cases hc : e.isCancellation with
      | true =>
          -- A cancellation that comes too late is no news.
          have hreply : s.reply (Engine.error? (.error e)) = .ok () := by
            simp [Engine.error?, reply, hc, hverdict]
          rw [hreply]
          refine ⟨hover, ?_, fun h => absurd h hfailed, fun _ err herr hfault => ?_⟩
          · simp [hp, hc]
          · rw [← Except.error.inj herr, hc] at hfault
            exact absurd hfault (by decide)
      | false =>
          -- A fault is handed on, though the session stays synced.
          have hreply : s.reply (Engine.error? (.error e)) = .error e := by
            simp [Engine.error?, reply, hc, ht]
          rw [hreply]
          refine ⟨hover, ?_, fun h => absurd h hfailed, fun _ err herr _ => herr⟩
          simp [hc]

/-- What a failed session replies: its own error, unless there is another fault. -/
theorem answers_of_failed {s : Session} {t : TerminalError} (hp : s.phase = .failed)
    (ht : s.terminal = some t) (outcome : Except SyncError Unit) :
    s.Answers outcome (s.reply (Engine.error? outcome)) := by
  have hover : s.isActive = false := by
    rw [isActive, hp]
    rfl
  have hverdict : s.verdict = .error t.error := by rw [verdict, ht]
  have hsynced : s.phase ≠ .synced := by
    rw [hp]
    decide
  -- Whatever the reply is, it is an error.
  have hanswers (err : SyncError) (h : s.reply (Engine.error? outcome) = .error err)
      (hcase : (∃ e, outcome = .error e ∧ e.isCancellation = false ∧ e ≠ t.error ∧ err = e) ∨
        (∀ e, outcome = .error e → e.isCancellation = true ∨ e = t.error) ∧ err = t.error) :
      s.Answers outcome (s.reply (Engine.error? outcome)) := by
    rw [h]
    refine ⟨hover, ?_, fun _ => ⟨t, ht, ?_⟩, fun hnot => absurd hp hnot⟩
    · simp [hsynced]
    · rcases hcase with ⟨e, he, hc, hne, heq⟩ | ⟨hall, heq⟩
      · exact .inl ⟨e, he, hc, hne, by rw [heq]⟩
      · exact .inr ⟨hall, by rw [heq]⟩
  cases outcome with
  | ok u =>
      refine hanswers _ hverdict (.inr ⟨fun e he => ?_, rfl⟩)
      exact absurd he (by simp only [reduceCtorEq, not_false_eq_true])
  | error e =>
      by_cases hnews : e.isCancellation = true ∨ t.error = e
      · refine hanswers t.error ?_ (.inr ⟨fun e' he' => ?_, rfl⟩)
        · simp only [Engine.error?, reply, ht, Option.map_some]
          rw [if_pos (by simpa using hnews), hverdict]
        · rw [← Except.error.inj he']
          exact hnews.imp_right Eq.symm
      · refine hanswers e ?_ (.inl ⟨e, rfl, ?_, ?_, rfl⟩)
        · simp only [Engine.error?, reply, ht, Option.map_some]
          rw [if_neg (by simpa using hnews)]
        · simpa using fun hc => hnews (.inl hc)
        · exact fun heq => hnews (.inr heq.symm)

/-- A session that keeps an error exactly if it has failed answers by its reply. -/
theorem answers_reply {s : Session} (hover : s.isActive = false)
    (hfault : s.terminal.isSome = true ↔ s.phase = .failed) (outcome : Except SyncError Unit) :
    s.Answers outcome (s.reply (Engine.error? outcome)) := by
  rcases phase_of_over hover with hp | hp
  · have hnone : ¬s.terminal.isSome = true := fun h => by
      rw [hfault.mp h] at hp
      exact absurd hp (by decide)
    exact answers_of_synced hp (by simpa using hnone) outcome
  · rcases Option.isSome_iff_exists.mp (hfault.mpr hp) with ⟨t, ht⟩
    exact answers_of_failed hp ht outcome

end Session

namespace Controller

theorem conclude_active {c : Controller} {s : Session} (error : Option SyncError) (now : Nat)
    (hs : c.session = some s) (hactive : s.isActive = true) :
    ∃ s', c.conclude error now = (s'.reply error,
        ({ c with session := some s' } : Controller).emit (Session.closingEvent error)) ∧
      s.Advances (some (Session.closingEvent error)) s' ∧
      s'.phase = (if error.isSome then .failed else .synced) ∧
      s'.terminal = (error.map .ofError).or s.terminal := by
  rcases Session.take_closing now error hactive with ⟨s', htake, hphase, hterminal⟩
  refine ⟨s', ?_, Session.advances_of_take htake, hphase, hterminal⟩
  have hreply : s'.reply error = s'.verdict := by
    cases error with
    | none => rfl
    | some e => simp [Session.reply, hterminal, TerminalError.ofError]
  simp only [conclude, hs, hactive, if_true, htake, hreply]
  rfl

theorem conclude_over {c : Controller} {s : Session} (error : Option SyncError) (now : Nat)
    (hs : c.session = some s) (hover : s.isActive = false) :
    c.conclude error now = (s.reply error, c) := by
  simp only [conclude, hs, hover, Bool.false_eq_true, if_false]
  cases error with
  | none => rfl
  | some e =>
      simp only [Session.reply]
      split <;> rfl

/-- After the end of a drive the session is over and answers the outcome. -/
theorem conclude_answers {c : Controller} {s : Session} (outcome : Except SyncError Unit)
    (now : Nat) (hs : c.session = some s)
    (hfault : s.terminal.isSome = true ↔ s.phase = .failed) :
    ∃ s', (c.conclude (Engine.error? outcome) now).2.session = some s' ∧
      s'.Answers outcome (c.conclude (Engine.error? outcome) now).1 := by
  cases hactive : s.isActive with
  | true =>
      rcases conclude_active (Engine.error? outcome) now hs hactive with ⟨s', heq, hadv, _⟩
      have hover : s'.isActive = false := by
        rw [hadv.ending, hactive]
        cases outcome <;> rfl
      rw [heq]
      exact ⟨s', rfl, Session.answers_reply hover (hadv.fault hfault) outcome⟩
  | false =>
      rw [conclude_over (Engine.error? outcome) now hs hactive]
      exact ⟨s, hs, Session.answers_reply hactive hfault outcome⟩

section

variable {c : Controller} {opening : Call} {calls : List Call}
  (hopen : c.begins opening = true) (hstay : (c.after opening).StaysOn calls)
include hopen hstay

/-- A drive that ends within the window of a session leaves the session over,
    and with one end that has been heard of it. -/
theorem conclude_window (outcome : Except SyncError Unit) (now : Nat) :
    ∃ s, ((c.run (opening :: calls)).conclude (Engine.error? outcome) now).2.session = some s ∧
      s.id = c.nextId ∧
      (∀ i < c.observers.length, ∃ trace,
        ((c.run (opening :: calls)).conclude (Engine.error? outcome) now).2.heard i =
          c.heard i ++ trace ∧ trace.countP Event.isTerminal = 1) ∧
      s.Answers outcome ((c.run (opening :: calls)).conclude (Engine.error? outcome) now).1 := by
  rcases window_tells hopen hstay with ⟨s₀, _, hs₀, htells₀, _⟩
  rcases conclude_answers outcome now hs₀ htells₀.fault with ⟨s, hs, hanswers⟩
  -- The conclusion is one more call, so the window goes on to hold.
  have hstay' : (c.after opening).StaysOn (calls ++ [.conclude (Engine.error? outcome) now]) :=
    staysOn_append.mpr ⟨hstay, rfl, trivial⟩
  have hrun : c.run (opening :: (calls ++ [.conclude (Engine.error? outcome) now])) =
      ((c.run (opening :: calls)).conclude (Engine.error? outcome) now).2 := by
    rw [← List.cons_append, run_append]
    rfl
  rcases window_tells hopen hstay' with ⟨s', trace, hs', htells, hid, hheard, _⟩
  rw [hrun] at hs' hheard
  rcases Option.some.inj (hs.symm.trans hs') with rfl
  refine ⟨s, hs, hid, fun i hi => ⟨trace, hheard i hi, ?_⟩, hanswers⟩
  rw [htells.countP_isTerminal, hanswers.ended]
  rfl

/-- A drive that ends with an error, within the window of a session that is
    still under way, makes it fail with that error. -/
theorem conclude_fails (err : SyncError) (now : Nat)
    (hsyncing : (c.run (opening :: calls)).isSyncing = true) :
    ((c.run (opening :: calls)).conclude (some err) now).1 = .error err ∧
      ∃ s, ((c.run (opening :: calls)).conclude (some err) now).2.session = some s ∧
        s.id = c.nextId ∧ s.phase = .failed ∧ s.terminal = some (.ofError err) ∧
        ∀ i < c.observers.length,
          ((c.run (opening :: calls)).conclude (some err) now).2.heard i =
            (c.run (opening :: calls)).heard i ++ [.syncError err.code err] := by
  rcases window_tells hopen hstay with ⟨s, _, hs, _, hid, _, hgrow, _⟩
  have hactive : s.isActive = true := by
    rw [isSyncing, hs] at hsyncing
    exact hsyncing
  rcases conclude_active (some err) now hs hactive with ⟨s', heq, hadv, hphase, hterminal⟩
  have hverdict : s'.verdict = .error err := by
    rw [Session.verdict, hterminal]
    rfl
  rw [heq]
  refine ⟨?_, s', rfl, hadv.id.trans hid, hphase, hterminal, fun i hi => ?_⟩
  · -- Whether the error counts as news or not, it is the session's own.
    simp only [Session.reply, hverdict]
    split <;> rfl
  · exact heard_emit { c.run (opening :: calls) with session := some s' } _
      (Nat.lt_of_lt_of_le hi hgrow)

end

end Controller

namespace Engine

variable {χ : Type}

/-! ## The work under its handle -/

-- The condition under which a run that may be given up leads back to the work.
theorem stopReason_moves {handle : Nat} {e e' : Engine χ} (h : e.Moves e')
    (hstop : (stopReason handle e).isSome = true) : (stopReason handle e').isSome = true := by
  have hsome (c : Coordinator) : (c.cancellation handle).isSome = c.isCancelled handle := by
    unfold Coordinator.cancellation
    split <;> simp_all
  rw [stopReason, hsome] at hstop ⊢
  exact h.cancelled handle hstop

/-- Work under a handle only does what the work does. -/
theorem does_underHandle (handle : Nat) {work : Routine (Engine χ) (Except SyncError Unit)}
    (hwork : work.Does Moves) : (underHandle handle work).Does Moves := by
  refine (does_untilStopped handle hwork).bind fun result => ?_
  cases result with
  | ok outcome => trivial
  | error reason => exact ⟨fun e => e.moves_note _, fun _ => trivial⟩

/-- The outcome of work under a handle is the work's own, or the reason that
    the handle gives at some moment to stop it. -/
theorem underHandle_outcome {handle : Nat} {work : Routine (Engine χ) (Except SyncError Unit)}
    (hwork : work.Does Moves) {e e' : Engine χ} {outcome : Except SyncError Unit}
    (h : (underHandle handle work).RunsAmong now Moves e outcome e') :
    (∃ e₁ e₂, e.Moves e₁ ∧ work.RunsAmong now Moves e₁ outcome e₂ ∧ e₂.Moves e') ∨
      ∃ reason m, outcome = .error reason ∧ e.Moves m ∧ stopReason handle m = some reason ∧
        m.Moves e' := by
  -- The handle is looked at before the work is begun, and at every wait.
  rcases (Routine.runsAmong_bind _ _ _ _ _).mp h with ⟨result, e₁, huntil, hrest⟩
  rcases (Routine.runsAmong_bind _ _ _ _ _).mp huntil with ⟨reason?, e₂, hask, hwork'⟩
  rcases (Routine.runsAmong_perform _ _ _ _).mp hask with ⟨m, hm, heq⟩
  rcases Prod.mk.inj heq with ⟨hreason, rfl⟩
  cases hr : reason? with
  | some reason =>
      rw [hr] at hwork'
      rcases hwork' with ⟨rfl, rfl⟩
      rcases hrest with ⟨e₃, h₃, rfl, rfl⟩
      exact .inr ⟨reason, m, rfl, hm, hreason.trans hr, h₃.trans (e₃.moves_note _)⟩
  | none =>
      rw [hr] at hwork'
      rcases (Routine.runsAmong_bind _ _ _ _ _).mp hwork' with ⟨_, e₃, hgive, hunless⟩
      have h₃ : e.Moves e₃ :=
        hm.trans (hgive.keeps Moves.refl Moves.trans (fun _ _ h => h) does_giveWayIfSpent)
      rcases Routine.runsAmong_of_unlessStopped Moves.refl Moves.trans stopReason_moves hwork
          hunless with ⟨own, e₄, rfl, hrun, hlast⟩ | ⟨reason, m', rfl, hm', hstop, hlast⟩
      · rcases hrest with ⟨rfl, rfl⟩
        exact .inl ⟨e₃, e₄, h₃, hrun, hlast⟩
      · rcases hrest with ⟨e₄, h₄, rfl, rfl⟩
        exact .inr ⟨reason, m', rfl, h₃.trans hm', hstop,
          hlast.trans (h₄.trans (e₄.moves_note _))⟩

/-! ## The whole drive -/

/-- A drive enters its span, runs its work and concludes. -/
theorem drive_split {others : Engine χ → Engine χ → Prop} {handle : Nat}
    {work : Routine (Engine χ) (Except SyncError Unit)} {e e' : Engine χ}
    {a : Except SyncError Unit} (h : (drive handle work).RunsAmong now others e a e') :
    ∃ first outcome done last, others e first ∧
      (within (sessionSpan handle first) (underHandle handle work)).RunsAmong now others first
        outcome done ∧
      others done last ∧
      (a, e'.controller) = last.controller.conclude (error? outcome) last.instant ∧
      e'.coordinator = last.coordinator := by
  rcases (Routine.runsAmong_bind _ _ _ _ _).mp h with ⟨span, first, hask, hrest⟩
  rcases (Routine.runsAmong_perform _ _ _ _).mp hask with ⟨e₁, h₁, heq⟩
  rcases Prod.mk.inj heq with ⟨rfl, rfl⟩
  -- The span is around both parts, so it is around each of them.
  change (within _ (Routine.bind _ _)).RunsAmong now others e₁ a e' at hrest
  rw [within_bind] at hrest
  rcases (Routine.runsAmong_bind _ _ _ _ _).mp hrest with ⟨outcome, done, hwork, hlast⟩
  rcases hlast with ⟨last, hlast, rfl, rfl⟩
  exact ⟨e₁, outcome, done, last, h₁, hwork, hlast, rfl, rfl⟩

/-- Work under a cancelled handle is over at once, whatever it is. -/
theorem poll_underHandle_of_cancelled {handle : Nat} {e : Engine χ} {reason : SyncError}
    (h : stopReason handle e = some reason) (span : Span) :
    ∃ e', (∀ work, (within span (underHandle handle work)).poll e = (.done (.error reason), e')) ∧
      e'.controller = e.controller ∧ e'.instant = e.instant := by
  -- Nothing up to the first wait depends on the work.
  let outside : Engine χ := { e with spans := (e.spans ++ [span]).dropLast }
  have hask : (within span (.ask (stopReason handle))).poll e = (.done (some reason), outside) := by
    rw [← h]
    rfl
  have huntil (work : Routine (Engine χ) (Except SyncError Unit)) :
      (within span (untilStopped handle work)).poll e = (.done (.error reason), outside) := by
    change (within _ (Routine.bind _ _)).poll e = _
    rw [within_bind, Routine.poll_bind hask]
    rfl
  let told : Routine (Engine χ) Unit :=
    within span (.update (·.note [.info ("Sync cancelled: " ++ reason.message)]))
  refine ⟨(told.poll outside).2, fun work => ?_, rfl, rfl⟩
  change (within _ (Routine.bind _ _)).poll e = _
  rw [within_bind, Routine.poll_bind (huntil work)]
  rfl

/-- A drive under a cancelled handle is over at once, and makes no step of its
    work, whatever that is. -/
theorem poll_drive_of_cancelled {handle : Nat} {e : Engine χ} {reason : SyncError}
    (h : stopReason handle e = some reason) :
    ∃ a e', (∀ work, (drive handle work).poll e = (.done a, e')) ∧
      (a, e'.controller) = e.controller.conclude (some reason) e.instant := by
  rcases poll_underHandle_of_cancelled h (sessionSpan handle e) with
    ⟨e₁, hpoll, hcontroller, hinstant⟩
  rw [← hcontroller, ← hinstant]
  let concluded : Routine (Engine χ) (Except SyncError Unit) :=
    within (sessionSpan handle e) (.perform (·.conclude (some reason)))
  refine ⟨(e₁.controller.conclude (some reason) e₁.instant).1, (concluded.poll e₁).2,
    fun work => ?_, rfl⟩
  change (within _ (Routine.bind _ _)).poll e = _
  rw [within_bind, Routine.poll_bind (hpoll work)]
  rfl

/-- The error of a handle's reason, or the general one of a handle without. -/
theorem stopReason_eq {handle : Nat} {e : Engine χ}
    (h : e.coordinator.isCancelled handle = true) :
    stopReason handle e = some ((((e.coordinator.handle? handle).bind (·.reason)).map
      CancelReason.toError).getD (.cancelled "operation cancelled")) := by
  simp only [stopReason, Coordinator.cancellation, h, if_true]
  cases e.coordinator.handle? handle <;> rfl

/-- A cancelled operation that has run out of time has a code of its own. -/
theorem code_of_reason (reason : Option CancelReason) :
    ((reason.map CancelReason.toError).getD (.cancelled "operation cancelled")).code.value =
      if reason = some .deadlineExceeded then 2 else 1 := by
  cases reason with
  | none => rfl
  | some r => cases r <;> rfl

/-- A call that goes on after the window of a session keeps to it. -/
theorem Moves.window {c : Controller} {opening : Controller.Call} {calls : List Controller.Call}
    {e e' : Engine χ} (h : e.Moves e') (he : e.controller = c.run (opening :: calls))
    (hstay : (c.after opening).StaysOn calls) :
    ∃ more, e'.controller = c.run (opening :: (calls ++ more)) ∧
      (c.after opening).StaysOn (calls ++ more) := by
  rcases h.calls with ⟨more, hmore, hrun⟩
  rw [he] at hmore hrun
  refine ⟨more, ?_, Controller.staysOn_append.mpr ⟨hstay, hmore⟩⟩
  rw [hrun, ← Controller.run_append]
  rfl

/-- What a drive comes to, in a session that has begun at any time before. Its
    work and everybody else may do anything but begin another session. Once the
    drive is over, so is the session, its observers have heard of one end, and
    the drive answers the outcome, which is the work's own or a reason to stop.
    A drive under a cancelled handle makes no step of its work, and a session
    under way fails with the error of the handle's reason. -/
theorem drive_answers (c : Controller) (opening : Controller.Call)
    (calls : List Controller.Call) (hopen : c.begins opening = true)
    (hstay : (c.after opening).StaysOn calls) (handle : Nat) (e : Engine χ)
    (he : e.controller = c.run (opening :: calls)) :
    (∀ work : Routine (Engine χ) (Except SyncError Unit), work.Does Moves →
      ∀ a e', (drive handle work).RunsAmong now Moves e a e' →
        ∃ s outcome, e'.controller.session = some s ∧ s.id = c.nextId ∧
          (∀ i < c.observers.length, ∃ trace, e'.controller.heard i = c.heard i ++ trace ∧
            trace.countP Event.isTerminal = 1) ∧
          s.Answers outcome a ∧
          ((∃ e₁ e₂, e.Moves e₁ ∧ work.RunsAmong now Moves e₁ outcome e₂ ∧ e₂.Moves e') ∨
            ∃ reason m, outcome = .error reason ∧ e.Moves m ∧
              stopReason handle m = some reason ∧ m.Moves e')) ∧
    (e.coordinator.isCancelled handle = true →
      let reason := (e.coordinator.handle? handle).bind (·.reason)
      let err := (reason.map CancelReason.toError).getD (.cancelled "operation cancelled")
      err.code.value = (if reason = some .deadlineExceeded then 2 else 1) ∧
        ∃ a e', (∀ work, (drive handle work).poll e = (.done a, e')) ∧
          (e.controller.isSyncing = true → a = .error err ∧
            ∃ s, e'.controller.session = some s ∧ s.id = c.nextId ∧ s.phase = .failed ∧
              s.terminal = some (.ofError err) ∧
              ∀ i < c.observers.length,
                e'.controller.heard i = e.controller.heard i ++ [.syncError err.code err])) := by
  refine ⟨fun work hwork a e' hrun => ?_, fun hcancelled => ?_⟩
  · rcases drive_split hrun with ⟨first, outcome, done, last, h₁, hwork', h₂, hconclude, hsame⟩
    have hdone : first.Moves done := hwork'.keeps Moves.refl Moves.trans (fun _ _ h => h)
      (does_within _ (does_underHandle handle hwork))
    have hend : last.Moves e' := .of_call (.conclude (error? outcome) last.instant) rfl
      (congrArg Prod.snd hconclude) hsame
    -- The drive concludes within the window, whatever has been done until then.
    rcases (h₁.trans (hdone.trans h₂)).window he hstay with ⟨more, hlast, hstay'⟩
    rw [hlast] at hconclude
    rcases Prod.mk.inj hconclude with ⟨rfl, hc⟩
    rw [hc]
    rcases Controller.conclude_window hopen hstay' outcome last.instant with
      ⟨s, hs, hid, hheard, hanswers⟩
    refine ⟨s, outcome, hs, hid, hheard, hanswers, ?_⟩
    -- The outcome is that of the work, with the moves around it.
    rcases runsAmong_of_within hwork' with ⟨m, hunder, hm⟩
    rcases underHandle_outcome hwork hunder with
      ⟨e₁, e₂, he₁, hown, he₂⟩ | ⟨reason, m', hreason, hm₁, hstop, hm₂⟩
    · exact .inl ⟨e₁, e₂, h₁.trans he₁, hown, he₂.trans (hm.trans (h₂.trans hend))⟩
    · exact .inr ⟨reason, m', hreason, h₁.trans hm₁, hstop,
        hm₂.trans (hm.trans (h₂.trans hend))⟩
  · intro reason err
    rcases poll_drive_of_cancelled (stopReason_eq hcancelled) with ⟨a, e', hpoll, hconclude⟩
    refine ⟨code_of_reason reason, a, e', hpoll, fun hsyncing => ?_⟩
    rw [he] at hsyncing hconclude ⊢
    rcases Prod.mk.inj hconclude with ⟨rfl, hc⟩
    rw [hc]
    exact Controller.conclude_fails hopen hstay err e.instant hsyncing

/-- A session that is under way, with a handle for its work. -/
def underway : Engine Unit where
  controller := ({ network := .testnet, observers := [.silent] } : Controller).run
    [.begin 0, .report (.peerConnected 1) 1]
  own := ()
  coordinator := ((({} : Coordinator).makeToken none).2.derive 0 none).2

/-- Work that reports the sync as done and fails afterwards. -/
def lateFailure : Routine (Engine Unit) (Except SyncError Unit) := do
  let _ ← .perform (·.report .synced)
  .giveWay
  return .error (.storage "flush failed")

theorem drive_answers_late_failure :
    let c : Controller := { network := .testnet, observers := [.silent] }
    (c.begins (.begin 0) = true ∧ (c.after (.begin 0)).StaysOn [.report (.peerConnected 1) 1] ∧
      underway.controller = c.run [.begin 0, .report (.peerConnected 1) 1]) ∧
    ∃ e' s outcome, lateFailure.Does Moves ∧
      (drive 1 lateFailure).RunsAmong now Moves underway (.error (.storage "flush failed")) e' ∧
      e'.controller.session = some s ∧ s.id = c.nextId ∧
      (∀ i < c.observers.length, ∃ trace, e'.controller.heard i = c.heard i ++ trace ∧
        trace.countP Event.isTerminal = 1) ∧
      s.Answers outcome (.error (.storage "flush failed")) := by
  intro c
  have hopen : c.begins (.begin 0) = true := rfl
  have hstay : (c.after (.begin 0)).StaysOn [.report (.peerConnected 1) 1] := ⟨rfl, trivial⟩
  have hdoes : lateFailure.Does Moves :=
    ⟨fun e => e.moves_report .synced, fun _ => ⟨Moves.refl, trivial⟩⟩
  have hresult : (run none (drive 1 lateFailure) underway).1 =
    some (.error (.storage "flush failed")) := rfl
  have hrun := runsAmong_of_run (Prod.ext hresult rfl)
  rcases (drive_answers c (.begin 0) [.report (.peerConnected 1) 1] hopen hstay 1 underway rfl).1
    lateFailure hdoes _ _ hrun with ⟨s, outcome, hs, hid, hheard, hanswers, _⟩
  exact ⟨⟨hopen, hstay, rfl⟩, _, s, outcome, hdoes, hrun, hs, hid, hheard, hanswers⟩

end Engine

end ChainSync
