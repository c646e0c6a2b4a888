import ChainSync.Proofs.Session.Advance
import ChainSync.Session.Progress

/-!
# Session Calls

Runs of a single session, call by call.

A session can be begun, be told something by a worker, and be asked what it
shows of itself. Every call is answered, and a refused call leaves the session
alone. What a call answers is kept beside what it leaves, so that two runs can
be compared by what a caller sees of them.

For the shape of a session only the phase and what is noted together with it
matter. A call either leaves all of that as it is or makes one move that the
order of the phases allows; `Turns` says so once for all calls, and the
programs of the single reports are not opened after that.

## Main definitions

* `Session.Call`, `Session.Answer`: What a session is asked and answers.
* `Session.call`, `Session.run`, `Session.answers`: One call, and many.
* `Session.outline`: A session without what it counts.
* `Session.Turns`: What a call does to the outline.

## Theorems

* `Session.turns_of_take`: A report that is taken turns the session.
* `Session.turns_of_call`: So does every call.
-/

namespace ChainSync

namespace Session

/-- What a session can be asked to do. -/
inductive Call where
  | begin (now : Nat)
  | report (r : Report) (now : Nat)
  | progress (label : String) (now : Nat) (nowUnix : Int64)

/-- What a session answers. The event of a report that is taken holds what the
    worker is told: the number of peers kept, the error kept, and whether the
    report counts at all. -/
inductive Answer where
  | begun
  | taken (event : Option Event)
  | shown (p : Progress)
  | refused (r : Rejection)
deriving DecidableEq

/-- The answer to a call, and the session after it. -/
def call (s : Session) : Call → Answer × Session
  | .begin now => match s.begin now with
    | .ok s' => (.begun, s')
    | .error r => (.refused r, s)
  | .report r now => match s.take now r with
    | .ok (event, s') => (.taken event, s')
    | .error r => (.refused r, s)
  | .progress label now nowUnix =>
    let (p, s') := s.progress label now nowUnix
    (.shown p, s')

/-- The session after calls, one after the other. -/
def run (s : Session) (calls : List Call) : Session := calls.foldl (fun s c => (s.call c).2) s

/-- The answers to calls, one after the other. -/
def answers (s : Session) : List Call → List Answer
  | [] => []
  | c :: calls => (s.call c).1 :: (s.call c).2.answers calls

@[simp] theorem run_nil (s : Session) : s.run [] = s := rfl

@[simp] theorem run_cons (s : Session) (c : Call) (calls : List Call) :
    s.run (c :: calls) = (s.call c).2.run calls := rfl

theorem run_append (s : Session) (before after : List Call) :
    s.run (before ++ after) = (s.run before).run after := List.foldl_append

/-- The point in time that a call may note. A number of peers is kept without
    one, and a snapshot notes nothing. -/
def Call.clock? : Call → Option Nat
  | .begin now => some now
  | .report (.peerConnected _) _ => none
  | .report (.peerDisconnected _) _ => none
  | .report _ now => some now
  | .progress .. => none

/-- A session without what it counts. -/
def outline (s : Session) : Session :=
  { s with
    peers := 0, filters := 0, headersStart := 0, peerHeight := 0, headers := 0
    lastHeaderTime := 0, discovered := false, rescanned := 0, bestProgress := 0 }

/-- What a call at a point in time does to the outline of a session. -/
inductive Turns (s : Session) (clock : Option Nat) (s' : Session) : Prop
  | stays (h : s'.outline = s.outline)
  | moves (now : Nat) (next : Phase) (reason : String) (hclock : clock = some now)
      (hcan : s.phase.canMoveTo next = true) (hnext : next ≠ .failed)
      (h : s'.outline = (s.moved next reason now).outline)
  | fails (now : Nat) (error : SyncError) (hclock : clock = some now)
      (hcan : s.phase.canMoveTo .failed = true)
      (h : s'.outline = { (s.moved .failed error.message now).outline with
        terminal := some (.ofError error) })

theorem canMoveTo_of_rank_lt {s : Session} {next : Phase} (hactive : s.isActive = true)
    (h : s.phase.rank < next.rank) : s.phase.canMoveTo next = true := by
  have hs : s.phase.isTerminal = false := by simpa [isActive] using hactive
  simp [Phase.canMoveTo, hs, h]

/-- A report that belongs to a phase is over, as far as the outline goes, once
    the phase has been entered. -/
theorem turns_of_enter {s s₁ s' : Session} {phase : Phase} {reason : String} {now : Nat}
    (henter : s.enter phase reason now = .ok s₁) (hphase : phase ≠ .failed)
    (h : s'.outline = s₁.outline) : s.Turns (some now) s' := by
  rcases enter_ok henter with ⟨hactive, ⟨_, rfl⟩ | ⟨hlt, rfl⟩⟩
  · exact .stays h
  · exact .moves now phase reason rfl (canMoveTo_of_rank_lt hactive hlt) hphase h

/-- What is left by a report whose number counts or is dropped. -/
theorem eq_ite_of_ok {c : Prop} [Decidable c] {dropped kept s' : Session} {accepted : Bool}
    (h : (if c then .ok (false, dropped) else .ok (true, kept) : Except Rejection _) =
      .ok (accepted, s')) : s' = if c then dropped else kept := by
  by_cases hc : c
  · rw [if_pos hc] at h ⊢
    exact (Prod.mk.inj (Except.ok.inj h)).2.symm
  · rw [if_neg hc] at h ⊢
    exact (Prod.mk.inj (Except.ok.inj h)).2.symm

theorem begin_ok {s s' : Session} {now : Nat} (h : s.begin now = .ok s') :
    s.phase.canMoveTo .connectingPeers = true ∧
      s' = s.moved .connectingPeers "session started" now := by
  unfold begin at h
  by_cases hidle : s.phase = .idle
  · have hcan : s.phase.canMoveTo .connectingPeers = true := by
      rw [hidle]
      rfl
    rw [if_pos hidle, move_eq, if_pos hcan] at h
    exact ⟨hcan, (Except.ok.inj h).symm⟩
  · rw [if_neg hidle] at h
    exact absurd h (by simp only [reduceCtorEq, not_false_eq_true])

theorem turns_of_begin {s s' : Session} {now : Nat} (h : s.begin now = .ok s') :
    s.Turns (some now) s' := by
  rcases begin_ok h with ⟨hcan, rfl⟩
  exact .moves now .connectingPeers _ rfl hcan (by decide) rfl

theorem turns_of_take {s s' : Session} {now : Nat} {r : Report} {event : Option Event}
    (h : s.take now r = .ok (event, s')) : s.Turns (Call.report r now).clock? s' := by
  cases r with
  | peerConnected n =>
      rcases bind_ok h with ⟨s₁, hset, h⟩
      rcases setPeers_ok hset with ⟨_, rfl⟩
      rcases Prod.mk.inj (Except.ok.inj h) with ⟨_, rfl⟩
      exact .stays rfl
  | peerDisconnected n =>
      rcases bind_ok h with ⟨s₁, hset, h⟩
      rcases setPeers_ok hset with ⟨_, rfl⟩
      rcases Prod.mk.inj (Except.ok.inj h) with ⟨_, rfl⟩
      exact .stays rfl
  | fetchMissingFilters n =>
      rcases bind_ok h with ⟨⟨accepted, s₂⟩, hrecord, h⟩
      rcases Prod.mk.inj (Except.ok.inj h) with ⟨_, rfl⟩
      rcases bind_ok hrecord with ⟨s₁, henter, hrecord⟩
      refine turns_of_enter henter (by decide) ?_
      rw [eq_ite_of_ok hrecord]
      split <;> rfl
  | beginHeaders height =>
      rcases bind_ok h with ⟨s₂, hbegin, h⟩
      rcases Prod.mk.inj (Except.ok.inj h) with ⟨_, rfl⟩
      rcases bind_ok hbegin with ⟨s₁, henter, hbegin⟩
      rw [← Except.ok.inj hbegin]
      exact turns_of_enter henter (by decide) rfl
  | fetchedHeaders peerHeight count time =>
      rcases bind_ok h with ⟨s₂, hrecord, h⟩
      rcases Prod.mk.inj (Except.ok.inj h) with ⟨_, rfl⟩
      rcases bind_ok hrecord with ⟨s₁, henter, hrecord⟩
      -- Whether or not the count goes up, the phase is the same.
      refine turns_of_enter henter (by decide) ?_
      by_cases hup : s₁.headers ≤ count
      · rw [if_pos hup] at hrecord
        rw [← Except.ok.inj hrecord]
        rfl
      · rw [if_neg hup] at hrecord
        rw [← Except.ok.inj hrecord]
        rfl
  | discoveredAddresses finished =>
      rcases bind_ok h with ⟨⟨accepted, s₂⟩, hrecord, h⟩
      rcases Prod.mk.inj (Except.ok.inj h) with ⟨_, rfl⟩
      rcases bind_ok hrecord with ⟨s₁, henter, hrecord⟩
      refine turns_of_enter henter (by decide) ?_
      rw [eq_ite_of_ok hrecord]
      split <;> rfl
  | rescanProgress through =>
      rcases bind_ok h with ⟨⟨accepted, s₂⟩, hrecord, h⟩
      rcases Prod.mk.inj (Except.ok.inj h) with ⟨_, rfl⟩
      rcases bind_ok hrecord with ⟨s₁, henter, hrecord⟩
      refine turns_of_enter henter (by decide) ?_
      rw [eq_ite_of_ok hrecord]
      split <;> rfl
  | synced =>
      rcases bind_ok h with ⟨s₁, hfinish, h⟩
      rcases finish_ok hfinish with ⟨hactive, rfl⟩
      rcases Prod.mk.inj (Except.ok.inj h) with ⟨_, rfl⟩
      exact .moves now .synced _ rfl (canMoveTo_end hactive rfl) (by decide) rfl
  | failed error =>
      rcases bind_ok h with ⟨s₁, hfail, h⟩
      rcases fail_ok hfail with ⟨hactive, rfl⟩
      rcases Prod.mk.inj (Except.ok.inj h) with ⟨_, rfl⟩
      exact .fails now error rfl (canMoveTo_end hactive rfl) rfl

theorem turns_of_call (s : Session) (c : Call) : s.Turns c.clock? (s.call c).2 := by
  cases c with
  | begin now =>
      cases h : s.begin now with
      | ok s' =>
          simp only [call, h]
          exact turns_of_begin h
      | error r =>
          simp only [call, h]
          exact .stays rfl
  | report r now =>
      cases h : s.take now r with
      | ok out =>
          simp only [call, h]
          exact turns_of_take h
      | error r =>
          simp only [call, h]
          exact .stays rfl
  | progress label now nowUnix => exact .stays rfl

end Session

end ChainSync
