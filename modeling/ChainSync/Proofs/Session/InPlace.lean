import ChainSync.Proofs.Session.Advance

/-!
# Sessions Changed in Place

The reports of a session as programs that write to it, one field after the
other.

A report of `Session` hands out a new session or none, and whoever called it
goes on with the old one when there is none. A session that is changed in place
has no old one to go back to: whatever has been written before a check fails
stays written. The programs here are read that way, and they come to the same as
the reports. So a program that fails leaves the session as it found it.

This is so because of the order in which things are done, and the proofs say no
more than that order. A check that stands first has nothing to leave behind
(`on_check`), and what comes after the last check only writes, so it cannot
fail any more (`on_writes`).

## Main definitions

* `Session.InPlace`: Programs that change a session in place.
* `Session.InPlace.on`: What such a program answers and leaves behind.
* `Session.landing`: What a report answers and leaves behind.
* `Session.InPlace.Faithful`: Both come to the same.

## Theorems

* `Session.InPlace.on_check`, `Session.InPlace.on_writes`: Checks come first.
* `Session.InPlace.on_transition`, `Session.InPlace.on_enter`: Moves.
* `Session.InPlace.faithful`, `Session.InPlace.on_take`: The reports.
-/

namespace ChainSync

namespace Session

variable {α β : Type}

/-- A program that changes a session in place. What it has written before it
    fails is not taken back. -/
abbrev InPlace := ExceptT Rejection (StateM Session)

/-- What is answered and left by a report that leaves the session alone if it
    is refused. -/
def landing (s : Session) : Except Rejection (α × Session) → Except Rejection α × Session
  | .ok (a, s') => (.ok a, s')
  | .error why => (.error why, s)

namespace InPlace

/-- What a program answers, and the session that it leaves. -/
def on (m : InPlace α) (s : Session) : Except Rejection α × Session := m.run.run s

/-! ## The programs

Each is the report of the same name. -/

def ensureActive : InPlace Unit := do
  let s ← get
  if s.isActive then pure () else throw (.alreadyFinished s.id s.phase)

def transition (next : Phase) (reason : String) (now : Nat) : InPlace Unit := do
  let s ← get
  if s.phase.canMoveTo next then
    modify (·.stamp next now)
    modify fun s => { s with history := s.history ++ [⟨s.phase, next, now, reason⟩] }
    modify fun s => { s with phase := next }
  else throw (.cannotMove s.phase next)

def enter (phase : Phase) (reason : String) (now : Nat) : InPlace Unit := do
  ensureActive
  let s ← get
  if s.phase = phase then pure ()
  else if phase.rank < s.phase.rank then throw (.outOfOrder phase s.phase)
  else transition phase reason now

def begin (now : Nat) : InPlace Unit := do
  let s ← get
  if s.phase = .idle then transition .connectingPeers "session started" now
  else throw (.alreadyStarted s.id s.phase)

def setPeers (count : Int32) : InPlace Int32 := do
  ensureActive
  modify fun s => { s with peers := max count 0 }
  return (← get).peers

def recordFilters (count : Int32) (now : Nat) : InPlace Bool := do
  enter .fetchingMissingFilters "fetching missing cfilters" now
  if count < (← get).filters then return false
  modify fun s => { s with filters := count }
  return true

def beginHeaders (height : Int32) (now : Nat) : InPlace Unit := do
  enter .fetchingHeaders "fetching headers" now
  modify fun s => { s with headersStart := height }

def recordHeaders (peerHeight count : Int32) (time : Int64) (now : Nat) : InPlace Unit := do
  enter .fetchingHeaders "fetching headers" now
  modify fun s => { s with peerHeight := max s.peerHeight peerHeight }
  if (← get).headers ≤ count then
    modify fun s => { s with headers := count }
    modify fun s => { s with lastHeaderTime := max s.lastHeaderTime time }

def recordDiscovery (finished : Bool) (now : Nat) : InPlace Bool := do
  enter .discoveringAddresses "discovering addresses" now
  if (← get).discovered then return false
  modify fun s => { s with discovered := finished }
  return true

def recordRescan (through : Int32) (now : Nat) : InPlace Bool := do
  enter .rescanning "rescanning" now
  if through < (← get).rescanned then return false
  modify fun s => { s with rescanned := through }
  return true

def finish (now : Nat) : InPlace Unit := do
  ensureActive
  transition .synced "synced" now

def fail (error : SyncError) (now : Nat) : InPlace TerminalError := do
  ensureActive
  transition .failed error.message now
  let terminal := TerminalError.ofError error
  modify fun s => { s with terminal := some terminal }
  return terminal

/-- A report, and the event observers are told of. -/
def take (now : Nat) : Report → InPlace (Option Event)
  | .peerConnected peers => do
    return some (.peerConnected (← setPeers peers))
  | .peerDisconnected peers => do
    return some (.peerDisconnected (← setPeers peers))
  | .fetchMissingFilters count => do
    return if ← recordFilters count now then some (.fetchMissingFilters count) else none
  | .beginHeaders height => do
    beginHeaders height now
    return none
  | .fetchedHeaders peerHeight count lastTime => do
    recordHeaders peerHeight count lastTime now
    return some (.fetchedHeaders peerHeight count lastTime)
  | .discoveredAddresses finished => do
    return if ← recordDiscovery finished now then some (.discoveredAddresses finished) else none
  | .rescanProgress through => do
    return if ← recordRescan through now then some (.rescanProgress through) else none
  | .synced => do
    finish now
    return some (.synced true)
  | .failed error => do
    let terminal ← fail error now
    return some (.syncError terminal.code terminal.error)

/-! ## What they do -/

theorem on_bind (m : InPlace α) (f : α → InPlace β) (s : Session) :
    (m >>= f).on s = match m.on s with
      | (.ok a, s') => (f a).on s'
      | (.error why, s') => (.error why, s') := by
  simp only [on, ExceptT.run_bind, StateT.run_bind]
  rcases m.run.run s with ⟨_ | _, _⟩ <;> rfl

theorem on_read (f : Session → InPlace α) (s : Session) :
    ((get : InPlace Session) >>= f).on s = (f s).on s := rfl

theorem on_write (f : Session → Session) (m : InPlace α) (s : Session) :
    ((modify f : InPlace Unit) >>= fun _ => m).on s = m.on (f s) := rfl

theorem on_ite {c : Prop} [Decidable c] (m m' : InPlace α) (s : Session) :
    (if c then m else m').on s = if c then m.on s else m'.on s := by
  split <;> rfl

/-- A check that stands first leaves nothing behind if it fails. -/
theorem on_check {check : InPlace Unit} {m : InPlace α} {s : Session}
    {x : Except Rejection Unit} {y : Except Rejection (α × Session)}
    (hcheck : check.on s = (x, s)) (hm : m.on s = s.landing y) :
    (check >>= fun _ => m).on s = s.landing (x >>= fun _ => y) := by
  rw [on_bind, hcheck]
  cases x with
  | error why => rfl
  | ok _ => exact hm

/-- What comes after the last check only writes, and all of it is kept. -/
theorem on_writes {γ : Type} {m : InPlace α} {f : α → InPlace β} {s : Session}
    {x : Except Rejection γ} {out : γ → α × Session} {g : γ → Except Rejection (β × Session)}
    (hm : m.on s = s.landing (x.map out))
    (hf : ∀ c, ∃ kept, g c = .ok kept ∧ (f (out c).1).on (out c).2 = (.ok kept.1, kept.2)) :
    (m >>= f).on s = s.landing (x >>= g) := by
  rw [on_bind, hm]
  cases x with
  | error why => rfl
  | ok c =>
      rcases hf c with ⟨kept, hg, hrun⟩
      change (f (out c).1).on (out c).2 = s.landing (g c)
      rw [hrun, hg]
      rfl

theorem map_self (x : Except Rejection (α × Session)) : x.map (fun out => out) = x := by
  cases x <;> rfl

theorem map_bind (x : Except Rejection α) (f : α → Except Rejection Session)
    (g : Session → β × Session) : (x >>= f).map g = x >>= fun a => (f a).map g := by
  cases x <;> rfl

theorem on_ensureActive (s : Session) : ensureActive.on s = (s.ensureActive, s) := by
  rw [ensureActive, Session.ensureActive, on_read, on_ite]
  split <;> rfl

-- The point in time, the history and the phase are three writes.
theorem on_transition (s : Session) (next : Phase) (reason : String) (now : Nat) :
    (transition next reason now).on s = s.landing ((s.move next reason now).map ((), ·)) := by
  rw [transition, move, on_read, on_ite]
  split
  · cases next <;> rfl
  · rfl

theorem on_enter (s : Session) (phase : Phase) (reason : String) (now : Nat) :
    (enter phase reason now).on s = s.landing ((s.enter phase reason now).map ((), ·)) := by
  rw [Session.enter, map_bind]
  refine on_check (on_ensureActive s) ?_
  rw [on_read, on_ite, on_ite, on_transition]
  split
  · rfl
  · split <;> rfl

theorem on_begin (s : Session) (now : Nat) :
    (begin now).on s = s.landing ((s.begin now).map ((), ·)) := by
  rw [begin, Session.begin, on_read, on_ite, on_transition]
  split <;> rfl

theorem on_setPeers (s : Session) (count : Int32) :
    (setPeers count).on s = s.landing ((s.setPeers count).map fun s' => (s'.peers, s')) := by
  rw [Session.setPeers, map_bind]
  exact on_check (on_ensureActive s) rfl

theorem on_recordFilters (s : Session) (count : Int32) (now : Nat) :
    (recordFilters count now).on s = s.landing (s.recordFilters count now) := by
  refine on_writes (on_enter s _ _ now) fun s' => ?_
  rw [on_read, on_ite]
  split <;> exact ⟨_, rfl, rfl⟩

theorem on_beginHeaders (s : Session) (height : Int32) (now : Nat) :
    (beginHeaders height now).on s = s.landing ((s.beginHeaders height now).map ((), ·)) := by
  rw [Session.beginHeaders, map_bind]
  exact on_writes (on_enter s _ _ now) fun _ => ⟨_, rfl, rfl⟩

theorem on_recordHeaders (s : Session) (peerHeight count : Int32) (time : Int64) (now : Nat) :
    (recordHeaders peerHeight count time now).on s =
      s.landing ((s.recordHeaders peerHeight count time now).map ((), ·)) := by
  rw [Session.recordHeaders, map_bind]
  refine on_writes (on_enter s _ _ now) fun s' => ?_
  -- The peer's height is kept whether or not the number of headers is.
  rw [on_write, on_read, on_ite]
  by_cases hup : s'.headers ≤ count
  · exact ⟨_, congrArg (Except.map _) (if_pos hup), if_pos hup⟩
  · exact ⟨_, congrArg (Except.map _) (if_neg hup), if_neg hup⟩

theorem on_recordDiscovery (s : Session) (finished : Bool) (now : Nat) :
    (recordDiscovery finished now).on s = s.landing (s.recordDiscovery finished now) := by
  refine on_writes (on_enter s _ _ now) fun s' => ?_
  rw [on_read, on_ite]
  split <;> exact ⟨_, rfl, rfl⟩

theorem on_recordRescan (s : Session) (through : Int32) (now : Nat) :
    (recordRescan through now).on s = s.landing (s.recordRescan through now) := by
  refine on_writes (on_enter s _ _ now) fun s' => ?_
  rw [on_read, on_ite]
  split <;> exact ⟨_, rfl, rfl⟩

theorem on_finish (s : Session) (now : Nat) :
    (finish now).on s = s.landing ((s.finish now).map ((), ·)) := by
  rw [Session.finish, map_bind]
  exact on_check (on_ensureActive s) (on_transition s _ _ now)

theorem on_fail (s : Session) (error : SyncError) (now : Nat) :
    (fail error now).on s =
      s.landing ((s.fail error now).map fun s' => (.ofError error, s')) := by
  rw [Session.fail, map_bind]
  refine on_check (on_ensureActive s) ?_
  rw [map_bind]
  exact on_writes (on_transition s _ _ now) fun _ => ⟨_, rfl, rfl⟩

theorem on_take (s : Session) (r : Report) (now : Nat) :
    (take now r).on s = s.landing (s.take now r) := by
  -- To make up the event is not to write anything, nor to fail.
  cases r with
  | peerConnected count => exact on_writes (on_setPeers s count) fun _ => ⟨_, rfl, rfl⟩
  | peerDisconnected count => exact on_writes (on_setPeers s count) fun _ => ⟨_, rfl, rfl⟩
  | fetchMissingFilters count =>
      exact on_writes (by rw [on_recordFilters s count now, map_self]) fun _ => ⟨_, rfl, rfl⟩
  | beginHeaders height => exact on_writes (on_beginHeaders s height now) fun _ => ⟨_, rfl, rfl⟩
  | fetchedHeaders peerHeight count time =>
      exact on_writes (on_recordHeaders s peerHeight count time now) fun _ => ⟨_, rfl, rfl⟩
  | discoveredAddresses finished =>
      exact on_writes (by rw [on_recordDiscovery s finished now, map_self]) fun _ => ⟨_, rfl, rfl⟩
  | rescanProgress through =>
      exact on_writes (by rw [on_recordRescan s through now, map_self]) fun _ => ⟨_, rfl, rfl⟩
  | synced => exact on_writes (on_finish s now) fun _ => ⟨_, rfl, rfl⟩
  | failed error => exact on_writes (on_fail s error now) fun _ => ⟨_, rfl, rfl⟩

/-- A session that is changed in place ends up as the reports have it: with all
    that a report writes if it is taken, and as it was if it is refused. -/
structure Faithful (s : Session) : Prop where
  begin (now : Nat) : (begin now).on s = s.landing ((s.begin now).map ((), ·))
  setPeers (count : Int32) :
    (setPeers count).on s = s.landing ((s.setPeers count).map fun s' => (s'.peers, s'))
  recordFilters (count : Int32) (now : Nat) :
    (recordFilters count now).on s = s.landing (s.recordFilters count now)
  beginHeaders (height : Int32) (now : Nat) :
    (beginHeaders height now).on s = s.landing ((s.beginHeaders height now).map ((), ·))
  recordHeaders (peerHeight count : Int32) (time : Int64) (now : Nat) :
    (recordHeaders peerHeight count time now).on s =
      s.landing ((s.recordHeaders peerHeight count time now).map ((), ·))
  recordDiscovery (finished : Bool) (now : Nat) :
    (recordDiscovery finished now).on s = s.landing (s.recordDiscovery finished now)
  recordRescan (through : Int32) (now : Nat) :
    (recordRescan through now).on s = s.landing (s.recordRescan through now)
  finish (now : Nat) : (finish now).on s = s.landing ((s.finish now).map ((), ·))
  fail (error : SyncError) (now : Nat) : (fail error now).on s =
    s.landing ((s.fail error now).map fun s' => (.ofError error, s'))

theorem faithful (s : Session) : Faithful s where
  begin := on_begin s
  setPeers := on_setPeers s
  recordFilters := on_recordFilters s
  beginHeaders := on_beginHeaders s
  recordHeaders := on_recordHeaders s
  recordDiscovery := on_recordDiscovery s
  recordRescan := on_recordRescan s
  finish := on_finish s
  fail := on_fail s

end InPlace

end Session

end ChainSync
