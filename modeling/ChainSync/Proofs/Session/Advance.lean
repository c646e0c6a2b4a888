import ChainSync.Session.Report

/-!
# Taken Reports

What a report that a session takes can do to it.

Nine kinds of reports are taken by nine small programs in `Except`. What a
listener can tell from the outside is the same for all of them: the session
was under way, its phase does not go back, what it counts changes only by the
event that is passed on, and it ends exactly with an event that says so.
`Advances` states that once, and `advances_of_take` proves it of every report.
Whatever is to be shown of whole runs starts from there, so that the programs
of the reports are opened only here.

The event is the only link between the counters and the outside. `Tally` is
what someone who hears nothing but events can keep count of, and
`Advances.tally` says that a session's counters are such a count.

## Main definitions

* `Event.phase?`, `Event.filters?`, `Event.discovery?`, `Event.peers?`: What
  an event says.
* `Tally`: What can be counted from events.
* `Session.moved`: A session after a move.
* `Session.Advances`: What a taken report does.

## Theorems

* `bind_ok`: A chain that succeeds succeeds at every link.
* `Session.move_eq`: A move succeeds exactly when the phases may follow.
* `Session.enter_ok`: Entering a phase stays in it or moves up to it.
* `Session.advances_of_take`: Every taken report advances the session.
* `Session.advances_of_begin`: So does a begin, without an event.
-/

namespace ChainSync

theorem bind_ok {ε α β : Type} {x : Except ε α} {f : α → Except ε β} {b : β}
    (h : x >>= f = .ok b) : ∃ a, x = .ok a ∧ f a = .ok b := by
  cases x with
  | error e => exact absurd h (by simp only [bind, Except.bind, reduceCtorEq, not_false_eq_true])
  | ok a => exact ⟨a, rfl, h⟩

namespace Event

/-- The phase a session is in once it has passed on an event, if the event
    tells. -/
def phase? : Event → Option Phase
  | fetchMissingFilters _ => some .fetchingMissingFilters
  | fetchedHeaders .. => some .fetchingHeaders
  | discoveredAddresses _ => some .discoveringAddresses
  | rescanProgress _ => some .rescanning
  | synced _ => some .synced
  | syncError .. => some .failed
  | _ => none

/-- The number of filters an event reports. -/
def filters? : Event → Option Int32
  | fetchMissingFilters n => some n
  | _ => none

/-- What an event says of discovery. -/
def discovery? : Event → Option Bool
  | discoveredAddresses b => some b
  | _ => none

/-- The number of peers an event reports. -/
def peers? : Event → Option Int32
  | peerConnected n => some n
  | peerDisconnected n => some n
  | _ => none

/-- The error that an event ends a run with. -/
def fault? : Event → Option TerminalError
  | syncError code error => some ⟨code, error⟩
  | _ => none

/-- An event of a phase that is no end says nothing of peers and ends nothing. -/
theorem plain_of_phase? {e : Event} {p : Phase} (h : e.phase? = some p)
    (hp : p.isTerminal = false) : e.isTerminal = false ∧ e.fault? = none ∧ e.peers? = none := by
  cases e with
  | synced b =>
      rw [← Option.some.inj h] at hp
      exact absurd hp (by decide)
  | syncError code error =>
      rw [← Option.some.inj h] at hp
      exact absurd hp (by decide)
  | peerConnected n => exact absurd h (by simp only [phase?, reduceCtorEq, not_false_eq_true])
  | peerDisconnected n => exact absurd h (by simp only [phase?, reduceCtorEq, not_false_eq_true])
  | _ => exact ⟨rfl, rfl, rfl⟩

end Event

/-- What someone who hears events and nothing else can keep count of. -/
structure Tally where
  peers : Int32 := 0
  filters : Int32 := 0
  headers : Int32 := 0
  lastHeaderTime : Int64 := 0
  discovered : Bool := false
  rescanned : Int32 := 0
deriving DecidableEq

/-- The count after one more event. A number of headers below the count is
    heard but does not count. -/
def Tally.hear (t : Tally) : Event → Tally
  | .peerConnected n => { t with peers := n }
  | .peerDisconnected n => { t with peers := n }
  | .fetchMissingFilters n => { t with filters := n }
  | .fetchedHeaders _ count time =>
    if t.headers ≤ count then
      { t with headers := count, lastHeaderTime := max t.lastHeaderTime time }
    else t
  | .discoveredAddresses b => { t with discovered := b }
  | .rescanProgress n => { t with rescanned := n }
  | _ => t

namespace Tally

theorem hear_peers (t : Tally) (e : Event) : (t.hear e).peers = e.peers?.getD t.peers := by
  cases e with
  | fetchedHeaders peer count time =>
      simp only [hear]
      split <;> rfl
  | _ => rfl

theorem hear_filters (t : Tally) (e : Event) :
    (t.hear e).filters = e.filters?.getD t.filters := by
  cases e with
  | fetchedHeaders peer count time =>
      simp only [hear]
      split <;> rfl
  | _ => rfl

theorem hear_rescanned (t : Tally) (e : Event) :
    (t.hear e).rescanned = e.rescanHeight?.getD t.rescanned := by
  cases e with
  | fetchedHeaders peer count time =>
      simp only [hear]
      split <;> rfl
  | _ => rfl

theorem hear_discovered (t : Tally) (e : Event) :
    (t.hear e).discovered = e.discovery?.getD t.discovered := by
  cases e with
  | fetchedHeaders peer count time =>
      simp only [hear]
      split <;> rfl
  | _ => rfl

end Tally

namespace Session

/-- What a session counts, as far as it can be told from its events. -/
def tally (s : Session) : Tally where
  peers := s.peers
  filters := s.filters
  headers := s.headers
  lastHeaderTime := s.lastHeaderTime
  discovered := s.discovered
  rescanned := s.rescanned

/-- A session after a move, with the points in time it notes. -/
def moved (s : Session) (next : Phase) (reason : String) (now : Nat) : Session :=
  { s with
    phase := next
    finishedAt := if next.isTerminal then some now else s.finishedAt
    headersStartedAt := if next = .fetchingHeaders then some now else s.headersStartedAt
    discoveryStartedAt :=
      if next = .discoveringAddresses then some now else s.discoveryStartedAt
    rescanStartedAt := if next = .rescanning then some now else s.rescanStartedAt
    history := s.history ++ [⟨s.phase, next, now, reason⟩] }

theorem move_eq (s : Session) (next : Phase) (reason : String) (now : Nat) :
    s.move next reason now =
      if s.phase.canMoveTo next then .ok (s.moved next reason now)
      else .error (.cannotMove s.phase next) := by
  unfold move
  cases next <;> rfl

theorem ensureActive_ok {s : Session} {u : Unit} (h : s.ensureActive = .ok u) :
    s.isActive = true := by
  unfold ensureActive at h
  split at h
  · assumption
  · exact absurd h (by simp only [reduceCtorEq, not_false_eq_true])

theorem ensureActive_eq {s : Session} (h : s.isActive = true) : s.ensureActive = .ok () := by
  unfold ensureActive
  rw [if_pos h]

theorem enter_ok {s s' : Session} {phase : Phase} {reason : String} {now : Nat}
    (h : s.enter phase reason now = .ok s') :
    s.isActive = true ∧ (s.phase = phase ∧ s' = s ∨
      s.phase.rank < phase.rank ∧ s' = s.moved phase reason now) := by
  unfold enter at h
  rcases bind_ok h with ⟨u, hactive, h⟩
  refine ⟨ensureActive_ok hactive, ?_⟩
  by_cases hsame : s.phase = phase
  · rw [if_pos hsame] at h
    exact Or.inl ⟨hsame, (Except.ok.inj h).symm⟩
  · rw [if_neg hsame] at h
    -- A phase that lies behind is refused, so what is left is a move up.
    by_cases hback : phase.rank < s.phase.rank
    · rw [if_pos hback] at h
      exact absurd h (by simp only [reduceCtorEq, not_false_eq_true])
    · rw [if_neg hback, move_eq] at h
      by_cases hcan : s.phase.canMoveTo phase
      · rw [if_pos hcan] at h
        exact Or.inr ⟨Phase.rank_lt_of_canMoveTo hcan, (Except.ok.inj h).symm⟩
      · rw [if_neg hcan] at h
        exact absurd h (by simp only [reduceCtorEq, not_false_eq_true])

/-- What entering a phase comes to, whether or not it takes a move. -/
theorem enter_phase {s s' : Session} {phase : Phase} {reason : String} {now : Nat}
    (h : s.enter phase reason now = .ok s') :
    s.isActive = true ∧ s.phase.rank ≤ phase.rank ∧ s'.phase = phase ∧ s'.id = s.id ∧
      s'.tally = s.tally ∧ s'.terminal = s.terminal := by
  rcases enter_ok h with ⟨hactive, ⟨hphase, rfl⟩ | ⟨hlt, rfl⟩⟩
  · exact ⟨hactive, Nat.le_of_eq (by rw [hphase]), hphase, rfl, rfl, rfl⟩
  · exact ⟨hactive, Nat.le_of_lt hlt, rfl, rfl, rfl, rfl⟩

/-- What a taken report does to a session, as far as its event tells. A report
    that leads to no event may still move the session on. -/
structure Advances (s : Session) (event : Option Event) (s' : Session) : Prop where
  id : s'.id = s.id
  /-- Nothing is passed on of a session that is over. -/
  active : ∀ e ∈ event, s.isActive = true
  phase_le : s.phase.rank ≤ s'.phase.rank
  phase_eq : ∀ e ∈ event, ∀ p ∈ e.phase?, s'.phase = p
  /-- A session that is over stays as it ended. -/
  settled : s.isActive = false → s'.phase = s.phase
  ending : s'.isActive = (s.isActive && !event.any Event.isTerminal)
  terminal : s'.terminal = (event.bind Event.fault?).or s.terminal
  tally : s'.tally = event.elim s.tally s.tally.hear
  peers : ∀ e ∈ event, ∀ n ∈ e.peers?, 0 ≤ n
  filters : ∀ e ∈ event, ∀ n ∈ e.filters?, s.filters ≤ n
  rescanned : ∀ e ∈ event, ∀ n ∈ e.rescanHeight?, s.rescanned ≤ n
  discovery : ∀ e ∈ event, ∀ b ∈ e.discovery?, s.discovered = false

/-- What leaves the phase, the counters and the error alone is no event. -/
theorem Advances.quiet {s s' : Session} (hid : s'.id = s.id) (hphase : s'.phase = s.phase)
    (htally : s'.tally = s.tally) (hterminal : s'.terminal = s.terminal) :
    s.Advances none s' where
  id := hid
  active := by simp
  phase_le := Nat.le_of_eq (by rw [hphase])
  phase_eq := by simp
  settled := fun _ => hphase
  ending := by simp [isActive, hphase]
  terminal := by simp [hterminal]
  tally := by simp [htally]
  peers := by simp
  filters := by simp
  rescanned := by simp
  discovery := by simp

/-- A report that belongs to a phase enters it and then changes what is
    counted by its event alone. -/
theorem Advances.entered {s s₁ s' : Session} {phase : Phase} {reason : String} {now : Nat}
    {event : Option Event} (h : s.enter phase reason now = .ok s₁)
    (hphase : phase.isTerminal = false) (hevent : ∀ e ∈ event, e.phase? = some phase)
    (hid : s'.id = s₁.id) (hsame : s'.phase = s₁.phase) (hterminal : s'.terminal = s₁.terminal)
    (htally : s'.tally = event.elim s₁.tally s₁.tally.hear)
    (hfilters : ∀ e ∈ event, ∀ n ∈ e.filters?, s₁.tally.filters ≤ n)
    (hrescanned : ∀ e ∈ event, ∀ n ∈ e.rescanHeight?, s₁.tally.rescanned ≤ n)
    (hdiscovery : ∀ e ∈ event, ∀ b ∈ e.discovery?, s₁.tally.discovered = false) :
    s.Advances event s' := by
  rcases enter_phase h with ⟨hactive, hle, hp₁, hid₁, htally₁, hterminal₁⟩
  -- The phase is no end, so neither the session nor its event is one.
  have hp : s'.phase = phase := hsame.trans hp₁
  have hafter : s'.isActive = true := by simp only [isActive, hp, hphase, Bool.not_false]
  have hplain := fun e he => Event.plain_of_phase? (hevent e he) hphase
  rw [htally₁] at htally hfilters hrescanned hdiscovery
  refine ⟨hid.trans hid₁, fun _ _ => hactive, by rw [hp]; exact hle, fun e he p hpe => ?_,
    fun hover => ?_, ?_, ?_, htally, fun e he n hn => ?_, hfilters, hrescanned, hdiscovery⟩
  · rw [hevent e he] at hpe
    exact hp.trans (Option.some.inj hpe)
  · rw [hactive] at hover
    exact absurd hover (by decide)
  · rw [hafter, hactive]
    cases event with
    | none => rfl
    | some e => simp [(hplain e rfl).1]
  · cases event with
    | none => simp [hterminal, hterminal₁]
    | some e => simp [hterminal, hterminal₁, (hplain e rfl).2.1]
  · rw [(hplain e he).2.2] at hn
    exact absurd hn (by simp)

/-- Peers may be counted at any time. -/
theorem Advances.peers_set {s : Session} {e : Event} {n : Int32} (hactive : s.isActive = true)
    (he : e = .peerConnected (max n 0) ∨ e = .peerDisconnected (max n 0)) :
    s.Advances (some e) { s with peers := max n 0 } := by
  have hle : (0 : Int32) ≤ max n 0 := by
    rw [show max n 0 = if n ≤ 0 then 0 else n from rfl]
    split
    · exact Int32.le_refl 0
    · exact Int32.le_of_lt (Int32.not_le.mp ‹_›)
  rcases he with rfl | rfl
  · exact ⟨rfl, fun _ _ => hactive, Nat.le_refl _, by simp [Event.phase?], fun _ => rfl,
      by simp [isActive, Event.isTerminal], rfl, rfl, by simpa [Event.peers?] using hle,
      by simp [Event.filters?], by simp [Event.rescanHeight?], by simp [Event.discovery?]⟩
  · exact ⟨rfl, fun _ _ => hactive, Nat.le_refl _, by simp [Event.phase?], fun _ => rfl,
      by simp [isActive, Event.isTerminal], rfl, rfl, by simpa [Event.peers?] using hle,
      by simp [Event.filters?], by simp [Event.rescanHeight?], by simp [Event.discovery?]⟩

/-- A session that ends says so, and says with what. -/
theorem Advances.ended {s s' : Session} {e : Event} {p : Phase} (hactive : s.isActive = true)
    (hphase : s'.phase = p) (hp : e.phase? = some p) (hend : p.isTerminal = true)
    (hid : s'.id = s.id) (htally : s'.tally = s.tally)
    (hterminal : s'.terminal = e.fault?.or s.terminal) : s.Advances (some e) s' := by
  -- Only two events lead to an end, and neither says anything else.
  have hshape : e.isTerminal = true ∧ s.tally.hear e = s.tally ∧ e.peers? = none ∧
      e.filters? = none ∧ e.rescanHeight? = none ∧ e.discovery? = none := by
    cases e with
    | synced b => exact ⟨rfl, rfl, rfl, rfl, rfl, rfl⟩
    | syncError code error => exact ⟨rfl, rfl, rfl, rfl, rfl, rfl⟩
    | peerConnected n => exact absurd hp (by simp [Event.phase?])
    | peerDisconnected n => exact absurd hp (by simp [Event.phase?])
    | _ =>
        rw [← Option.some.inj hp] at hend
        exact absurd hend (by decide)
  rcases hshape with ⟨hterm, hhear, hpeers, hfilters, hrescan, hdisc⟩
  -- Both ends rank above whatever is under way.
  have hle : s.phase.rank ≤ p.rank := by
    have hs : s.phase.isTerminal = false := by simpa [isActive] using hactive
    cases hsp : s.phase <;> cases p <;> simp_all [Phase.isTerminal, Phase.rank]
  refine ⟨hid, fun _ _ => hactive, by rw [hphase]; exact hle, ?_, fun hover => ?_, ?_, ?_, ?_,
    ?_, ?_, ?_, ?_⟩
  · simp [hp, hphase]
  · rw [hactive] at hover
    exact absurd hover (by decide)
  · simp [isActive, hphase, hend, hterm]
  · simpa using hterminal
  · simp [htally, hhear]
  · simp [hpeers]
  · simp [hfilters]
  · simp [hrescan]
  · simp [hdisc]

/-- A session under way may move to either end. -/
theorem canMoveTo_end {s : Session} {next : Phase} (hactive : s.isActive = true)
    (hnext : next.isTerminal = true) : s.phase.canMoveTo next = true := by
  have hs : s.phase.isTerminal = false := by simpa [isActive] using hactive
  cases hsp : s.phase <;> cases next <;>
    simp_all [Phase.canMoveTo, Phase.isTerminal, Phase.rank]

theorem move_end {s : Session} {next : Phase} (reason : String) (now : Nat)
    (hactive : s.isActive = true) (hnext : next.isTerminal = true) :
    s.move next reason now = .ok (s.moved next reason now) := by
  rw [move_eq, if_pos (canMoveTo_end hactive hnext)]

/-- A session under way ends in sync when told so. -/
theorem finish_eq {s : Session} (now : Nat) (hactive : s.isActive = true) :
    s.finish now = .ok (s.moved .synced "synced" now) := by
  unfold finish
  rw [ensureActive_eq hactive]
  exact move_end _ _ hactive rfl

/-- A session under way ends with an error when told so, and keeps it. -/
theorem fail_eq {s : Session} (error : SyncError) (now : Nat) (hactive : s.isActive = true) :
    s.fail error now =
      .ok { s.moved .failed error.message now with terminal := some (.ofError error) } := by
  unfold fail
  rw [ensureActive_eq hactive]
  simp only [move_end _ _ hactive (show Phase.failed.isTerminal = true from rfl), bind,
    Except.bind, pure, Except.pure]

theorem setPeers_ok {s s' : Session} {n : Int32} (h : s.setPeers n = .ok s') :
    s.isActive = true ∧ s' = { s with peers := max n 0 } := by
  unfold setPeers at h
  rcases bind_ok h with ⟨u, hactive, h⟩
  exact ⟨ensureActive_ok hactive, (Except.ok.inj h).symm⟩

/-- A report of the end is taken only by a session under way. -/
theorem finish_ok {s s' : Session} {now : Nat} (h : s.finish now = .ok s') :
    s.isActive = true ∧ s' = s.moved .synced "synced" now := by
  have hfinish := h
  unfold finish at h
  rcases bind_ok h with ⟨u, hactive, _⟩
  have hactive := ensureActive_ok hactive
  rw [finish_eq now hactive] at hfinish
  exact ⟨hactive, (Except.ok.inj hfinish).symm⟩

theorem fail_ok {s s' : Session} {error : SyncError} {now : Nat}
    (h : s.fail error now = .ok s') : s.isActive = true ∧
      s' = { s.moved .failed error.message now with terminal := some (.ofError error) } := by
  have hfail := h
  unfold fail at h
  rcases bind_ok h with ⟨u, hactive, _⟩
  have hactive := ensureActive_ok hactive
  rw [fail_eq error now hactive] at hfail
  exact ⟨hactive, (Except.ok.inj hfail).symm⟩

-- The phase is entered before a number is looked at, so a report that is
-- dropped may have moved the session all the same.
theorem Advances.dropped {s s₁ : Session} {phase : Phase} {reason : String} {now : Nat}
    (h : s.enter phase reason now = .ok s₁) (hphase : phase.isTerminal = false) :
    s.Advances none s₁ :=
  Advances.entered h hphase (by simp) rfl rfl rfl rfl (by simp) (by simp) (by simp)

theorem advances_of_recordFilters {s s' : Session} {n : Int32} {now : Nat} {accepted : Bool}
    (h : s.recordFilters n now = .ok (accepted, s')) :
    s.Advances (if accepted then some (.fetchMissingFilters n) else none) s' := by
  rcases bind_ok h with ⟨s₁, henter, h⟩
  by_cases hback : n < s₁.filters
  · rw [if_pos hback] at h
    rcases Prod.mk.inj (Except.ok.inj h) with ⟨rfl, rfl⟩
    exact Advances.dropped henter rfl
  · rw [if_neg hback] at h
    rcases Prod.mk.inj (Except.ok.inj h) with ⟨rfl, rfl⟩
    exact Advances.entered henter rfl (by simp [Event.phase?]) rfl rfl rfl rfl
      (by simpa [Event.filters?, tally] using Int32.not_lt.mp hback)
      (by simp [Event.rescanHeight?]) (by simp [Event.discovery?])

theorem advances_of_recordHeaders {s s' : Session} {peerHeight count : Int32} {time : Int64}
    {now : Nat} (h : s.recordHeaders peerHeight count time now = .ok s') :
    s.Advances (some (.fetchedHeaders peerHeight count time)) s' := by
  rcases bind_ok h with ⟨s₁, henter, h⟩
  -- A number that goes back is passed on as well; it only does not count.
  by_cases hup : s₁.headers ≤ count
  · rw [if_pos hup] at h
    rw [← Except.ok.inj h]
    exact Advances.entered henter rfl (by simp [Event.phase?]) rfl rfl rfl
      (by simp [Tally.hear, tally, hup]) (by simp [Event.filters?])
      (by simp [Event.rescanHeight?]) (by simp [Event.discovery?])
  · rw [if_neg hup] at h
    rw [← Except.ok.inj h]
    exact Advances.entered henter rfl (by simp [Event.phase?]) rfl rfl rfl
      (by simp [Tally.hear, tally, hup]) (by simp [Event.filters?])
      (by simp [Event.rescanHeight?]) (by simp [Event.discovery?])

theorem advances_of_recordDiscovery {s s' : Session} {finished : Bool} {now : Nat}
    {accepted : Bool} (h : s.recordDiscovery finished now = .ok (accepted, s')) :
    s.Advances (if accepted then some (.discoveredAddresses finished) else none) s' := by
  rcases bind_ok h with ⟨s₁, henter, h⟩
  by_cases hdone : s₁.discovered = true
  · rw [if_pos hdone] at h
    rcases Prod.mk.inj (Except.ok.inj h) with ⟨rfl, rfl⟩
    exact Advances.dropped henter rfl
  · rw [if_neg hdone] at h
    rcases Prod.mk.inj (Except.ok.inj h) with ⟨rfl, rfl⟩
    exact Advances.entered henter rfl (by simp [Event.phase?]) rfl rfl rfl rfl
      (by simp [Event.filters?]) (by simp [Event.rescanHeight?])
      (fun _ _ _ _ => by simpa [tally] using hdone)

theorem advances_of_recordRescan {s s' : Session} {through : Int32} {now : Nat}
    {accepted : Bool} (h : s.recordRescan through now = .ok (accepted, s')) :
    s.Advances (if accepted then some (.rescanProgress through) else none) s' := by
  rcases bind_ok h with ⟨s₁, henter, h⟩
  by_cases hback : through < s₁.rescanned
  · rw [if_pos hback] at h
    rcases Prod.mk.inj (Except.ok.inj h) with ⟨rfl, rfl⟩
    exact Advances.dropped henter rfl
  · rw [if_neg hback] at h
    rcases Prod.mk.inj (Except.ok.inj h) with ⟨rfl, rfl⟩
    exact Advances.entered henter rfl (by simp [Event.phase?]) rfl rfl rfl rfl
      (by simp [Event.filters?])
      (by simpa [Event.rescanHeight?, tally] using Int32.not_lt.mp hback)
      (by simp [Event.discovery?])

/-- To begin is to move on without an event. -/
theorem advances_of_begin {s s' : Session} {now : Nat} (h : s.begin now = .ok s') :
    s.Advances none s' := by
  unfold begin at h
  by_cases hidle : s.phase = .idle
  · rw [if_pos hidle, move_eq, if_pos (by rw [hidle]; rfl)] at h
    have hactive : s.isActive = true := by
      rw [isActive, hidle]
      rfl
    rw [← Except.ok.inj h]
    refine ⟨rfl, by simp, ?_, by simp, fun hover => ?_, by rw [hactive]; rfl, by simp [moved], rfl,
      by simp, by simp, by simp, by simp⟩
    · rw [hidle]
      exact Nat.zero_le _
    · rw [hactive] at hover
      exact absurd hover (by decide)
  · rw [if_neg hidle] at h
    exact absurd h (by simp only [reduceCtorEq, not_false_eq_true])

/-- Every report that is taken advances the session by the event it leads to. -/
theorem advances_of_take {s s' : Session} {now : Nat} {r : Report} {event : Option Event}
    (h : s.take now r = .ok (event, s')) : s.Advances event s' := by
  -- Each report is a chain of its own, which is taken apart link by link.
  cases r with
  | peerConnected n =>
      rcases bind_ok h with ⟨s₁, hset, h⟩
      rcases setPeers_ok hset with ⟨hactive, rfl⟩
      rcases Prod.mk.inj (Except.ok.inj h) with ⟨rfl, rfl⟩
      exact Advances.peers_set hactive (Or.inl rfl)
  | peerDisconnected n =>
      rcases bind_ok h with ⟨s₁, hset, h⟩
      rcases setPeers_ok hset with ⟨hactive, rfl⟩
      rcases Prod.mk.inj (Except.ok.inj h) with ⟨rfl, rfl⟩
      exact Advances.peers_set hactive (Or.inr rfl)
  | fetchMissingFilters n =>
      rcases bind_ok h with ⟨⟨accepted, s₂⟩, hrecord, h⟩
      rcases Prod.mk.inj (Except.ok.inj h) with ⟨rfl, rfl⟩
      exact advances_of_recordFilters hrecord
  | beginHeaders height =>
      rcases bind_ok h with ⟨s₂, hbegin, h⟩
      rcases Prod.mk.inj (Except.ok.inj h) with ⟨rfl, rfl⟩
      -- The begin of the header fetch is told to nobody.
      rcases bind_ok hbegin with ⟨s₁, henter, hbegin⟩
      rw [← Except.ok.inj hbegin]
      exact Advances.entered henter rfl (by simp) rfl rfl rfl rfl (by simp) (by simp) (by simp)
  | fetchedHeaders peerHeight count time =>
      rcases bind_ok h with ⟨s₂, hrecord, h⟩
      rcases Prod.mk.inj (Except.ok.inj h) with ⟨rfl, rfl⟩
      exact advances_of_recordHeaders hrecord
  | discoveredAddresses finished =>
      rcases bind_ok h with ⟨⟨accepted, s₂⟩, hrecord, h⟩
      rcases Prod.mk.inj (Except.ok.inj h) with ⟨rfl, rfl⟩
      exact advances_of_recordDiscovery hrecord
  | rescanProgress through =>
      rcases bind_ok h with ⟨⟨accepted, s₂⟩, hrecord, h⟩
      rcases Prod.mk.inj (Except.ok.inj h) with ⟨rfl, rfl⟩
      exact advances_of_recordRescan hrecord
  | synced =>
      rcases bind_ok h with ⟨s₁, hfinish, h⟩
      rcases finish_ok hfinish with ⟨hactive, rfl⟩
      rcases Prod.mk.inj (Except.ok.inj h) with ⟨rfl, rfl⟩
      exact Advances.ended hactive rfl rfl rfl rfl rfl rfl
  | failed error =>
      rcases bind_ok h with ⟨s₁, hfail, h⟩
      rcases fail_ok hfail with ⟨hactive, rfl⟩
      rcases Prod.mk.inj (Except.ok.inj h) with ⟨rfl, rfl⟩
      exact Advances.ended hactive rfl rfl rfl rfl rfl rfl

end Session

end ChainSync
