import ChainSync.Proofs.Rescan.Slot

/-!
# Rescan Futures

Any number of rescans on one engine, in any order.

A rescan that has been called does nothing until somebody lets it go on. Then it makes
its claim, and if it was let in, its changes follow one by one, with others in between.
It may be dropped before its claim or while it waits. All futures are there from the
beginning, so one that is started later, or by another one, is one that nobody has let
go on until then.

Each change of a future is a step of its own here. A task that polls one makes several
of them in a row (`Rescans.polled`), so all that tasks do is among the runs.

`Rescans.Sound` says who holds the slot: a future that is past its claim and not over,
and there is never more than one. What a step may do is said once, in
`Rescans.Sound.go_cases` and `Rescans.Sound.drop_cases`.

## Main definitions

* `RescanFuture`, `Rescans`: The futures and the engine.
* `Rescans.go`, `Rescans.drop`, `Rescans.run`: Steps and runs.
* `Rescans.Sound`: The invariant.

## Theorems

* `Rescans.Sound.go_cases`, `Rescans.Sound.drop_cases`: What a step does.
* `Rescans.sound_run`: The invariant holds of every run.
* `Rescans.polled`: A poll is a run.
-/

namespace ChainSync

open Engine

/-- A rescan that has been called. -/
inductive RescanFuture (χ : Type) : Type 1 where
  /-- Nothing has been done yet. -/
  | fresh
  /-- It is past its claim and has some way to go. -/
  | holding (id : Nat) (rest : Routine (Engine χ) (Except Panic RescanOutcome))
  /-- It has come to its end; one that was turned away has no id. -/
  | ended (id : Option Nat) (result : Except Panic RescanOutcome)
  | dropped (id : Option Nat)

namespace RescanFuture

variable {χ : Type}

/-- The id a future got from its claim. -/
def id? : RescanFuture χ → Option Nat
  | fresh => none
  | holding id _ => some id
  | ended id _ => id
  | dropped id => id

/-- A future that is past its claim, which may have come to its end. -/
def past (id : Nat) : Routine (Engine χ) (Except Panic RescanOutcome) → RescanFuture χ
  | .done x => ended (some id) x
  | rest => holding id rest

theorem past_of_holds {id : Nat} {rest : Routine (Engine χ) (Except Panic RescanOutcome)}
    (h : Holds id rest) : past id rest = holding id rest := by
  cases rest with
  | done x => exact absurd h fun h => h
  | act run next => rfl
  | wait ready timer abandon next => rfl

end RescanFuture

/-- Rescans that share an engine. -/
structure Rescans (ι χ : Type) : Type 1 where
  engine : Engine χ
  future : ι → RescanFuture χ
  /-- The claims that were let in, in their order, with the ids they got. -/
  claims : List (ι × Nat)

/-- What happens next. -/
inductive RescanStep (ι χ : Type) where
  /-- A future goes on by one change. -/
  | go (i : ι)
  /-- A future is dropped. -/
  | drop (i : ι)
  /-- Somebody else changes the engine. -/
  | other (f : Engine χ → Engine χ)

namespace Rescans

variable {ι χ : Type} {w : Rescans ι χ}

/-- Nothing has been done yet. -/
def start (e : Engine χ) : Rescans ι χ := ⟨e, fun _ => .fresh, []⟩

/-! ## The invariant -/

/-- Who holds the slot, and what the ids are. -/
structure Sound (w : Rescans ι χ) : Prop where
  holder : ∀ i id rest, w.future i = .holding id rest →
    w.engine.slot.owner = some id ∧ Holds id rest
  taken : w.engine.slot.isTaken = true → ∃ i id rest, w.future i = .holding id rest
  single : ∀ i j id id' rest rest', w.future i = .holding id rest →
    w.future j = .holding id' rest' → i = j
  numbered : w.claims.map (·.2) = List.range' 1 w.claims.length
  lastId : w.engine.slot.lastId = w.claims.length
  known : ∀ i id, (w.future i).id? = some id ↔ (i, id) ∈ w.claims

theorem sound_start {e : Engine χ} (h : e.slot = {}) : (start e : Rescans ι χ).Sound := by
  refine ⟨fun i id rest hi => ?_, fun ht => ?_, fun i j id id' rest rest' hi => ?_, rfl, ?_,
    fun i id => ?_⟩
  · exact absurd hi (by simp [start])
  · exact absurd ht (by simp [start, h, RescanSlot.isTaken])
  · exact absurd hi (by simp [start])
  · simp [start, h]
  · simp [start, RescanFuture.id?]

namespace Sound

theorem isTaken (hs : w.Sound) {i : ι} {id : Nat}
    {rest : Routine (Engine χ) (Except Panic RescanOutcome)} (hi : w.future i = .holding id rest) :
    w.engine.slot.isTaken = true := RescanSlot.isTaken_of_owner (hs.holder i id rest hi).1

theorem owner_iff (hs : w.Sound) (id : Nat) :
    w.engine.slot.owner = some id ↔ ∃ i rest, w.future i = .holding id rest := by
  constructor
  · intro howner
    rcases hs.taken (RescanSlot.isTaken_of_owner howner) with ⟨i, id', rest, hi⟩
    injection (hs.holder i id' rest hi).1.symm.trans howner with hid
    exact ⟨i, rest, hid ▸ hi⟩
  · rintro ⟨i, rest, hi⟩
    exact (hs.holder i id rest hi).1

theorem other (hs : w.Sound) {f : Engine χ → Engine χ} (hf : (f w.engine).slot = w.engine.slot) :
    Sound { w with engine := f w.engine } := by
  refine ⟨fun i id rest hi => ?_, fun ht => hs.taken ?_, hs.single, hs.numbered, ?_, hs.known⟩
  · rw [hf]
    exact hs.holder i id rest hi
  · rwa [hf] at ht
  · exact (congrArg RescanSlot.lastId hf).trans hs.lastId

end Sound

/-! ## Steps -/

variable [DecidableEq ι]

/-- One future and the engine have changed. -/
def put (w : Rescans ι χ) (i : ι) (future : RescanFuture χ) (e : Engine χ) : Rescans ι χ :=
  { w with engine := e, future := fun j => if j = i then future else w.future j }

/-- A future goes on by one change. It makes its claim first; one that is turned away
    tells its observer at once. Nothing happens if it waits for something else. -/
def go (calls : ι → RescanCall χ) (w : Rescans ι χ) (i : ι) : Rescans ι χ :=
  match w.future i with
  | .fresh =>
    match w.engine.claim (calls i).start (calls i).target with
    | (none, e) =>
      w.put i (.ended none (.ok (.ofError .rescanInProgress)))
        ((RescanOutcome.ofError .rescanInProgress).tell (calls i).observer e)
    | (some id, e) =>
      { w.put i (.past id (held (calls i) id)) e with claims := w.claims ++ [(i, id)] }
  | .holding id (.act run next) =>
    let (b, e) := run w.engine
    w.put i (.past id (next b)) e
  | .holding id (.wait ready timer abandon next) =>
    if (Routine.wait ready timer abandon next).canGoOn w.engine.now w.engine then
      w.put i (.past id next) w.engine
    else w
  | _ => w

/-- A future is dropped. That can only be while it waits, or before it does
    anything. -/
def drop (w : Rescans ι χ) (i : ι) : Rescans ι χ :=
  match w.future i with
  | .fresh => w.put i (.dropped none) w.engine
  | .holding id (.wait _ _ abandon _) => w.put i (.dropped (some id)) (abandon w.engine)
  | _ => w

/-- The rescans after a step. -/
def step (calls : ι → RescanCall χ) (w : Rescans ι χ) : RescanStep ι χ → Rescans ι χ
  | .go i => w.go calls i
  | .drop i => w.drop i
  | .other f => { w with engine := f w.engine }

/-- The rescans after steps, one after the other. -/
def run (calls : ι → RescanCall χ) (w : Rescans ι χ) (steps : List (RescanStep ι χ)) :
    Rescans ι χ := steps.foldl (step calls) w

variable {calls : ι → RescanCall χ}

@[simp] theorem put_engine (w : Rescans ι χ) (i : ι) (future : RescanFuture χ) (e : Engine χ) :
    (w.put i future e).engine = e := rfl

@[simp] theorem put_claims (w : Rescans ι χ) (i : ι) (future : RescanFuture χ) (e : Engine χ) :
    (w.put i future e).claims = w.claims := rfl

@[simp] theorem put_self (w : Rescans ι χ) (i : ι) (future : RescanFuture χ) (e : Engine χ) :
    (w.put i future e).future i = future := if_pos rfl

theorem put_other (w : Rescans ι χ) {i j : ι} (h : j ≠ i) (future : RescanFuture χ)
    (e : Engine χ) : (w.put i future e).future j = w.future j := if_neg h

/-! ## What steps do -/

theorem go_of_taken (calls : ι → RescanCall χ) {i : ι} (hi : w.future i = .fresh)
    (ht : w.engine.slot.isTaken = true) :
    w.go calls i =
      w.put i (.ended none (.ok (.ofError .rescanInProgress))) ((calls i).refuse w.engine) := by
  simp only [go, hi, claim_of_taken ht]
  rfl

theorem go_of_free (calls : ι → RescanCall χ) {i : ι} (hi : w.future i = .fresh)
    (ht : w.engine.slot.isTaken = false) :
    let (_, e) := w.engine.claim (calls i).start (calls i).target
    let id := w.engine.slot.lastId + 1
    w.go calls i =
      { w.put i (.past id (held (calls i) id)) e with claims := w.claims ++ [(i, id)] } := by
  have hid := (claim_of_free ht (calls i).start (calls i).target).1
  rcases hclaim : w.engine.claim (calls i).start (calls i).target with ⟨answer, e⟩
  rw [hclaim] at hid
  simp only [] at hid ⊢
  simp only [go, hi, hclaim, hid]

namespace Sound

theorem go_of_free (hs : w.Sound) (hcalls : ∀ i, (calls i).LeavesSlot) {i : ι}
    (hi : w.future i = .fresh) (ht : w.engine.slot.isTaken = false) :
    let (_, e) := w.engine.claim (calls i).start (calls i).target
    let id := w.claims.length + 1
    w.go calls i =
      { w.put i (.holding id (held (calls i) id)) e with claims := w.claims ++ [(i, id)] } := by
  have hgo := Rescans.go_of_free calls hi ht
  simp only [hs.lastId, RescanFuture.past_of_holds (holds_held (hcalls i) _)] at hgo
  exact hgo

/-- What letting a future go on comes to. -/
theorem go_cases (hs : w.Sound) (hcalls : ∀ i, (calls i).LeavesSlot) (i : ι) :
    w.go calls i = w ∨
    (w.future i = .fresh ∧ w.engine.slot.isTaken = true ∧
      w.go calls i =
        w.put i (.ended none (.ok (.ofError .rescanInProgress))) ((calls i).refuse w.engine)) ∨
    (w.future i = .fresh ∧ w.engine.slot.isTaken = false ∧
      let (_, e) := w.engine.claim (calls i).start (calls i).target
      let id := w.claims.length + 1
      w.go calls i =
        { w.put i (.holding id (held (calls i) id)) e with claims := w.claims ++ [(i, id)] }) ∨
    ∃ id rest, w.future i = .holding id rest ∧
      ((∃ rest' e, w.engine.Progresses e ∧ Holds id rest' ∧
        w.go calls i = w.put i (.holding id rest') e) ∨
      ∃ x, w.go calls i = w.put i (.ended (some id) x) (w.engine.modifySlot (·.release))) := by
  cases hi : w.future i with
  | fresh =>
      refine .inr ?_
      cases ht : w.engine.slot.isTaken with
      | true => exact .inl ⟨rfl, rfl, go_of_taken calls hi ht⟩
      | false => exact .inr (.inl ⟨rfl, rfl, hs.go_of_free hcalls hi ht⟩)
  | holding id rest =>
      have hholds := (hs.holder i id rest hi).2
      have howner := (hs.holder i id rest hi).1
      cases rest with
      | done x => exact absurd hholds fun h => h
      | act run next =>
          refine .inr (.inr (.inr ⟨id, _, rfl, ?_⟩))
          -- The change is the last one, which gives the slot back, or the slot is kept.
          rcases hholds w.engine howner with ⟨x, hdone, hlast⟩ | ⟨hprogress, hnext⟩
          · refine .inr ⟨x, ?_⟩
            simp only [go, hi, hdone, hlast]
            rfl
          · refine .inl ⟨_, _, hprogress, hnext, ?_⟩
            simp only [go, hi, RescanFuture.past_of_holds hnext]
      | wait ready timer abandon next =>
          simp only [go, hi]
          split
          · refine .inr (.inr (.inr ⟨id, _, rfl, .inl ⟨next, w.engine, .refl _, hholds.2, ?_⟩⟩))
            rw [RescanFuture.past_of_holds hholds.2]
          · exact .inl rfl
  | ended id x =>
      refine .inl ?_
      simp only [go, hi]
  | dropped id =>
      refine .inl ?_
      simp only [go, hi]

/-- What dropping a future comes to. -/
theorem drop_cases (hs : w.Sound) (i : ι) :
    w.drop i = w ∨
    (w.future i = .fresh ∧ w.drop i = w.put i (.dropped none) w.engine) ∨
    ∃ id rest e, w.future i = .holding id rest ∧ e.slot = w.engine.slot.release ∧
      w.drop i = w.put i (.dropped (some id)) e := by
  cases hi : w.future i with
  | fresh =>
      refine .inr (.inl ⟨rfl, ?_⟩)
      simp only [drop, hi]
  | holding id rest =>
      have hholds := (hs.holder i id rest hi).2
      have howner := (hs.holder i id rest hi).1
      cases rest with
      | done x => exact absurd hholds fun h => h
      | act run next =>
          refine .inl ?_
          simp only [drop, hi]
      | wait ready timer abandon next =>
          refine .inr (.inr ⟨id, _, abandon w.engine, rfl, hholds.1 w.engine howner, ?_⟩)
          simp only [drop, hi]
  | ended id x =>
      refine .inl ?_
      simp only [drop, hi]
  | dropped id =>
      refine .inl ?_
      simp only [drop, hi]

/-- The slot and the ids stay as they are, and nobody starts or stops holding. -/
theorem keep (hs : w.Sound) {i : ι} {future : RescanFuture χ} {e : Engine χ}
    (hprogress : w.engine.Progresses e) (hid : future.id? = (w.future i).id?)
    (hholding : ∀ id rest, future = .holding id rest → Holds id rest ∧
      ∃ rest', w.future i = .holding id rest')
    (hheld : ∀ id rest, w.future i = .holding id rest → ∃ rest', future = .holding id rest') :
    (w.put i future e).Sound := by
  -- Whoever holds the slot afterwards has held it before.
  have hback {j : ι} {id : Nat} {rest : Routine (Engine χ) (Except Panic RescanOutcome)}
      (hj : (w.put i future e).future j = .holding id rest) :
      Holds id rest ∧ ∃ rest', w.future j = .holding id rest' := by
    by_cases hji : j = i
    · rw [hji, put_self] at hj
      rw [hji]
      exact hholding id rest hj
    · rw [put_other w hji] at hj
      exact ⟨(hs.holder j id rest hj).2, rest, hj⟩
  refine ⟨fun j id rest hj => ?_, fun ht => ?_, fun j k id id' rest rest' hj hk => ?_,
    hs.numbered, ?_, fun j id => ?_⟩
  · rcases hback hj with ⟨hholds, rest', hj'⟩
    exact ⟨hprogress.owner.trans (hs.holder j id rest' hj').1, hholds⟩
  · -- A slot that is taken has the same owner as before, so it was taken.
    have hbefore : w.engine.slot.isTaken = true := by
      have howner := hprogress.owner
      cases hactive : w.engine.slot.active with
      | some r => simp [RescanSlot.isTaken, hactive]
      | none =>
          rw [RescanSlot.owner, RescanSlot.owner, hactive, Option.map_none,
            Option.map_eq_none_iff] at howner
          simp [RescanSlot.isTaken, howner] at ht
    rcases hs.taken hbefore with ⟨j, id, rest, hj⟩
    by_cases hji : j = i
    · rcases hheld id rest (hji ▸ hj) with ⟨rest', hfuture⟩
      exact ⟨i, id, rest', by rw [put_self, hfuture]⟩
    · exact ⟨j, id, rest, by rw [put_other w hji, hj]⟩
  · rcases hback hj with ⟨_, r, hj'⟩
    rcases hback hk with ⟨_, r', hk'⟩
    exact hs.single j k id id' r r' hj' hk'
  · exact hprogress.lastId.trans hs.lastId
  · by_cases hji : j = i
    · rw [hji, put_self, hid]
      exact hs.known i id
    · rw [put_other w hji]
      exact hs.known j id

/-- The holder of the slot gives it back. -/
theorem release (hs : w.Sound) {i : ι} {id : Nat}
    {rest : Routine (Engine χ) (Except Panic RescanOutcome)} (hi : w.future i = .holding id rest)
    {future : RescanFuture χ} {e : Engine χ} (hslot : e.slot = w.engine.slot.release)
    (hid : future.id? = some id) (hnot : ∀ id rest, future ≠ .holding id rest) :
    (w.put i future e).Sound := by
  -- Nobody else held it, so nobody does afterwards.
  have hnone (j : ι) (id' : Nat) (rest' : Routine (Engine χ) (Except Panic RescanOutcome)) :
      (w.put i future e).future j ≠ .holding id' rest' := by
    intro hj
    by_cases hji : j = i
    · rw [hji, put_self] at hj
      exact hnot id' rest' hj
    · rw [put_other w hji] at hj
      exact hji (hs.single j i id' id rest' rest hj hi)
  refine ⟨fun j id' rest' hj => absurd hj (hnone j id' rest'), fun ht => ?_,
    fun j k id' id'' r r' hj => absurd hj (hnone j id' r), hs.numbered, ?_, fun j id' => ?_⟩
  · rw [put_engine, hslot] at ht
    exact absurd ht (by simp [RescanSlot.isTaken, RescanSlot.release])
  · rw [put_engine, hslot]
    exact hs.lastId
  · by_cases hji : j = i
    · rw [hji, put_self, hid, put_claims, ← hs.known i id', hi, RescanFuture.id?]
    · rw [put_other w hji]
      exact hs.known j id'

/-- The slot was free, and a claim is let in. -/
theorem accept (hs : w.Sound) (hcalls : ∀ i, (calls i).LeavesSlot) {i : ι}
    (hi : w.future i = .fresh) (hfree : w.engine.slot.isTaken = false) :
    let id := w.claims.length + 1
    Sound { w.put i (.holding id (held (calls i) id))
      (w.engine.claim (calls i).start (calls i).target).2 with
        claims := w.claims ++ [(i, id)] } := by
  intro id
  have hslot := (claim_of_free hfree (calls i).start (calls i).target).2.1
  rcases owner_claim hfree (calls i).start (calls i).target with ⟨howner, hlast⟩
  rw [← hslot, hs.lastId] at howner hlast
  -- The slot was free, so nobody held it.
  have hnone (j : ι) (id' : Nat) (rest' : Routine (Engine χ) (Except Panic RescanOutcome)) :
      w.future j ≠ .holding id' rest' := by
    intro hj
    exact absurd (hs.isTaken hj) (by rw [hfree]; exact Bool.false_ne_true)
  generalize hnew : RescanFuture.holding id (held (calls i) id) = future
  generalize (w.engine.claim (calls i).start (calls i).target).2 = e at howner hlast
  refine ⟨fun j id' rest' hj => ?_, fun _ => ⟨i, id, held (calls i) id, ?_⟩,
    fun j k id' id'' r r' hj hk => ?_, ?_, ?_, fun j id' => ?_⟩
  · by_cases hji : j = i
    · have heq : future = .holding id' rest' := by
        rw [hji] at hj
        exact (put_self w i future e).symm.trans hj
      rw [← hnew] at heq
      injection heq with hid hrest
      rw [← hid, ← hrest]
      exact ⟨howner, holds_held (hcalls i) id⟩
    · exact absurd ((put_other w hji future e).symm.trans hj) (hnone j id' rest')
  · exact (put_self w i future e).trans hnew.symm
  · by_cases hji : j = i
    · by_cases hki : k = i
      · exact hji.trans hki.symm
      · exact absurd ((put_other w hki future e).symm.trans hk) (hnone k id'' r')
    · exact absurd ((put_other w hji future e).symm.trans hj) (hnone j id' r)
  · simp only [List.map_append, hs.numbered, List.map_cons, List.map_nil, List.length_append,
      List.length_singleton, List.range'_concat]
    rw [Nat.one_mul, Nat.add_comm]
  · simp only [put_engine, hlast, List.length_append, List.length_singleton]
  · rw [List.mem_append, List.mem_singleton, Prod.mk.injEq, ← hs.known j id']
    by_cases hji : j = i
    · rw [hji]
      change ((w.put i future e).future i).id? = some id' ↔ _
      rw [put_self, ← hnew, hi]
      simp [RescanFuture.id?, eq_comm]
    · change ((w.put i future e).future j).id? = some id' ↔ _
      rw [put_other w hji]
      simp [hji]

theorem go (hs : w.Sound) (hcalls : ∀ i, (calls i).LeavesSlot) (i : ι) :
    (w.go calls i).Sound := by
  rcases hs.go_cases hcalls i with heq | ⟨hi, ht, heq⟩ | ⟨hi, hfree, heq⟩ |
    ⟨id, rest, hi, ⟨rest', e, hprogress, hholds, heq⟩ | ⟨x, heq⟩⟩
  · rw [heq]
    exact hs
  · rw [heq]
    refine hs.keep (.of_slot (slot_refuse (hcalls i) ht)) (by rw [hi]; rfl) ?_ ?_
    · exact fun _ _ h => absurd h (by simp)
    · exact fun _ _ h => absurd (hi.symm.trans h) (by simp)
  · simp only [] at heq
    rw [heq]
    exact hs.accept hcalls hi hfree
  · rw [heq]
    refine hs.keep hprogress (by rw [hi]; rfl) (fun id' r h => ?_) fun id' r h => ?_
    · injection h with hid hr
      rw [← hid, ← hr]
      exact ⟨hholds, rest, hi⟩
    · rw [hi] at h
      injection h with hid _
      exact ⟨rest', by rw [hid]⟩
  · rw [heq]
    exact hs.release hi rfl rfl fun _ _ h => absurd h (by simp)

theorem drop (hs : w.Sound) (i : ι) : (w.drop i).Sound := by
  rcases hs.drop_cases i with heq | ⟨hi, heq⟩ | ⟨id, rest, e, hi, hslot, heq⟩
  · rw [heq]
    exact hs
  · rw [heq]
    refine hs.keep (.refl _) (by rw [hi]; rfl) ?_ ?_
    · exact fun _ _ h => absurd h (by simp)
    · exact fun _ _ h => absurd (hi.symm.trans h) (by simp)
  · rw [heq]
    exact hs.release hi hslot rfl fun _ _ h => absurd h (by simp)

end Sound

theorem sound_step (hs : w.Sound) (hcalls : ∀ i, (calls i).LeavesSlot) {s : RescanStep ι χ}
    (hothers : ∀ f, s = .other f → ∀ e, (f e).slot = e.slot) : (w.step calls s).Sound := by
  cases s with
  | go i => exact hs.go hcalls i
  | drop i => exact hs.drop i
  | other f => exact hs.other (hothers f rfl w.engine)

theorem sound_run (hs : w.Sound) (hcalls : ∀ i, (calls i).LeavesSlot)
    (steps : List (RescanStep ι χ)) (hothers : ∀ f, .other f ∈ steps → ∀ e, (f e).slot = e.slot) :
    (w.run calls steps).Sound := by
  induction steps generalizing w with
  | nil => exact hs
  | cons s steps ih =>
      exact ih (sound_step hs hcalls fun f hf => hothers f (hf ▸ List.mem_cons_self))
        fun f hf => hothers f (List.mem_cons_of_mem _ hf)

/-! ## Polls -/

theorem put_put (w : Rescans ι χ) (i : ι) (future future' : RescanFuture χ) (e e' : Engine χ) :
    (w.put i future e).put i future' e' = w.put i future' e' := by
  simp only [put, Rescans.mk.injEq, true_and, and_true]
  funext j
  split <;> rfl

/-- A future that runs up to its next wait makes a number of steps in a row. -/
theorem polled (calls : ι → RescanCall χ) (w : Rescans ι χ) (i : ι) (id : Nat)
    (rest : Routine (Engine χ) (Except Panic RescanOutcome)) (e : Engine χ) :
    ∃ n, (w.put i (.past id rest) e).run calls (List.replicate n (.go i)) =
      w.put i (.past id (rest.poll e).1) (rest.poll e).2 := by
  induction rest generalizing e with
  | done x => exact ⟨0, rfl⟩
  | wait ready timer abandon next ih => exact ⟨0, rfl⟩
  | act run next ih =>
      rcases ih (run e).1 (run e).2 with ⟨n, hn⟩
      refine ⟨n + 1, ?_⟩
      have hstep : (w.put i (.past id (.act run next)) e).go calls i =
          w.put i (.past id (next (run e).1)) (run e).2 := by
        unfold go
        rw [put_self]
        exact w.put_put i _ _ e _
      rw [List.replicate_succ]
      change ((w.put i (.past id (.act run next)) e).go calls i).run calls _ = _
      rw [hstep, hn]
      rfl

/-- So does one that is polled for the first time. -/
theorem polled_fresh (calls : ι → RescanCall χ) (w : Rescans ι χ) {i : ι}
    (hi : w.future i = .fresh) :
    ∃ n, let w' := w.run calls (List.replicate n (.go i))
      w'.engine = ((calls i).routine.poll w.engine).2 ∧
      w'.future i = if w.engine.slot.isTaken then .ended none (.ok (.ofError .rescanInProgress))
        else .past (w.engine.slot.lastId + 1) ((calls i).routine.poll w.engine).1 := by
  cases ht : w.engine.slot.isTaken with
  | true =>
      refine ⟨1, ?_⟩
      change (w.go calls i).engine = _ ∧ (w.go calls i).future i = _
      rw [go_of_taken calls hi ht, poll_rescan_of_taken (calls i) ht]
      exact ⟨rfl, put_self _ _ _ _⟩
  | false =>
      have hid := (claim_of_free ht (calls i).start (calls i).target).1
      have hgo := go_of_free calls hi ht
      rcases hclaim : w.engine.claim (calls i).start (calls i).target with ⟨answer, e⟩
      rw [hclaim] at hid hgo
      simp only [] at hid hgo
      rw [hid] at hclaim
      let id := w.engine.slot.lastId + 1
      let claimed : Rescans ι χ := { w with claims := w.claims ++ [(i, id)] }
      have hstep : w.go calls i = claimed.put i (.past id (held (calls i) id)) e := hgo
      -- The claim is the first change of the poll, and of the run the first step.
      have hpoll : (calls i).routine.poll w.engine = (held (calls i) id).poll e := by
        rw [RescanCall.routine, rescan_eq]
        simp only [Routine.poll, hclaim]
        rfl
      rcases claimed.polled calls i id (held (calls i) id) e with ⟨n, hn⟩
      refine ⟨n + 1, ?_⟩
      rw [List.replicate_succ]
      change ((w.go calls i).run calls _).engine = _ ∧ ((w.go calls i).run calls _).future i = _
      rw [hstep, hn, hpoll]
      exact ⟨rfl, put_self _ _ _ _⟩

end Rescans

end ChainSync
