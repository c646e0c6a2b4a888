import ChainSync.Proofs.Cancel.Shutdown

/-!
# Orderly Runs

Runs in which nobody does what he cannot do, and nobody is forgotten.

A shutdown works whatever the scheduler does and whoever asks. More can be said
of runs that are orderly. In those a handle is only cloned, dropped or cancelled
by somebody who has a clone of it, a token is only used once it has been made,
and a watcher that has been woken stays so until it has had its turn. Who of
the woken watchers is next is still left open.

Settling is a matter of such turns. A turn uses up a place among the woken, and
only one that ends a watcher may wake others; so with every turn the number of
turns that can be needed gets smaller, and settling comes to its end in any
order of turns.

## Main definitions

* `Coordinator.Step`, `Coordinator.steps`: Operations and turns.
* `Coordinator.Orderly`: Steps that are possible one after the other.
* `Coordinator.Derivation`, `Coordinator.derivations`: The handles of a run, and
  how they were derived.
* `Coordinator.firstTurn`: When a watcher has its first turn, in which it sets its timer.

## Theorems

* `Coordinator.takeTurn_cases`: The three ways in which a turn ends.
* `Coordinator.turns_takeTurn_lt`, `Coordinator.Orderly.length_le_turns`: Turns
  come to an end.
* `Coordinator.settle_orderly`: Settling is turns until none is left.
-/

namespace ChainSync

namespace Coordinator

/-- Whether somebody is in a position to ask for an operation. Turns of watchers
    are not asked for. -/
def Op.Possible (c : Coordinator) : Op → Prop
  | .makeToken parent => ∀ t ∈ parent, t < c.forest.tokens.length
  | .derive parent _ => parent < c.forest.tokens.length
  | .clone id => c.isLive id = true
  | .drop id => c.isLive id = true
  | .cancel id => c.isLive id = true
  | .cancelToken t => t < c.forest.tokens.length
  | .fire => True
  | .signal => True
  | .moveTo _ => True
  | .reschedule _ => False
  | .turn _ => False

instance (c : Coordinator) : (op : Op) → Decidable (op.Possible c)
  | .makeToken parent => inferInstanceAs (Decidable (∀ t ∈ parent, t < c.forest.tokens.length))
  | .derive parent _ => inferInstanceAs (Decidable (parent < c.forest.tokens.length))
  | .clone id => inferInstanceAs (Decidable (c.isLive id = true))
  | .drop id => inferInstanceAs (Decidable (c.isLive id = true))
  | .cancel id => inferInstanceAs (Decidable (c.isLive id = true))
  | .cancelToken t => inferInstanceAs (Decidable (t < c.forest.tokens.length))
  | .fire => inferInstanceAs (Decidable True)
  | .signal => inferInstanceAs (Decidable True)
  | .moveTo _ => inferInstanceAs (Decidable True)
  | .reschedule _ => inferInstanceAs (Decidable False)
  | .turn _ => inferInstanceAs (Decidable False)

/-- An operation, or a turn of a watcher that has been woken. -/
inductive Step where
  | op (op : Op)
  | watcher (id : Nat)

/-- Whether a step can come next. -/
def Step.Possible (c : Coordinator) : Step → Prop
  | .op o => o.Possible c
  | .watcher id => id ∈ c.woken

instance (c : Coordinator) : (s : Step) → Decidable (s.Possible c)
  | .op o => inferInstanceAs (Decidable (o.Possible c))
  | .watcher id => inferInstanceAs (Decidable (id ∈ c.woken))

/-- The coordinator after a woken watcher has had its turn. -/
def takeTurn (c : Coordinator) (id : Nat) : Coordinator :=
  (({ c with woken := c.woken.erase id } : Coordinator).runWatcher id).2

/-- The coordinator after a step. -/
def step (c : Coordinator) : Step → Coordinator
  | .op op => c.apply op
  | .watcher id => c.takeTurn id

/-- The coordinator after steps, one after the other. -/
def steps (c : Coordinator) (ss : List Step) : Coordinator := ss.foldl step c

@[simp] theorem steps_nil (c : Coordinator) : c.steps [] = c := rfl

@[simp] theorem steps_cons (c : Coordinator) (s : Step) (ss : List Step) :
    c.steps (s :: ss) = (c.step s).steps ss := rfl

theorem steps_append (c : Coordinator) (ss ss' : List Step) :
    c.steps (ss ++ ss') = (c.steps ss).steps ss' := List.foldl_append

/-- Steps that can come one after the other. -/
def Orderly : Coordinator → List Step → Prop
  | _, [] => True
  | c, s :: ss => s.Possible c ∧ Orderly (c.step s) ss

instance decidableOrderly : (c : Coordinator) → (ss : List Step) → Decidable (c.Orderly ss)
  | _, [] => inferInstanceAs (Decidable True)
  | c, s :: ss =>
    have : Decidable ((c.step s).Orderly ss) := decidableOrderly (c.step s) ss
    inferInstanceAs (Decidable (s.Possible c ∧ (c.step s).Orderly ss))

/-! ## Derivations -/

/-- How a handle was derived. -/
structure Derivation where
  id : Nat
  /-- The token of the handle. -/
  token : Nat
  /-- The token it was derived below. -/
  parent : Nat
  timeout : Option Nat
  /-- When it was derived. -/
  time : Nat
deriving DecidableEq

/-- When the time of a handle is up. It is counted from the first turn of its watcher. -/
def Derivation.deadline (d : Derivation) (first : Option Nat) : Option Nat :=
  first.bind fun t => d.timeout.map fun ms => t + min ms longestWait

/-- The watcher of a handle, before its first turn or after it. -/
def Derivation.watcher (d : Derivation) (first : Option Nat) : Watcher :=
  ⟨d.id, d.token, d.parent, d.timeout, d.deadline first⟩

/-- A watcher sets its timer in its first turn, and only then. -/
theorem armed_watcher (c : Coordinator) (d : Derivation) (first : Option Nat) :
    c.armed (d.watcher first) = d.watcher (first.or (some c.now)) := by
  simp only [armed, Derivation.watcher, Derivation.deadline]
  cases first <;> cases d.timeout <;> rfl

/-- The derivation that comes next. -/
def next (c : Coordinator) (parent : Nat) (timeout : Option Nat) : Derivation :=
  ⟨c.nextId, c.forest.tokens.length, parent, timeout, c.now⟩

/-- The derivation that a step is, if it is one. -/
def derivation? (c : Coordinator) : Step → Option Derivation
  | .op (.derive parent timeout) => some (c.next parent timeout)
  | _ => none

/-- The derivations among steps. -/
def derivations : Coordinator → List Step → List Derivation
  | _, [] => []
  | c, s :: ss => (c.derivation? s).toList ++ derivations (c.step s) ss

theorem derivations_turns (c : Coordinator) (ids : List Nat) :
    c.derivations (ids.map .watcher) = [] := by
  induction ids generalizing c with
  | nil => rfl
  | cons id ids ih => exact ih (c.takeTurn id)

/-! ## First turns -/

/-- Whether a step is a turn of the watcher of a handle. -/
def Step.isTurnOf (c : Coordinator) (id : Nat) : Step → Bool
  | .watcher j => j = id && c.watchers.any (·.handle = id)
  | _ => false

/-- When the watcher of a handle has its first turn among steps, if it has one. -/
def firstTurn : Coordinator → List Step → Nat → Option Nat
  | _, [], _ => none
  | c, s :: ss, id => if s.isTurnOf c id then some c.now else firstTurn (c.step s) ss id

/-- The first turns of before, and that of a watcher that has not had one. -/
def noted (c : Coordinator) (first : Nat → Option Nat) (s : Step) (id : Nat) : Option Nat :=
  (first id).or (if s.isTurnOf c id then some c.now else none)

theorem firstTurn_append (c : Coordinator) (ss ss' : List Step) (id : Nat) :
    c.firstTurn (ss ++ ss') id = (c.firstTurn ss id).or ((c.steps ss).firstTurn ss' id) := by
  induction ss generalizing c with
  | nil => rfl
  | cons s ss ih =>
      simp only [List.cons_append, firstTurn, steps_cons]
      split
      · rfl
      · exact ih (c.step s)

theorem firstTurn_concat (c : Coordinator) (ss : List Step) (s : Step) :
    c.firstTurn (ss ++ [s]) = (c.steps ss).noted (c.firstTurn ss) s := by
  funext id
  exact c.firstTurn_append ss [s] id

/-- Operations are not turns. -/
theorem noted_op (c : Coordinator) (first : Nat → Option Nat) (o : Op) :
    c.noted first (.op o) = first := by
  funext id
  exact Option.or_none

/-- Nobody has his first turn twice. -/
theorem noted_of_some (c : Coordinator) {first : Nat → Option Nat} (s : Step) {id t : Nat}
    (h : first id = some t) : c.noted first s id = some t := by rw [noted, h, Option.some_or]

/-- A turn is that of one watcher. -/
theorem noted_of_ne (c : Coordinator) (first : Nat → Option Nat) {id j : Nat} (h : j ≠ id) :
    c.noted first (.watcher id) j = first j := by
  rw [noted, Step.isTurnOf, decide_eq_false (Ne.symm h)]
  exact Option.or_none

theorem noted_of_mem (c : Coordinator) (first : Nat → Option Nat) {w : Watcher}
    (hw : w ∈ c.watchers) :
    c.noted first (.watcher w.handle) w.handle = (first w.handle).or (some c.now) := by
  have hany : (Step.watcher w.handle).isTurnOf c w.handle = true := by
    simp only [Step.isTurnOf, decide_true, Bool.true_and, List.any_eq_true, decide_eq_true_eq]
    exact ⟨w, hw, rfl⟩
  rw [noted, if_pos hany]

/-- What becomes of the watcher of a derivation when one sets its timer. -/
theorem arm_watcher (c : Coordinator) {first : Nat → Option Nat} {d : Derivation}
    (hw : d.watcher (first d.id) ∈ c.watchers) (id : Nat) :
    (if (d.watcher (first d.id)).handle = id then c.armed (d.watcher (first d.id))
      else d.watcher (first d.id)) = d.watcher (c.noted first (.watcher id) d.id) := by
  change (if d.id = id then _ else _) = _
  split
  · next hid =>
    have hnoted : c.noted first (.watcher d.id) d.id = (first d.id).or (some c.now) :=
      c.noted_of_mem first hw
    rw [armed_watcher, ← hid, hnoted]
  · next hid => rw [c.noted_of_ne first hid]

/-! ## Turns -/

/-- The three ways in which a turn ends, and why. The timer has been set before. -/
theorem takeTurn_cases (c : Coordinator) (id : Nat) :
    let rest : Coordinator := { c with woken := c.woken.erase id }
    (c.takeTurn id = rest.arm id ∧
      ∀ w, (c.arm id).watchers.find? (·.handle = id) = some w → c.causeFor w = none) ∨
    (∃ w, (c.arm id).watchers.find? (·.handle = id) = some w ∧ c.causeFor w = some .own ∧
      c.takeTurn id = rest.retired id) ∨
    ∃ w reason, (c.arm id).watchers.find? (·.handle = id) = some w ∧
      c.causeFor w = some (.cancel reason) ∧
      c.takeTurn id = ((rest.retired id).cancelWith id reason).2 := by
  intro rest
  rw [← rest.retired_arm id]
  -- Neither who is woken nor whose timer is set makes a difference to what is found.
  exact (rest.arm id).look_cases id

/-- A cancellation wakes each of the watchers once at most. -/
theorem length_woken_cancelWith (c : Coordinator) (id : Nat) (reason : CancelReason) :
    (c.cancelWith id reason).2.woken.length ≤ c.woken.length + c.watchers.length := by
  unfold cancelWith
  split
  · exact Nat.le_add_right _ _
  · simp only [cancelToken, List.length_append, List.length_map]
    exact Nat.add_le_add_left (List.length_filter_le _ _) _

theorem length_retired_lt {c : Coordinator} {id : Nat} {w : Watcher}
    (hw : (c.arm id).watchers.find? (·.handle = id) = some w) :
    (c.retired id).watchers.length < c.watchers.length := by
  have hlength : (c.arm id).watchers.length = c.watchers.length := List.length_map _
  rw [← hlength, ← retired_arm]
  refine List.length_filter_lt_length_iff_exists.mpr ⟨w, List.mem_of_find?_eq_some hw, ?_⟩
  simpa using List.find?_some hw

/-- With every turn fewer turns can be needed. -/
theorem turns_takeTurn_lt {c : Coordinator} {id : Nat} (hid : id ∈ c.woken) :
    (c.takeTurn id).turns < c.turns := by
  have herase := List.length_erase_of_mem hid
  have hpos := List.length_pos_of_mem hid
  -- A watcher less makes up for all others being woken.
  have hless {n n' m m' : Nat} (hn : n' < n) (hm : m' < m + n') :
      n' * (n' + 1) + m' < n * (n + 1) + m := by
    have hmul : n' * (n' + 1) + n' ≤ n * (n + 1) :=
      calc n' * (n' + 1) + n' ≤ n' * (n' + 1) + (n' + 1) := by omega
        _ = (n' + 1) * (n' + 1) := by rw [Nat.add_mul n' 1, Nat.one_mul]
        _ ≤ n * (n + 1) := Nat.mul_le_mul hn (by omega)
    omega
  rcases c.takeTurn_cases id with ⟨heq, _⟩ | ⟨w, hw, _, heq⟩ | ⟨w, reason, hw, _, heq⟩
  · rw [heq]
    simp only [turns, arm, List.length_map]
    omega
  · have hlt := length_retired_lt hw
    rw [heq]
    refine hless hlt ?_
    simp only [retired]
    omega
  · have hlt := length_retired_lt hw
    have hwoken := length_woken_cancelWith
      (({ c with woken := c.woken.erase id } : Coordinator).retired id) id reason
    rw [heq]
    simp only [turns, watchers_cancelWith]
    refine hless hlt ?_
    simp only [retired] at hwoken ⊢
    omega

/-- There are no more turns in a row than can be needed. -/
theorem Orderly.length_le_turns {c : Coordinator} {ids : List Nat}
    (h : c.Orderly (ids.map .watcher)) : ids.length ≤ c.turns := by
  induction ids generalizing c with
  | nil => exact Nat.zero_le _
  | cons id ids ih =>
      have hlt : (c.takeTurn id).turns < c.turns := turns_takeTurn_lt h.1
      have hrest : ids.length ≤ (c.takeTurn id).turns := ih h.2
      rw [List.length_cons]
      omega

/-- Settling is turns until nobody is woken any more. -/
theorem settleWithin_orderly (n : Nat) (c : Coordinator) (hn : c.turns ≤ n) :
    ∃ ids : List Nat, c.Orderly (ids.map .watcher) ∧
      (c.settleWithin n).2 = c.steps (ids.map .watcher) ∧ (c.settleWithin n).2.woken = [] := by
  induction n generalizing c with
  | zero =>
      refine ⟨[], trivial, rfl, ?_⟩
      have hnone : c.woken.length = 0 := by
        rw [turns] at hn
        omega
      exact List.eq_nil_of_length_eq_zero hnone
  | succ n ih =>
      unfold settleWithin
      cases hwoken : c.woken with
      | nil => exact ⟨[], trivial, rfl, hwoken⟩
      | cons id woken =>
          have hturn : (({ c with woken } : Coordinator).runWatcher id).2 = c.takeTurn id := by
            rw [takeTurn, hwoken, List.erase_cons_head]
          have hid : id ∈ c.woken := hwoken ▸ List.mem_cons_self
          have hlt := turns_takeTurn_lt hid
          rcases ih (c.takeTurn id) (by omega) with ⟨ids, horderly, heq, hnone⟩
          simp only [hturn]
          exact ⟨id :: ids, ⟨hid, horderly⟩, heq, hnone⟩

theorem settle_orderly (c : Coordinator) :
    ∃ ids : List Nat, c.Orderly (ids.map .watcher) ∧ c.settle.2 = c.steps (ids.map .watcher) ∧
      c.settle.2.woken = [] := settleWithin_orderly c.turns c (Nat.le_refl _)

end Coordinator

end ChainSync
