/-!
# Routines

Work that can wait.

A routine runs against a state it shares with others. It runs without a break
from one wait to the next, so nobody else changes the state in between. While
it waits, others run; it goes on once the state is as it wants it, or once a
point in time has come. A routine that is given up while it waits leaves the
state tidy by the cleanup that belongs to that wait.

Every routine ends after finitely many steps along each path, so running one
needs no bound. A routine that waits for something that never happens simply
never gets past that wait.

## Main definitions

* `Routine`: The routines over a state `σ` that end with an `α`.
* `Routine.poll`, `Routine.resume`: Running up to the next wait.
* `Routine.giveWay`: Letting everybody else go first.
* `Routine.unlessStopped`: Giving a routine up when something happens.
* `Routine.around`, `Routine.ensuring`: Wrapping a routine.
-/

namespace ChainSync

/-- Work over a state `σ` that ends with an `α`. -/
inductive Routine (σ α : Type) : Type 1 where
  /-- The work is over. -/
  | done (a : α)
  /-- One change of the state, and what follows its answer. -/
  | act {β : Type} (run : σ → β × σ) (next : β → Routine σ α)
  /-- A wait until `ready` holds or the time `timer` has come; `abandon` cleans
      up when the routine is given up here. -/
  | wait (ready : σ → Bool) (timer : Option Nat) (abandon : σ → σ) (next : Routine σ α)

namespace Routine

variable {σ α β ε : Type}

/-- One routine after another. -/
def bind : Routine σ α → (α → Routine σ β) → Routine σ β
  | done a, f => f a
  | act run next, f => act run fun b => (next b).bind f
  | wait ready timer abandon next, f => wait ready timer abandon (next.bind f)

instance : Monad (Routine σ) where
  pure := done
  bind := bind

/-- A change of the state with its answer. -/
def perform (run : σ → α × σ) : Routine σ α := act run done

/-- A change of the state. -/
def update (f : σ → σ) : Routine σ Unit := perform fun s => ((), f s)

/-- What the state says. -/
def ask (f : σ → α) : Routine σ α := perform fun s => (f s, s)

/-- Waits until the state is as wanted or a time has come. -/
def pause (ready : σ → Bool) (timer : Option Nat) : Routine σ Unit := wait ready timer id (done ())

/-- Lets everybody else who can go on go first: a wait for a time that has come
    already. -/
def giveWay : Routine σ Unit := pause (fun _ => false) (some 0)

/-- Waits for ever. -/
def never : Routine σ Unit := pause (fun _ => false) none

/-- Runs up to the next wait or the end. -/
def poll : Routine σ α → σ → Routine σ α × σ
  | act run next, s => let (b, s) := run s; (next b).poll s
  | r, s => (r, s)

/-- Goes on from a wait. -/
def resume : Routine σ α → σ → Routine σ α × σ
  | wait _ _ _ next, s => next.poll s
  | r, s => r.poll s

/-- What a routine has ended with. -/
def result? : Routine σ α → Option α
  | done a => some a
  | _ => none

/-- Whether a routine waits and the state is as it wants it. -/
def isReady (s : σ) : Routine σ α → Bool
  | wait ready _ _ _ => ready s
  | _ => false

/-- Whether a routine waits for a time that has come. -/
def isDue (now : Nat) : Routine σ α → Bool
  | wait _ timer _ _ => (timer.map (decide <| · ≤ now)).getD false
  | _ => false

/-- Whether a routine waits and could go on at a time. -/
def canGoOn (now : Nat) (s : σ) (r : Routine σ α) : Bool := r.isReady s || r.isDue now

/-- The time a waiting routine waits for. -/
def timer? : Routine σ α → Option Nat
  | wait _ timer _ _ => timer
  | _ => none

/-- Gives a routine up at the first wait that ends with a reason to stop; the
    reason goes before anything the routine itself waits for. -/
def guarded (stop : σ → Option ε) : Routine σ α → Routine σ (Except ε α)
  | done a => done (.ok a)
  | act run next => act run fun b => (next b).guarded stop
  | wait ready timer abandon next =>
    wait (fun s => (stop s).isSome || ready s) timer abandon
      (act (fun s => match stop s with
          | some e => (some e, abandon s)
          | none => (none, s))
        fun
          | some e => done (.error e)
          | none => next.guarded stop)

/-- Runs a routine unless there is a reason to stop already, and gives it up at
    the first wait that ends with one. -/
def unlessStopped (stop : σ → Option ε) (r : Routine σ α) : Routine σ (Except ε α) :=
  act (fun s => (stop s, s)) fun
    | some e => done (.error e)
    | none => r.guarded stop

/-- Wraps every change of the state. -/
def around (enter leave : σ → σ) : Routine σ α → Routine σ α
  | done a => done a
  | act run next =>
    act (fun s => let (b, s) := run (enter s); (b, leave s)) fun b => (next b).around enter leave
  | wait ready timer abandon next => wait ready timer abandon (next.around enter leave)

/-- Cleans up at the end, or when the routine is given up. -/
def ensuring (cleanup : σ → σ) : Routine σ α → Routine σ α
  | done a => act (fun s => ((), cleanup s)) fun _ => done a
  | act run next => act run fun b => (next b).ensuring cleanup
  | wait ready timer abandon next =>
    wait ready timer (fun s => cleanup (abandon s)) (next.ensuring cleanup)

end Routine

end ChainSync
