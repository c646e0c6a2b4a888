/-!
# Cancellation Tokens

Tokens that can be cancelled, each on its own or below another one.

Tokens are numbered in the order in which they are made, so a token's parent
has a smaller number. A token counts as cancelled when it or one of the tokens
above it has been cancelled; cancelling a token leaves those above it alone,
and no cancelled token ever recovers.

## Main definitions

* `Token`, `Forest`: The tokens made so far.
* `Forest.isCancelled`: Whether a token counts as cancelled.
* `Forest.make`, `Forest.cancel`: The operations.
-/

namespace ChainSync

/-- A token: the one above it, and whether it has been cancelled itself. -/
structure Token where
  parent : Option Nat := none
  cancelled : Bool := false
deriving DecidableEq

/-- The tokens made so far; a token is known by its place. -/
structure Forest where
  tokens : List Token := []
deriving DecidableEq

namespace Forest

/-- Whether a token or one of the `steps - 1` tokens above it has been
    cancelled itself. -/
def cancelledWithin (f : Forest) : Nat → Nat → Bool
  | 0, _ => false
  | steps + 1, t =>
    match f.tokens[t]? with
    | none => false
    | some token => token.cancelled || (token.parent.map (f.cancelledWithin steps)).getD false

/-- Whether a token counts as cancelled. Above a token are only tokens with
    smaller numbers. -/
def isCancelled (f : Forest) (t : Nat) : Bool := f.cancelledWithin (t + 1) t

/-- Makes a token below another one or on its own. -/
def make (f : Forest) (parent : Option Nat) : Nat × Forest :=
  (f.tokens.length, ⟨f.tokens ++ [({ parent } : Token)]⟩)

/-- Cancels a token. -/
def cancel (f : Forest) (t : Nat) : Forest :=
  ⟨f.tokens.modify t fun token => { token with cancelled := true }⟩

end Forest

end ChainSync
