import ChainSync.Decimal.Shortest

/-!
# Amounts

Amounts of money, in whole atoms and in coins.

An amount in coins is a binary64 value. Converting multiplies or divides by
the number of atoms in a coin, exactly and then rounded once; going to atoms
the product is rounded to the nearest whole number, a half going away from
zero. A value that is no number, and an amount that does not fit into 64 bits,
are refused.

## Main definitions

* `atomsPerCoin`: Atoms in one coin.
* `Amount.coins`: Atoms to coins.
* `Amount.atoms`: Coins to atoms, or why not.
-/

namespace ChainSync

/-- Atoms in one coin. -/
def atomsPerCoin : Nat := 100000000

namespace Amount

/-- Why coins cannot be converted to atoms. -/
inductive Error where
  /-- The amount is infinite or no number. -/
  | notFinite (coins : Binary64)
  /-- The amount needs more than 64 bits. -/
  | outOfRange (coins : Binary64)
deriving DecidableEq

/-- The message shown for a refused amount. -/
def Error.message : Error → String
  | .notFinite coins => "invalid coin amount: " ++ coins.text
  | .outOfRange coins => "coin amount " ++ coins.text ++ " is out of range"

/-- The coins of a number of atoms. -/
def coins (atoms : Int64) : Binary64 :=
  (Binary64.ofInt atoms.toInt).shrink atomsPerCoin

/-- The atoms of an amount in coins. The greatest number of 64 bits is no value of its own: the
    nearest one is the first that does not fit any more. -/
def atoms (coins : Binary64) : Except Error Int64 :=
  if !coins.isFinite then .error (.notFinite coins)
  else
    let whole := (coins.scale atomsPerCoin).round
    if whole.lt (.ofInt Int64.minValue.toInt) || whole.ge (.ofInt Int64.maxValue.toInt) then
      .error (.outOfRange coins)
    else .ok whole.toInt64

end Amount

end ChainSync
