/-!
# Wallet Accounts

The accounts of a wallet and what each of them holds.

## Main definitions

* `Balance`: The parts of a balance.
* `Account`, `Accounts`: One account, and all of them at a block.
-/

namespace ChainSync

/-- The parts of a balance, in atoms. -/
structure Balance where
  total : Int64 := 0
  spendable : Int64 := 0
  immatureReward : Int64 := 0
  immatureStakeGeneration : Int64 := 0
  lockedByTickets : Int64 := 0
  votingAuthority : Int64 := 0
  unconfirmed : Int64 := 0
deriving DecidableEq

/-- One account of a wallet. -/
structure Account where
  number : Int32
  name : String
  balance : Balance
  totalBalance : Int64
  externalKeyCount : Int32
  internalKeyCount : Int32
  importedKeyCount : Int32
deriving DecidableEq

/-- All accounts of a wallet, at a block of the chain. -/
structure Accounts where
  accounts : List Account
  currentBlockHash : List UInt8
  currentBlockHeight : Int32
deriving DecidableEq

/-- The number of accounts. -/
def Accounts.count (a : Accounts) : Nat := a.accounts.length

end ChainSync
