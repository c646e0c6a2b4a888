/-!
# Wallet Transactions

What a wallet knows of a transaction: where money came from and went to, and
how far the chain has taken note of it.

## Main definitions

* `Direction`: Whether money left, came in, or stayed in the wallet.
* `Debit`, `Credit`: Single movements.
* `Transaction`: A transaction with its movements.
-/

namespace ChainSync

/-- Whether money left the wallet, came in, or stayed in it. -/
inductive Direction where
  | sent
  | received
  | transferred
deriving DecidableEq

namespace Direction

/-- The name of a direction. -/
def name : Direction → String
  | sent => "Sent"
  | received => "Received"
  | transferred => "Transferred"

/-- The number of a direction. -/
def code : Direction → Int
  | sent => 0
  | received => 1
  | transferred => 2

/-- The direction with a given number. -/
def ofCode? (n : Int) : Option Direction :=
  if n = 0 then some sent else if n = 1 then some received
  else if n = 2 then some transferred else none

/-- The message shown for a number that is no direction's. -/
def invalidMessage (n : Int) : String := "invalid transaction direction " ++ toString n

end Direction

/-- Money taken from an account of the wallet. -/
structure Debit where
  index : Int32
  previousAccount : Int32
  previousAmount : Int64
  accountName : String
deriving DecidableEq

/-- Money put into an account of the wallet. -/
structure Credit where
  index : Int32
  account : Int32
  internal : Bool
  amount : Int64
  address : String
deriving DecidableEq

/-- A transaction as the wallet knows it. -/
structure Transaction where
  hash : String
  raw : List UInt8
  fee : Int64
  timestamp : Int64
  kind : String
  amount : Int64
  status : String
  height : Int32
  direction : Direction
  debits : List Debit
  credits : List Credit
deriving DecidableEq

/-- Whether the transaction is part of a block. -/
def Transaction.isConfirmed (t : Transaction) : Bool := 0 < t.height

end ChainSync
