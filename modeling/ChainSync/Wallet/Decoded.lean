/-!
# Unsigned and Decoded Transactions

A transaction before it is signed, and one taken apart.

## Main definitions

* `UnsignedTransaction`: A transaction that waits to be signed.
* `DecodedInput`, `DecodedOutput`, `DecodedTransaction`: The parts of a
  transaction.
-/

namespace ChainSync

/-- A transaction that waits to be signed. -/
structure UnsignedTransaction where
  bytes : List UInt8
  estimatedSignedSize : UInt64
  changeIndex : Option UInt64
  totalOutputAmount : Int64
  totalPreviousOutputAmount : Int64
deriving DecidableEq

/-- An input of a transaction. -/
structure DecodedInput where
  previousTransactionHash : String
  previousTransactionIndex : Int32
  sequence : Int32
  amountIn : Int64
  blockHeight : Int32
  blockIndex : Int32
deriving DecidableEq

/-- An output of a transaction. -/
structure DecodedOutput where
  index : Int32
  value : Int64
  version : Int32
  addresses : List String
deriving DecidableEq

/-- A transaction taken apart. -/
structure DecodedTransaction where
  hash : String
  kind : String
  version : Int32
  lockTime : Int32
  expiry : Int32
  inputs : List DecodedInput
  outputs : List DecodedOutput
deriving DecidableEq

end ChainSync
