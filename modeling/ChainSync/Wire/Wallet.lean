import ChainSync.Wallet.Account
import ChainSync.Wallet.Decoded
import ChainSync.Wallet.Transaction
import ChainSync.Wire.Codec

/-!
# Wallet Data on the Wire

The forms of transactions and accounts on the wire.

Every record lists its fields in the order of declaration. A direction stands
on the wire as its number, and a number that is no direction's is a mismatch.

## Main definitions

* `Codec.transaction`, `Codec.accounts`, `Codec.decodedTransaction` and the
  codecs of their parts.
-/

namespace ChainSync.Wire.Codec

/-- A direction, by its number. -/
def direction : Codec Direction where
  format := .int 0 2
  encode d := .int d.code
  decode
    | .int n => Direction.ofCode? n
    | _ => none

/-- A debit. -/
def debit : Codec Debit where
  format := .record
    [("index", .int32), ("previous_account", .int32), ("previous_amount", .int64),
      ("account_name", .text)]
  encode d := .record
    [("index", int32.encode d.index), ("previous_account", int32.encode d.previousAccount),
      ("previous_amount", int64.encode d.previousAmount), ("account_name", .text d.accountName)]
  decode d := do
    match fieldValues d with
    | [index, previousAccount, previousAmount, accountName] =>
      return {
        index := ← int32.decode index
        previousAccount := ← int32.decode previousAccount
        previousAmount := ← int64.decode previousAmount
        accountName := ← text.decode accountName }
    | _ => none

/-- A credit. -/
def credit : Codec Credit where
  format := .record
    [("index", .int32), ("account", .int32), ("internal", .bool), ("amount", .int64),
      ("address", .text)]
  encode c := .record
    [("index", int32.encode c.index), ("account", int32.encode c.account),
      ("internal", .bool c.internal), ("amount", int64.encode c.amount),
      ("address", .text c.address)]
  decode d := do
    match fieldValues d with
    | [index, account, internal, amount, address] =>
      return {
        index := ← int32.decode index
        account := ← int32.decode account
        internal := ← bool.decode internal
        amount := ← int64.decode amount
        address := ← text.decode address }
    | _ => none

/-- A string of bytes. -/
def bytes : Codec (List UInt8) := list uint8

/-- A transaction. -/
def transaction : Codec Transaction where
  format := .record
    [("hash", .text), ("transaction", bytes.format), ("fee", .int64), ("timestamp", .int64),
      ("type", .text), ("amount", .int64), ("status", .text), ("height", .int32),
      ("direction", direction.format), ("debits", (list debit).format),
      ("credits", (list credit).format)]
  encode t := .record
    [("hash", .text t.hash), ("transaction", bytes.encode t.raw), ("fee", int64.encode t.fee),
      ("timestamp", int64.encode t.timestamp), ("type", .text t.kind),
      ("amount", int64.encode t.amount), ("status", .text t.status),
      ("height", int32.encode t.height), ("direction", direction.encode t.direction),
      ("debits", (list debit).encode t.debits), ("credits", (list credit).encode t.credits)]
  decode d := do
    match fieldValues d with
    | [hash, raw, fee, timestamp, kind, amount, status, height, dir, debits, credits] =>
      return {
        hash := ← text.decode hash
        raw := ← bytes.decode raw
        fee := ← int64.decode fee
        timestamp := ← int64.decode timestamp
        kind := ← text.decode kind
        amount := ← int64.decode amount
        status := ← text.decode status
        height := ← int32.decode height
        direction := ← direction.decode dir
        debits := ← (list debit).decode debits
        credits := ← (list credit).decode credits }
    | _ => none

/-- A balance. -/
def balance : Codec Balance where
  format := .record
    [("total", .int64), ("spendable", .int64), ("immature_reward", .int64),
      ("immature_stake_generation", .int64), ("locked_by_tickets", .int64),
      ("voting_authority", .int64), ("unconfirmed", .int64)]
  encode b := .record
    [("total", int64.encode b.total), ("spendable", int64.encode b.spendable),
      ("immature_reward", int64.encode b.immatureReward),
      ("immature_stake_generation", int64.encode b.immatureStakeGeneration),
      ("locked_by_tickets", int64.encode b.lockedByTickets),
      ("voting_authority", int64.encode b.votingAuthority),
      ("unconfirmed", int64.encode b.unconfirmed)]
  decode d := do
    match fieldValues d with
    | [total, spendable, reward, stake, locked, voting, unconfirmed] =>
      return {
        total := ← int64.decode total
        spendable := ← int64.decode spendable
        immatureReward := ← int64.decode reward
        immatureStakeGeneration := ← int64.decode stake
        lockedByTickets := ← int64.decode locked
        votingAuthority := ← int64.decode voting
        unconfirmed := ← int64.decode unconfirmed }
    | _ => none

/-- An account. -/
def account : Codec Account where
  format := .record
    [("number", .int32), ("name", .text), ("balance", balance.format), ("total_balance", .int64),
      ("external_key_count", .int32), ("internal_key_count", .int32),
      ("imported_key_count", .int32)]
  encode a := .record
    [("number", int32.encode a.number), ("name", .text a.name),
      ("balance", balance.encode a.balance), ("total_balance", int64.encode a.totalBalance),
      ("external_key_count", int32.encode a.externalKeyCount),
      ("internal_key_count", int32.encode a.internalKeyCount),
      ("imported_key_count", int32.encode a.importedKeyCount)]
  decode d := do
    match fieldValues d with
    | [number, name, bal, total, external, internal, imported] =>
      return {
        number := ← int32.decode number
        name := ← text.decode name
        balance := ← balance.decode bal
        totalBalance := ← int64.decode total
        externalKeyCount := ← int32.decode external
        internalKeyCount := ← int32.decode internal
        importedKeyCount := ← int32.decode imported }
    | _ => none

/-- All accounts at a block. -/
def accounts : Codec Accounts where
  format := .record
    [("accounts", (list account).format), ("current_block_hash", bytes.format),
      ("current_block_height", .int32)]
  encode a := .record
    [("accounts", (list account).encode a.accounts),
      ("current_block_hash", bytes.encode a.currentBlockHash),
      ("current_block_height", int32.encode a.currentBlockHeight)]
  decode d := do
    match fieldValues d with
    | [all, hash, height] =>
      return {
        accounts := ← (list account).decode all
        currentBlockHash := ← bytes.decode hash
        currentBlockHeight := ← int32.decode height }
    | _ => none

/-- A transaction that waits to be signed. -/
def unsignedTransaction : Codec UnsignedTransaction where
  format := .record
    [("unsigned_transaction", bytes.format), ("estimated_signed_size", .nat64),
      ("change_index", .optional .nat64), ("total_output_amount", .int64),
      ("total_previous_output_amount", .int64)]
  encode u := .record
    [("unsigned_transaction", bytes.encode u.bytes),
      ("estimated_signed_size", uint64.encode u.estimatedSignedSize),
      ("change_index", (optional uint64).encode u.changeIndex),
      ("total_output_amount", int64.encode u.totalOutputAmount),
      ("total_previous_output_amount", int64.encode u.totalPreviousOutputAmount)]
  decode d := do
    match fieldValues d with
    | [raw, size, change, output, previous] =>
      return {
        bytes := ← bytes.decode raw
        estimatedSignedSize := ← uint64.decode size
        changeIndex := ← (optional uint64).decode change
        totalOutputAmount := ← int64.decode output
        totalPreviousOutputAmount := ← int64.decode previous }
    | _ => none

/-- An input of a transaction. -/
def decodedInput : Codec DecodedInput where
  format := .record
    [("previous_transaction_hash", .text), ("previous_transaction_index", .int32),
      ("sequence", .int32), ("amount_in", .int64), ("block_height", .int32),
      ("block_index", .int32)]
  encode i := .record
    [("previous_transaction_hash", .text i.previousTransactionHash),
      ("previous_transaction_index", int32.encode i.previousTransactionIndex),
      ("sequence", int32.encode i.sequence), ("amount_in", int64.encode i.amountIn),
      ("block_height", int32.encode i.blockHeight), ("block_index", int32.encode i.blockIndex)]
  decode d := do
    match fieldValues d with
    | [hash, index, sequence, amount, height, blockIndex] =>
      return {
        previousTransactionHash := ← text.decode hash
        previousTransactionIndex := ← int32.decode index
        sequence := ← int32.decode sequence
        amountIn := ← int64.decode amount
        blockHeight := ← int32.decode height
        blockIndex := ← int32.decode blockIndex }
    | _ => none

/-- An output of a transaction. -/
def decodedOutput : Codec DecodedOutput where
  format := .record
    [("index", .int32), ("value", .int64), ("version", .int32),
      ("addresses", (list text).format)]
  encode o := .record
    [("index", int32.encode o.index), ("value", int64.encode o.value),
      ("version", int32.encode o.version), ("addresses", (list text).encode o.addresses)]
  decode d := do
    match fieldValues d with
    | [index, value, version, addresses] =>
      return {
        index := ← int32.decode index
        value := ← int64.decode value
        version := ← int32.decode version
        addresses := ← (list text).decode addresses }
    | _ => none

/-- A transaction taken apart. -/
def decodedTransaction : Codec DecodedTransaction where
  format := .record
    [("hash", .text), ("type", .text), ("version", .int32), ("lock_time", .int32),
      ("expiry", .int32), ("inputs", (list decodedInput).format),
      ("outputs", (list decodedOutput).format)]
  encode t := .record
    [("hash", .text t.hash), ("type", .text t.kind), ("version", int32.encode t.version),
      ("lock_time", int32.encode t.lockTime), ("expiry", int32.encode t.expiry),
      ("inputs", (list decodedInput).encode t.inputs),
      ("outputs", (list decodedOutput).encode t.outputs)]
  decode d := do
    match fieldValues d with
    | [hash, kind, version, lockTime, expiry, inputs, outputs] =>
      return {
        hash := ← text.decode hash
        kind := ← text.decode kind
        version := ← int32.decode version
        lockTime := ← int32.decode lockTime
        expiry := ← int32.decode expiry
        inputs := ← (list decodedInput).decode inputs
        outputs := ← (list decodedOutput).decode outputs }
    | _ => none

end ChainSync.Wire.Codec
