/-!
# Sync Errors

What can go wrong while a wallet syncs.

Every error belongs to a category and has a numeric code. Only three kinds
have a code of their own, because a caller treats them differently: being
cancelled, running out of time, and a bad peer address.

## Main definitions

* `SyncError`: The errors.
* `ErrorCode`: The codes.
* `SyncError.message`, `SyncError.kind`, `SyncError.code`, `SyncError.category`:
  What an error shows.
* `SyncError.isCancellation`: Whether the error is the end of an operation that
  was called off, and no fault.
-/

namespace ChainSync

/-- The code a caller acts on. -/
inductive ErrorCode where
  | unexpected
  | cancelled
  | deadlineExceeded
  | invalidAddress
deriving DecidableEq

/-- The number of a code. -/
def ErrorCode.value : ErrorCode → Int
  | unexpected => -1
  | cancelled => 1
  | deadlineExceeded => 2
  | invalidAddress => 3

/-- The text of a code. -/
def ErrorCode.text (c : ErrorCode) : String := toString c.value

/-- What can go wrong while a wallet syncs. -/
inductive SyncError where
  /-- A sync is under way already. -/
  | syncInProgress
  /-- A rescan is under way already. -/
  | rescanInProgress
  /-- A report that does not fit the state of the sync. -/
  | invalidState (detail : String)
  /-- The operation was called off. -/
  | cancelled (detail : String)
  /-- The operation ran out of time. -/
  | deadlineExceeded
  /-- A peer's address cannot be read. -/
  | invalidAddress (detail : String)
  | network (detail : String)
  | storage (detail : String)
  | validation (detail : String)
  | internal (detail : String)
deriving DecidableEq

namespace SyncError

/-- The message of an error. -/
def message : SyncError → String
  | syncInProgress => "Sync already in progress"
  | rescanInProgress => "Rescan already in progress"
  | invalidState detail => "Invalid sync state: " ++ detail
  | cancelled detail => "Operation cancelled: " ++ detail
  | deadlineExceeded => "Deadline exceeded"
  | invalidAddress detail => "Invalid address: " ++ detail
  | network detail => "Network error: " ++ detail
  | storage detail => "Storage error: " ++ detail
  | validation detail => "Validation error: " ++ detail
  | internal detail => "Internal error: " ++ detail

/-- The name of an error's kind. -/
def kind : SyncError → String
  | syncInProgress => "SyncInProgress"
  | rescanInProgress => "RescanInProgress"
  | invalidState _ => "InvalidState"
  | cancelled _ => "Cancelled"
  | deadlineExceeded => "DeadlineExceeded"
  | invalidAddress _ => "InvalidAddress"
  | network _ => "Network"
  | storage _ => "Storage"
  | validation _ => "Validation"
  | internal _ => "Internal"

/-- The error of a kind, with a detail if that kind has one. -/
def ofKind? (detail : String) : String → Option SyncError
  | "SyncInProgress" => some syncInProgress
  | "RescanInProgress" => some rescanInProgress
  | "InvalidState" => some (invalidState detail)
  | "Cancelled" => some (cancelled detail)
  | "DeadlineExceeded" => some deadlineExceeded
  | "InvalidAddress" => some (invalidAddress detail)
  | "Network" => some (network detail)
  | "Storage" => some (storage detail)
  | "Validation" => some (validation detail)
  | "Internal" => some (internal detail)
  | _ => none

/-- The code of an error. -/
def code : SyncError → ErrorCode
  | cancelled _ => .cancelled
  | deadlineExceeded => .deadlineExceeded
  | invalidAddress _ => .invalidAddress
  | _ => .unexpected

/-- The category of an error. -/
def category : SyncError → String
  | syncInProgress => "state"
  | rescanInProgress => "state"
  | invalidState _ => "state"
  | cancelled _ => "cancelled"
  | deadlineExceeded => "timeout"
  | invalidAddress _ => "address"
  | network _ => "network"
  | storage _ => "storage"
  | validation _ => "validation"
  | internal _ => "internal"

/-- Whether the operation was called off or ran out of time. -/
def isCancellation : SyncError → Bool
  | cancelled _ => true
  | deadlineExceeded => true
  | _ => false

end SyncError

end ChainSync
