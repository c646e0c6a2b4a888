import ChainSync.SyncError

/-!
# Cancellation Handles

The handle of an operation that can be called off.

A handle owns a token and keeps the first reason it was cancelled for. Its
clones share both; when the last clone is gone the operation is over and the
handle cancels itself.

## Main definitions

* `CancelReason`: Why an operation was called off.
* `Handle`: A handle with the number of its clones.
* `ShutdownSource`: What asked for a shutdown.
-/

namespace ChainSync

/-- Why an operation was called off. -/
inductive CancelReason where
  /-- The process shuts down. -/
  | shutdown
  /-- The token above was cancelled. -/
  | parentCancelled
  /-- Its time was up. -/
  | deadlineExceeded
  /-- Its handle was asked to. -/
  | requested
  /-- Its last handle is gone. -/
  | released
deriving DecidableEq

namespace CancelReason

/-- The name of a reason. -/
def name : CancelReason → String
  | shutdown => "Shutdown"
  | parentCancelled => "ParentCancelled"
  | deadlineExceeded => "DeadlineExceeded"
  | requested => "Requested"
  | released => "Released"

/-- The error an operation called off for a reason ends with. -/
def toError : CancelReason → SyncError
  | shutdown => .cancelled "shutdown requested"
  | parentCancelled => .cancelled "parent operation cancelled"
  | deadlineExceeded => .deadlineExceeded
  | requested => .cancelled "cancellation requested"
  | released => .cancelled "operation released"

end CancelReason

/-- A handle: its token, the first reason it was cancelled for, and how many
    clones are alive. -/
structure Handle where
  id : Nat
  token : Nat
  reason : Option CancelReason := none
  clones : Nat := 1
deriving DecidableEq

/-- Whether a clone is alive. -/
def Handle.isLive (h : Handle) : Bool := 0 < h.clones

/-- The error of the reason, if there is one. -/
def Handle.error (h : Handle) : Option SyncError := h.reason.map (·.toError)

/-- What asked for a shutdown. -/
inductive ShutdownSource where
  /-- A signal from outside. -/
  | signal (name : String)
  /-- A request of the program itself. -/
  | request
deriving DecidableEq

/-- A source as the journal shows it. -/
def ShutdownSource.text : ShutdownSource → String
  | signal name => "signal " ++ name
  | request => "request"

end ChainSync
