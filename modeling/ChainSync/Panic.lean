/-!
# Panics

What is left of a callback that broke off.

A callback that panics is stopped where it stands. Its payload may be a text;
any other payload is shown as an unknown panic.

## Main definitions

* `Panic`: The payload.
* `Panic.message`: What is shown of it.
-/

namespace ChainSync

/-- The payload of a panic. -/
inductive Panic where
  | text (s : String)
  | opaqueValue
deriving DecidableEq

/-- What is shown of a payload. -/
def Panic.message : Panic → String
  | text s => s
  | opaqueValue => "unknown panic"

end ChainSync
