import ChainSync.Address.HostPort
import ChainSync.Text.Offset

/-!
# Taking an Address Apart at Offsets

Addresses taken apart in place, without looking at one character after the
other.

The last colon and the first closing bracket are looked up, and everything else
is decided by comparing their offsets and by cutting the address there. Whether
a bracket stands where none may is asked of all that follows a certain offset.
When the closing bracket does not stand right in front of the last colon, the
byte behind it tells what is wrong.

## Main definitions

* `Address.partsAt`: The last steps, once the host is known.
* `Address.partsInBrackets`: A host in brackets.
* `Address.splitAtOffsets`: An address taken apart, or why not; nothing if an
  offset is beyond the end or inside a character.
-/

namespace ChainSync.Address

open Text

/-- Looks for opening brackets from one offset on and for closing ones from
    another, and takes the port from behind the last colon. -/
def partsAt (address host : String) (openFrom closeFrom lastColon : Nat) :
    Option (Except Error HostPort) := do
  let opening ← from? address openFrom
  if '[' ∈ opening.toList then return .error ⟨address, .unexpected '['⟩ else
  let closing ← from? address closeFrom
  if ']' ∈ closing.toList then return .error ⟨address, .unexpected ']'⟩ else
  let port ← from? address (lastColon + 1)
  return .ok ⟨host, port⟩

/-- Takes apart an address that begins with a bracket, from the offsets of its
    last colon and of its first closing bracket. -/
def partsInBrackets (address : String) (lastColon close : Nat) :
    Option (Except Error HostPort) :=
  if close + 1 = lastColon then do
    let host ← between? address 1 close
    partsAt address host 1 (close + 1) lastColon
  else if close + 1 = address.utf8ByteSize then some (.error ⟨address, .missingPort⟩)
  else do
    let next ← byte? address (close + 1)
    return .error ⟨address, if next = ':'.toUInt8 then .tooManyColons else .missingPort⟩

/-- The host and port of an address, cut out at offsets. -/
def splitAtOffsets (address : String) : Option (Except Error HostPort) :=
  match lastOffset ':' address.toList with
  | none => some (.error ⟨address, .missingPort⟩)
  | some lastColon =>
    if address.toList.head? = some '[' then
      match firstOffset ']' address.toList with
      | none => some (.error ⟨address, .missingBracket⟩)
      | some close => partsInBrackets address lastColon close
    else do
      let host ← upTo? address lastColon
      if ':' ∈ host.toList then return .error ⟨address, .tooManyColons⟩
      else partsAt address host 0 0 lastColon

end ChainSync.Address
