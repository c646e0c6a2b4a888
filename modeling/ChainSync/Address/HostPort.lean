/-!
# Host and Port

The grammar of peer addresses: `host:port`, and `[host]:port` for a host that
holds colons itself.

A plain host and a port are free of colons and brackets; a bracketed host is
free of brackets. Neither part is looked at beyond that, and both may be empty.
`split` takes an address apart and `join` puts it together, bracketing a host
exactly when it holds a colon.

## Main definitions

* `HostPort`: The two parts of an address.
* `Address.split`: An address taken apart, or why not.
* `Address.join`: An address put together.
-/

namespace ChainSync

/-- The two parts of an address. -/
structure HostPort where
  host : String
  port : String
deriving DecidableEq

namespace Address

/-- What is wrong with an address. -/
inductive Fault where
  /-- No port follows the host. -/
  | missingPort
  /-- A host holds a colon and is not bracketed. -/
  | tooManyColons
  /-- An opening bracket is not closed. -/
  | missingBracket
  /-- A bracket stands where none may. -/
  | unexpected (found : Char)
deriving DecidableEq

/-- A refused address and what is wrong with it. -/
structure Error where
  address : String
  fault : Fault
deriving DecidableEq

/-- The message of a fault. -/
def Fault.message : Fault → String
  | .missingPort => "missing port in address"
  | .tooManyColons => "too many colons in address"
  | .missingBracket => "missing ']' in address"
  | .unexpected found => "unexpected '" ++ String.singleton found ++ "' in address"

/-- The message of a refused address. -/
def Error.message (e : Error) : String :=
  "address " ++ e.address ++ ": " ++ e.fault.message

/-- What stands before and after the last occurrence of a character. -/
def splitAtLast (c : Char) : List Char → Option (List Char × List Char)
  | [] => none
  | x :: rest =>
    match splitAtLast c rest with
    | some (before, after) => some (x :: before, after)
    | none => if x = c then some ([], rest) else none

/-- What stands before and after the first occurrence of a character. -/
def splitAtFirst (c : Char) : List Char → Option (List Char × List Char)
  | [] => none
  | x :: rest =>
    if x = c then some ([], rest)
    else (splitAtFirst c rest).map fun (before, after) => (x :: before, after)

/-- Takes apart what follows an opening bracket. -/
def splitBracketed (rest : List Char) : Except Fault (List Char × List Char) :=
  match splitAtFirst ']' rest with
  | none => .error .missingBracket
  | some (_, []) => .error .missingPort
  | some (host, next :: port) =>
    if next ≠ ':' then .error .missingPort
    else if ':' ∈ port then .error .tooManyColons
    else if '[' ∈ host ∨ '[' ∈ port then .error (.unexpected '[')
    else if ']' ∈ port then .error (.unexpected ']')
    else .ok (host, port)

/-- Takes apart a host without a bracket in front, and the port behind the
    last colon. -/
def splitPlain (host port : List Char) : Except Fault (List Char × List Char) :=
  if ':' ∈ host then .error .tooManyColons
  else if '[' ∈ host ∨ '[' ∈ port then .error (.unexpected '[')
  else if ']' ∈ host ∨ ']' ∈ port then .error (.unexpected ']')
  else .ok (host, port)

/-- Takes apart the characters of an address. A missing colon is noticed
    before anything else. -/
def splitChars (cs : List Char) : Except Fault (List Char × List Char) :=
  match splitAtLast ':' cs with
  | none => .error .missingPort
  | some (host, port) =>
    match cs with
    | '[' :: rest => splitBracketed rest
    | _ => splitPlain host port

/-- The host and port of an address. -/
def split (address : String) : Except Error HostPort :=
  match splitChars address.toList with
  | .ok (host, port) => .ok ⟨String.ofList host, String.ofList port⟩
  | .error fault => .error ⟨address, fault⟩

/-- The address of a host and port; a host that holds a colon is bracketed. -/
def join (host port : String) : String :=
  if ':' ∈ host.toList then "[" ++ host ++ "]:" ++ port else host ++ ":" ++ port

end Address

end ChainSync
