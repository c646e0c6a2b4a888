import ChainSync.Text.Digits

/-!
# IPv6 Literals

The texts that name an IPv6 address.

An address is eight groups of one to four hexadecimal digits with colons
between. One run of groups may be left out and is then written `::`; the last
two groups may be written as an IPv4 address in dotted form, whose four
numbers are at most 255 and have no leading zero. A dotted part that does not
read well is tried as a group instead.

## Main definitions

* `readGroups`: As many groups as fit, and whether the last two were dotted.
* `isIpv6`: Whether a text is an IPv6 literal.
-/

namespace ChainSync.Address

/-- A hexadecimal digit. -/
def isHexDigit (c : Char) : Bool :=
  Text.isDigit c || ('a' ≤ c && c ≤ 'f') || ('A' ≤ c && c ≤ 'F')

/-- Reads one to four hexadecimal digits, all that are there. -/
def readGroup (cs : List Char) : Option (List Char) :=
  let digits := cs.takeWhile isHexDigit
  if digits.isEmpty || 4 < digits.length then none else some (cs.dropWhile isHexDigit)

/-- Reads a number up to 255 without a leading zero. -/
def readOctet (cs : List Char) : Option (List Char) :=
  let digits := cs.takeWhile Text.isDigit
  let leadingZero := digits.head? == some '0' && 1 < digits.length
  if digits.isEmpty || 3 < digits.length || leadingZero || 255 < Text.digitsValue digits then none
  else some (cs.dropWhile Text.isDigit)

/-- Reads one character that must be there. -/
def readChar (c : Char) : List Char → Option (List Char)
  | x :: rest => if x = c then some rest else none
  | [] => none

/-- Reads four numbers with dots between. -/
def readDotted (cs : List Char) : Option (List Char) := do
  let cs ← readOctet cs
  let cs ← readOctet (← readChar '.' cs)
  let cs ← readOctet (← readChar '.' cs)
  readOctet (← readChar '.' cs)

/-- What has been read of a run of groups. -/
structure Groups where
  count : Nat
  dotted : Bool
  rest : List Char

/-- Reads up to `room` further groups, of which `count` have been read. A
    dotted part needs room for two. -/
def readGroups (count : Nat) (cs : List Char) : Nat → Groups
  | 0 => ⟨count, false, cs⟩
  | room + 1 =>
    let start := if count = 0 then some cs else readChar ':' cs
    match (if 1 ≤ room then start.bind readDotted else none) with
    | some rest => ⟨count + 2, true, rest⟩
    | none =>
      match start.bind readGroup with
      | some rest => readGroups (count + 1) rest room
      | none => ⟨count, false, cs⟩

/-- Whether the whole text is one IPv6 address. -/
def isIpv6 (cs : List Char) : Bool :=
  let front := readGroups 0 cs 8
  if front.count = 8 then front.rest.isEmpty
  else if front.dotted then false
  else match front.rest with
    | ':' :: ':' :: rest => (readGroups 0 rest (7 - front.count)).rest.isEmpty
    | _ => false

end ChainSync.Address
