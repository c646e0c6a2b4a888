/-!
# Base 64 Text

Bytes in the standard base 64 alphabet with padding.

Three bytes become four symbols; a last group of one or two bytes becomes two
or three symbols and is filled up with `=`. Reading accepts exactly what
writing produces: the padding must be there, the unused bits of the last
symbol must be zero, and nothing may follow.

All groups but the last hold four symbols of the alphabet. The last group is
looked at symbol by symbol, since only it may hold padding. A text one symbol
too long is refused for that symbol first when it is not of the alphabet.

## Main definitions

* `encode`: Bytes to padded symbols.
* `decode`: Padded symbols to bytes.
* `Base64.Error`: Why a text is refused.
-/

namespace ChainSync.Base64

/-- Why a text is not base 64. -/
inductive Error where
  /-- A byte that may not stand where it does. -/
  | invalidSymbol (byte : UInt8) (offset : Nat)
  /-- A number of symbols that no group of bytes gives. -/
  | invalidLength (length : Nat)
  /-- The last symbol has bits that stand for nothing. -/
  | invalidLastSymbol (byte : UInt8) (offset : Nat)
  /-- The last group is not filled up. -/
  | invalidPadding
deriving DecidableEq

/-- The message shown for a refused text. -/
def Error.message : Error → String
  | .invalidSymbol byte offset =>
    "Invalid symbol " ++ toString byte.toNat ++ ", offset " ++ toString offset ++ "."
  | .invalidLength length => "Invalid input length: " ++ toString length
  | .invalidLastSymbol byte offset =>
    "Invalid last symbol " ++ toString byte.toNat ++ ", offset " ++ toString offset ++ "."
  | .invalidPadding => "Invalid padding"

/-- The symbol of a value below 64. -/
def symbol (n : Nat) : Char :=
  if n < 26 then Char.ofNat (65 + n)
  else if n < 52 then Char.ofNat (71 + n)
  else if n < 62 then Char.ofNat (n - 4)
  else if n = 62 then '+' else '/'

/-- The value of the symbol a byte stands for. -/
def symbolValue? (b : UInt8) : Option Nat :=
  let n := b.toNat
  if 65 ≤ n ∧ n < 91 then some (n - 65)
  else if 97 ≤ n ∧ n < 123 then some (n - 71)
  else if 48 ≤ n ∧ n < 58 then some (n + 4)
  else if n = 43 then some 62
  else if n = 47 then some 63
  else none

/-- The byte of the padding sign `=`. -/
def pad : UInt8 := 61

/-- The symbols of a list of bytes, three bytes at a time. -/
def symbols : List UInt8 → List Char
  | [] => []
  | [a] =>
    let n := a.toNat
    [symbol (n / 4), symbol (n % 4 * 16), '=', '=']
  | [a, b] =>
    let n := a.toNat * 256 + b.toNat
    [symbol (n / 1024), symbol (n / 16 % 64), symbol (n % 16 * 4), '=']
  | a :: b :: c :: rest =>
    let n := a.toNat * 65536 + b.toNat * 256 + c.toNat
    symbol (n / 262144) :: symbol (n / 4096 % 64) :: symbol (n / 64 % 64) :: symbol (n % 64)
      :: symbols rest

/-- Padded symbols of the standard alphabet. -/
def encode (bytes : List UInt8) : String := String.ofList (symbols bytes)

/-- What has been read of the last group: the symbol values so far, the last
    symbol, and how far into the group the padding began. -/
structure Tail where
  values : List Nat := []
  lastSymbol : UInt8 := 0
  padStart : Nat := 0
  pads : Nat := 0

/-- Reads the last group symbol by symbol; `index` counts within the group. -/
def readTail (offset index : Nat) (tail : Tail) : List UInt8 → Except Error Tail
  | [] => .ok tail
  | b :: rest =>
    if b = pad then
      if index < 2 then .error (.invalidSymbol b (offset + index))
      else
        let padStart := if tail.pads = 0 then index else tail.padStart
        readTail offset (index + 1) { tail with padStart, pads := tail.pads + 1 } rest
    else if tail.pads ≠ 0 then .error (.invalidSymbol pad (offset + tail.padStart))
    else match symbolValue? b with
      | none => .error (.invalidSymbol b (offset + index))
      | some v =>
        readTail offset (index + 1)
          { tail with values := tail.values ++ [v], lastSymbol := b } rest

/-- The bytes of the last group, which begins at `offset`. -/
def finishTail (offset : Nat) (tail : Tail) : Except Error (List UInt8) :=
  let count := tail.values.length
  if count < 2 then .error (.invalidLength (offset + count))
  else if (count + tail.pads) % 4 ≠ 0 then .error .invalidPadding
  else
    let lastSymbol := Error.invalidLastSymbol tail.lastSymbol (offset + count - 1)
    match tail.values with
    | [a, b] =>
      if b % 16 ≠ 0 then .error lastSymbol else .ok [UInt8.ofNat (a * 4 + b / 16)]
    | [a, b, c] =>
      if c % 4 ≠ 0 then .error lastSymbol
      else .ok [UInt8.ofNat (a * 4 + b / 16), UInt8.ofNat (b % 16 * 16 + c / 4)]
    | [a, b, c, d] =>
      .ok [UInt8.ofNat (a * 4 + b / 16), UInt8.ofNat (b % 16 * 16 + c / 4),
        UInt8.ofNat (c % 4 * 64 + d)]
    | _ => .error (.invalidLength (offset + count))

/-- Reads groups of four symbols and then the last group, at most four long. -/
def decodeGroups (offset : Nat) : List UInt8 → Except Error (List UInt8)
  | a :: b :: c :: d :: e :: rest =>
    match symbolValue? a, symbolValue? b, symbolValue? c, symbolValue? d with
    | none, _, _, _ => .error (.invalidSymbol a offset)
    | _, none, _, _ => .error (.invalidSymbol b (offset + 1))
    | _, _, none, _ => .error (.invalidSymbol c (offset + 2))
    | _, _, _, none => .error (.invalidSymbol d (offset + 3))
    | some p, some q, some r, some s =>
      (decodeGroups (offset + 4) (e :: rest)).map fun bytes =>
        UInt8.ofNat (p * 4 + q / 16) :: UInt8.ofNat (q % 16 * 16 + r / 4)
          :: UInt8.ofNat (r % 4 * 64 + s) :: bytes
  | tail => do finishTail offset (← readTail offset 0 {} tail)

/-- The bytes a padded base 64 text stands for. -/
def decode (text : String) : Except Error (List UInt8) :=
  let bytes := text.toUTF8.toList
  match bytes.getLast? with
  | none => .ok []
  | some last =>
    if bytes.length % 4 = 1 ∧ last ≠ pad ∧ symbolValue? last = none then
      .error (.invalidSymbol last (bytes.length - 1))
    else decodeGroups 0 bytes

end ChainSync.Base64
