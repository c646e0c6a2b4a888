import ChainSync.Text.Quoted

/-!
# Hexadecimal Text

Bytes as pairs of hexadecimal digits.

Writing uses lower case; reading takes either case. The length is looked at
before any digit, so a text of odd length is refused for its length even when
it also holds a character that is no digit. A bad character is reported by the
position of its first byte in the UTF-8 form of the text.

## Main definitions

* `encode`: Bytes to lower case digits.
* `decode`: Digits of either case to bytes.
* `Hex.Error`: Why a text is refused.
-/

namespace ChainSync.Hex

/-- Why a text is not hexadecimal. -/
inductive Error where
  /-- The number of digits is odd. -/
  | oddLength
  /-- A byte of the text is no digit. -/
  | invalidDigit (byte : UInt8) (position : Nat)
deriving DecidableEq

/-- The message shown for a refused text. -/
def Error.message : Error → String
  | .oddLength => "Odd number of digits"
  | .invalidDigit byte position =>
    "Invalid character " ++ Text.quoteChar (Char.ofNat byte.toNat) ++ " at position "
      ++ toString position

/-- The digit of a value below sixteen. -/
def digit (n : Nat) : Char :=
  if n < 10 then Char.ofNat (48 + n) else Char.ofNat (87 + n)

/-- The value of the digit a byte stands for, in either case. -/
def digitValue? (b : UInt8) : Option Nat :=
  let n := b.toNat
  if 48 ≤ n ∧ n < 58 then some (n - 48)
  else if 97 ≤ n ∧ n < 103 then some (n - 87)
  else if 65 ≤ n ∧ n < 71 then some (n - 55)
  else none

/-- The two digits of a byte, high half first. -/
def digitPair (b : UInt8) : List Char :=
  [digit (b.toNat / 16), digit (b.toNat % 16)]

/-- Two lower case digits for each byte. -/
def encode (bytes : List UInt8) : String :=
  String.ofList (bytes.flatMap digitPair)

/-- Reads pairs of digits, the first of them standing at `position`. -/
def decodePairs (position : Nat) : List UInt8 → Except Error (List UInt8)
  | high :: low :: rest =>
    match digitValue? high, digitValue? low with
    | none, _ => .error (.invalidDigit high position)
    | some _, none => .error (.invalidDigit low (position + 1))
    | some h, some l =>
      (decodePairs (position + 2) rest).map (UInt8.ofNat (16 * h + l) :: ·)
  | _ => .ok []

/-- The bytes a text of hexadecimal digits stands for. -/
def decode (text : String) : Except Error (List UInt8) :=
  let bytes := text.toUTF8.toList
  if bytes.length % 2 = 1 then .error .oddLength else decodePairs 0 bytes

end ChainSync.Hex
