/-!
# Decimal Digits

Numbers as runs of decimal digits: written with a least width, and read back.

## Main definitions

* `padded`: A number in at least a given number of digits.
* `isDigit`: The ten decimal digits, and no other script's.
* `placeValue`: What a digit counts for by its place.
* `readNat`: The number a run of digits names, leading zeros allowed.
-/

namespace ChainSync.Text

/-- A number in at least `width` decimal digits, zeros in front. -/
def padded (width n : Nat) : List Char :=
  let digits := Nat.toDigits 10 n
  List.replicate (width - digits.length) '0' ++ digits

/-- One of the ten digits `0` to `9`. -/
def isDigit (c : Char) : Bool := '0' ≤ c && c ≤ '9'

/-- The value of a decimal digit. -/
def digitValue (c : Char) : Nat := c.toNat - 48

/-- What a one counts for with so many digits behind it: `10 ^ places`. -/
def placeValue (places : Nat) : Nat := Nat.pow 10 places

/-- The number a run of digits names, most significant first. -/
def digitsValue (cs : List Char) : Nat :=
  cs.foldl (fun n c => 10 * n + digitValue c) 0

/-- Reads a non-empty run of digits; anything else is refused. -/
def readNat (cs : List Char) : Option Nat :=
  if cs.isEmpty || !cs.all isDigit then none else some (digitsValue cs)

/-- Reads an optional sign and a non-empty run of digits. -/
def readInt (cs : List Char) : Option Int :=
  match cs with
  | '-' :: rest => (readNat rest).map fun n => -(n : Int)
  | '+' :: rest => (readNat rest).map Int.ofNat
  | _ => (readNat cs).map Int.ofNat

end ChainSync.Text
