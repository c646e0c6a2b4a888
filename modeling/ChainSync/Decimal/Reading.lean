import ChainSync.Decimal.Binary64
import ChainSync.Text.Digits

/-!
# Reading Decimal Text

The binary64 value a decimal text names, correctly rounded.

A text is an optional sign and then a word for an infinity or for no number,
in any mix of cases, or digits with at most one point among them and at most
one exponent behind them. At least one digit is needed, on either side of the
point. Blanks and digit separators are refused.

## Main definitions

* `Binary64.ofText?`: The value a text names.
-/

namespace ChainSync

namespace Decimal

/-- Lower case of the letters `A` to `Z`; everything else is kept. -/
def lowerAscii (c : Char) : Char :=
  if 'A' ≤ c && c ≤ 'Z' then Char.ofNat (c.toNat + 32) else c

/-- The value `digits · 10 ^ exponent`. Exponents so far out that the value
    is zero or infinite whatever its digits are cut off first. -/
def ofScientific (negative : Bool) (digits : List Char) (exponent : Int) : Binary64 :=
  let significant := digits.dropWhile (· = '0')
  let top := exponent + significant.length
  if significant.isEmpty then .finite negative 0 Binary64.minExponent
  else if 400 < top then .infinite negative
  else if top < -400 then .finite negative 0 Binary64.minExponent
  else
    Binary64.ofRatio negative (Text.digitsValue significant * Text.placeValue exponent.toNat)
      (Text.placeValue (-exponent).toNat)

/-- The exponent behind the digits: nothing, or `e` and a whole number. -/
def readExponent : List Char → Option Int
  | [] => some 0
  | c :: rest => if c = 'e' ∨ c = 'E' then Text.readInt rest else none

/-- Reads digits, a point, digits and an exponent. -/
def readUnsigned (negative : Bool) (cs : List Char) : Option Binary64 :=
  let whole := cs.takeWhile Text.isDigit
  let (places, rest) := match cs.dropWhile Text.isDigit with
    | '.' :: rest => (rest.takeWhile Text.isDigit, rest.dropWhile Text.isDigit)
    | rest => ([], rest)
  if whole.isEmpty && places.isEmpty then none
  else (readExponent rest).map fun e =>
    ofScientific negative (whole ++ places) (e - places.length)

/-- Reads a word or a number behind its sign. -/
def readMagnitude (negative : Bool) (cs : List Char) : Option Binary64 :=
  let word := cs.map lowerAscii
  if word = "inf".toList ∨ word = "infinity".toList then some (.infinite negative)
  else if word = "nan".toList then some .nan
  else readUnsigned negative cs

end Decimal

/-- The value a decimal text names, rounded to nearest. -/
def Binary64.ofText? (text : String) : Option Binary64 :=
  match text.toList with
  | '-' :: rest => Decimal.readMagnitude true rest
  | '+' :: rest => Decimal.readMagnitude false rest
  | cs => Decimal.readMagnitude false cs

end ChainSync
