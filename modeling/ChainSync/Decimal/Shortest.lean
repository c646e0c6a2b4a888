import ChainSync.Decimal.Binary64
import ChainSync.Text.Digits

/-!
# Shortest Decimal Text

The shortest decimal that reads back as a given binary64 value.

Every real between the midpoints to the two neighbouring values rounds to the
value itself, the midpoints included when the mantissa is even. Among the
decimals of that interval the ones on the coarsest grid `10 ^ k` have the
fewest digits; of the at most two of them next to the value the nearer one is
taken, and of two equally near the larger.

The text is positional: it never has an exponent, and a whole number has no
point.

## Main definitions

* `Interval`: The decimals that read back as a value, in exact terms.
* `shortestFrom`: The search for the coarsest grid that meets the interval.
* `Binary64.text`: The text of a value.
-/

namespace ChainSync.Decimal

open Text (placeValue)

/-- A decimal number `digits · 10 ^ exponent`. -/
structure Scientific where
  digits : Nat
  exponent : Int

/-- The reals that round to a value: between `low / den` and `high / den`,
    ends included when `closed`; the value itself is `mid / den`. -/
structure Interval where
  low : Nat
  mid : Nat
  high : Nat
  den : Nat
  closed : Bool

/-- The interval of the positive value `m · 2 ^ e`. Below a power of two the
    neighbour is only half as far away. -/
def Interval.ofValue (m : Nat) (e : Int) : Interval :=
  let down := if m = Binary64.leadingBit ∧ Binary64.minExponent < e then 1 else 2
  let up := 1 <<< e.toNat
  { low := (4 * m - down) * up
    mid := 4 * m * up
    high := (4 * m + 2) * up
    den := 4 <<< (-e).toNat
    closed := m % 2 = 0 }

/-- Whether `num / den` times `10 ^ k` lies in the interval. -/
def Interval.contains (i : Interval) (d : Nat) (k : Int) : Bool :=
  let point := d * placeValue k.toNat * i.den
  let unit := placeValue (-k).toNat
  if i.closed then i.low * unit ≤ point && point ≤ i.high * unit
  else i.low * unit < point && point < i.high * unit

/-- The decimal of grid `10 ^ k` nearest to the value, if one of the two next
    to it lies in the interval. -/
def Interval.onGrid (i : Interval) (k : Int) : Option Scientific :=
  let num := i.mid * placeValue (-k).toNat
  let den := i.den * placeValue k.toNat
  let below := num / den
  let above := below + 1
  let nearer := if 2 * (num % den) < den then below else above
  match i.contains below k, i.contains above k with
  | true, true => some ⟨nearer, k⟩
  | true, false => some ⟨below, k⟩
  | false, true => some ⟨above, k⟩
  | false, false => none

/-- Tries the grids `10 ^ k`, `10 ^ (k - 1)` and so on. -/
def shortestFrom (i : Interval) (k : Int) : Nat → Option Scientific
  | 0 => i.onGrid k
  | fuel + 1 =>
    match i.onGrid k with
    | some d => if d.digits = 0 then shortestFrom i (k - 1) fuel else some d
    | none => shortestFrom i (k - 1) fuel

/-- An exponent of ten that is no smaller than the value's own. -/
def topExponent (m : Nat) (e : Int) : Int :=
  let binary := (Nat.log2 m : Int) + e + 1
  if 0 ≤ binary then binary * 30103 / 100000 + 1 else binary * 30102 / 100000 + 1

/-- The shortest decimal that reads back as the positive value `m · 2 ^ e`. -/
def shortest (m : Nat) (e : Int) : Scientific :=
  -- Seventeen digits always suffice; the start is at most two places too high.
  (shortestFrom (Interval.ofValue m e) (topExponent m e) 20).getD ⟨0, 0⟩

/-- Drops the zeros at the end of a decimal's digits. -/
def Scientific.trim (d : Scientific) : Scientific :=
  go d (Nat.toDigits 10 d.digits).length
where
  /-- One zero at a time. -/
  go (d : Scientific) : Nat → Scientific
    | 0 => d
    | n + 1 =>
      if d.digits ≠ 0 ∧ d.digits % 10 = 0 then go ⟨d.digits / 10, d.exponent + 1⟩ n else d

/-- A decimal in positional form, without an exponent. -/
def Scientific.positional (d : Scientific) : List Char :=
  let digits := Nat.toDigits 10 d.digits
  if 0 ≤ d.exponent then digits ++ List.replicate d.exponent.toNat '0'
  else
    let places := (-d.exponent).toNat
    let padded := List.replicate (places + 1 - digits.length) '0' ++ digits
    padded.take (padded.length - places) ++ '.' :: padded.drop (padded.length - places)

end ChainSync.Decimal

namespace ChainSync

/-- The shortest positional text that reads back as the value. -/
def Binary64.text : Binary64 → String
  | .nan => "NaN"
  | .infinite negative => if negative then "-inf" else "inf"
  | .finite negative m e =>
    let body := if m = 0 then ['0'] else (Decimal.shortest m e).trim.positional
    String.ofList (if negative then '-' :: body else body)

end ChainSync
