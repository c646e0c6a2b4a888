/-!
# Binary64 Values

Floating point values of 64 bits, held exactly.

A finite value is a sign, a whole mantissa and a power of two, so that every
statement about it is one about whole numbers. `ofRatio` rounds an exact
fraction to the nearest value, a tie going to the even mantissa; multiplying
or dividing values is doing it exactly and rounding once.

## Main definitions

* `Binary64`: A value, finite or not.
* `ofBits`, `toBits`: The layout of the 64 bits.
* `ofRatio`: The value nearest to a fraction.
* `roundHalfAway`, `round`: The nearest whole number, a half going away from zero.
* `order?`: The order of values.
* `toInt64`: The whole part of a value in 64 bits.
-/

namespace ChainSync

/-- A binary64 value; `finite s m e` is `m · 2 ^ e`, negated when `s` holds. -/
inductive Binary64 where
  /-- No number. -/
  | nan
  /-- An infinity. -/
  | infinite (negative : Bool)
  /-- A number. -/
  | finite (negative : Bool) (mantissa : Nat) (exponent : Int)
deriving DecidableEq

namespace Binary64

/-- The exponent of the smallest positive value. -/
def minExponent : Int := -1074

/-- The largest exponent of a finite value. -/
def maxExponent : Int := 971

/-- The leading bit of a mantissa, which is not among the fraction bits. -/
def leadingBit : Nat := 1 <<< 52

/-- The value of a sign bit, eleven exponent bits and 52 fraction bits. -/
def ofBits (bits : UInt64) : Binary64 :=
  let n : Nat := bits.toNat
  let negative := n >>> 63 == 1
  let biased : Nat := (n >>> 52) % 2048
  let fraction : Nat := n % leadingBit
  if biased = 2047 then
    if fraction = 0 then .infinite negative else .nan
  else if biased = 0 then .finite negative fraction minExponent
  else .finite negative (leadingBit + fraction) ((biased : Int) - 1075)

/-- The bits of a value whose mantissa is below `2 ^ 53`, and at least `2 ^ 52`
    unless the exponent is the smallest. -/
def toBits : Binary64 → UInt64
  | .nan => UInt64.ofNat (2047 <<< 52 + 1 <<< 51)
  | .infinite negative => UInt64.ofNat (sign negative + 2047 <<< 52)
  | .finite negative m e =>
    if m < leadingBit then UInt64.ofNat (sign negative + m)
    else UInt64.ofNat (sign negative + (e + 1075).toNat <<< 52 + (m - leadingBit))
where
  /-- The sign bit. -/
  sign (negative : Bool) : Nat := if negative then 1 <<< 63 else 0

/-- The whole number nearest to `num / den`, a tie going to the even one. -/
def roundHalfEven (num den : Nat) : Nat :=
  let q := num / den
  let r := num % den
  if 2 * r < den then q
  else if den < 2 * r then q + 1
  else if q % 2 = 0 then q else q + 1

/-- The exponent of the last place of the value nearest to `num / den`. -/
def placeExponent (num den : Nat) : Int :=
  let top : Int := (Nat.log2 num : Int) - Nat.log2 den
  -- `num / den` lies strictly between `2 ^ (top - 1)` and `2 ^ (top + 1)`.
  let leading := if num <<< (-top).toNat < den <<< top.toNat then top - 1 else top
  max (leading - 52) minExponent

/-- The value nearest to `num / den` for a positive `den`, a tie going to the
    even mantissa and anything past the largest value to infinity. -/
def ofRatio (negative : Bool) (num den : Nat) : Binary64 :=
  if num = 0 then .finite negative 0 minExponent
  else
    let e := placeExponent num den
    let m := roundHalfEven (num <<< (-e).toNat) (den <<< e.toNat)
    let (m, e) := if m = 2 * leadingBit then (leadingBit, e + 1) else (m, e)
    if maxExponent < e then .infinite negative else .finite negative m e

/-- The value nearest to a whole number. -/
def ofInt (n : Int) : Binary64 := ofRatio (n < 0) n.natAbs 1

/-- A finite value times a positive whole number, rounded once. -/
def scale (k : Nat) : Binary64 → Binary64
  | .finite negative m e => ofRatio negative ((m * k) <<< e.toNat) (1 <<< (-e).toNat)
  | x => x

/-- A finite value divided by a positive whole number, rounded once. -/
def shrink (k : Nat) : Binary64 → Binary64
  | .finite negative m e => ofRatio negative (m <<< e.toNat) (k <<< (-e).toNat)
  | x => x

/-- A whole number with a sign in front. -/
def signed (negative : Bool) (n : Nat) : Int := if negative then -(n : Int) else n

/-- The whole number nearest to `m · 2 ^ e`, a half going up. -/
def roundHalfUp (m : Nat) (e : Int) : Nat :=
  let unit := 1 <<< (-e).toNat
  (2 * m <<< e.toNat + unit) / (2 * unit)

/-- The whole number nearest to a finite value, a half going away from zero. -/
def roundHalfAway : Binary64 → Option Int
  | .finite negative m e => some (signed negative (roundHalfUp m e))
  | _ => none

/-- The value of the whole number nearest to a value, a half going away from zero. -/
def round : Binary64 → Binary64
  | .finite negative m e => ofRatio negative (roundHalfUp m e) 1
  | x => x

/-- Whether a value is a number and not an infinity. -/
def isFinite : Binary64 → Bool
  | .finite .. => true
  | _ => false

/-- The order of two values; what is no number stands in no order to anything. -/
def order? : Binary64 → Binary64 → Option Ordering
  | .nan, _ => none
  | _, .nan => none
  | .finite a m e, .finite b n k =>
    some (compare (signed a (m <<< (e - k).toNat)) (signed b (n <<< (k - e).toNat)))
  | x, y => some (compare (side x) (side y))
where
  /-- On which side of the finite values a value lies. -/
  side : Binary64 → Int
    | .infinite negative => signed negative 1
    | _ => 0

/-- Whether a value is below another one. -/
def lt (x y : Binary64) : Bool := x.order? y = some .lt

/-- Whether a value is not below another one. -/
def ge (x y : Binary64) : Bool := x.order? y = some .gt || x.order? y = some .eq

/-- The whole part of a value in 64 bits, cut off at both ends; what is no number gives zero. -/
def toInt64 : Binary64 → Int64
  | .nan => 0
  | .infinite negative => if negative then Int64.minValue else Int64.maxValue
  | .finite negative m e => Int64.ofIntClamp (signed negative (m <<< e.toNat >>> (-e).toNat))

end Binary64

end ChainSync
