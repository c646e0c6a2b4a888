import ChainSync.Text.Digits

/-!
# Scanning JSON

The pieces of a JSON text: blanks, words, strings, numbers, and whole values
that are only passed over.

A reader takes what it needs from the front of the text and gives back the
rest, or says what kind of failure stopped it. A text that just ends too early
is told apart from one that is malformed, and both from one that is well
formed but not of the wanted kind.

A value that is passed over is looked at less closely than one that is read:
its string escapes need not name characters, its numbers may be of any size,
and a number cut short is malformed even at the end of the text.

## Main definitions

* `Failure`: Why reading stops.
* `readString`: The characters of a string.
* `readInteger`: The value of a number that is written as an integer.
* `skipValue`: The rest behind a value of any kind.
-/

namespace ChainSync.Wire

/-- Why reading stops. -/
inductive Failure where
  /-- The text is well formed so far but not of the wanted kind. -/
  | mismatch
  /-- The text is not JSON. -/
  | malformed
  /-- The text ends too early. -/
  | truncated
deriving DecidableEq

/-- Takes a value from the front of a text. -/
abbrev Reader (α : Type) := List Char → Except Failure (α × List Char)

/-- The double quote. -/
def quote : Char := Char.ofNat 34

/-- The character that starts an escape. -/
def escape : Char := Char.ofNat 92

/-- Blanks between the pieces of a text. -/
def isBlank (c : Char) : Bool := c = ' ' || c = '\n' || c = '\t' || c = '\r'

/-- The text behind leading blanks. -/
def skipBlanks (cs : List Char) : List Char := cs.dropWhile isBlank

/-- Passes over characters that must be there, such as the rest of a word. -/
def expect : List Char → List Char → Except Failure (List Char)
  | [], cs => .ok cs
  | _ :: _, [] => .error .truncated
  | e :: es, c :: cs => if c = e then expect es cs else .error .malformed

/-! ## Strings -/

/-- The value of a hexadecimal digit. -/
def hexValue? (c : Char) : Option Nat :=
  if '0' ≤ c ∧ c ≤ '9' then some (c.toNat - 48)
  else if 'a' ≤ c ∧ c ≤ 'f' then some (c.toNat - 87)
  else if 'A' ≤ c ∧ c ≤ 'F' then some (c.toNat - 55)
  else none

/-- Whether at least four bytes of UTF-8 are left. -/
def hasFourBytes (cs : List Char) : Bool :=
  4 ≤ (cs.take 4).foldl (fun n c => n + c.utf8Size) 0

/-- The number four hexadecimal digits name. -/
def readHex4 : Reader Nat
  | a :: b :: c :: d :: rest =>
    match hexValue? a, hexValue? b, hexValue? c, hexValue? d with
    | some a, some b, some c, some d => .ok (((a * 16 + b) * 16 + c) * 16 + d, rest)
    | _, _, _, _ => .error .malformed
  | cs => .error (if hasFourBytes cs then .malformed else .truncated)

/-- The character a one-letter escape stands for. -/
def simpleEscape? (c : Char) : Option Char :=
  if c = quote ∨ c = escape ∨ c = '/' then some c
  else if c = 'b' then some (Char.ofNat 8)
  else if c = 'f' then some (Char.ofNat 12)
  else if c = 'n' then some '\n'
  else if c = 'r' then some '\r'
  else if c = 't' then some '\t'
  else none

/-- The second half of a surrogate pair, whose first half is `high`. -/
def readLowSurrogate (high : Nat) (cs : List Char) : Except Failure (Char × List Char) := do
  match cs with
  | [] => .error .truncated
  | c :: cs =>
    if c ≠ escape then .error .malformed
    else match cs with
      | [] => .error .truncated
      | c :: cs =>
        if c ≠ 'u' then .error .malformed
        else
          let (low, rest) ← readHex4 cs
          if 0xdc00 ≤ low ∧ low ≤ 0xdfff then
            return (Char.ofNat ((high - 0xd800) * 1024 + (low - 0xdc00) + 0x10000), rest)
          else .error .malformed

/-- The character an escape by number stands for. -/
def readUnicodeEscape (cs : List Char) : Except Failure (Char × List Char) := do
  let (n, rest) ← readHex4 cs
  if 0xdc00 ≤ n ∧ n ≤ 0xdfff then .error .malformed
  else if 0xd800 ≤ n ∧ n ≤ 0xdbff then readLowSurrogate n rest
  else return (Char.ofNat n, rest)

/-- The character behind an escape sign. -/
def readEscape : Reader Char
  | [] => .error .truncated
  | c :: rest =>
    if c = 'u' then readUnicodeEscape rest
    else match simpleEscape? c with
      | some d => .ok (d, rest)
      | none => .error .malformed

/-- Passes over what stands behind an escape sign. -/
def skipEscape : List Char → Except Failure (List Char)
  | [] => .error .truncated
  | c :: rest =>
    if c = 'u' then (readHex4 rest).map (·.2)
    else if (simpleEscape? c).isSome then .ok rest
    else .error .malformed

/-- The characters up to the closing quote. Every step takes a character, so
    as many steps as there are characters are enough. -/
def readChars : Nat → Reader (List Char)
  | 0, _ => .error .truncated
  | _ + 1, [] => .error .truncated
  | steps + 1, c :: rest =>
    if c = quote then .ok ([], rest)
    else if c = escape then do
      let (d, rest) ← readEscape rest
      let (ds, rest) ← readChars steps rest
      return (d :: ds, rest)
    else if c.toNat < 32 then .error .malformed
    else do
      let (ds, rest) ← readChars steps rest
      return (c :: ds, rest)

/-- The text of a string whose opening quote has been taken. -/
def readString : Reader String := fun cs => do
  let (ds, rest) ← readChars cs.length cs
  return (String.ofList ds, rest)

/-- Passes over the characters up to the closing quote. -/
def skipChars : Nat → List Char → Except Failure (List Char)
  | 0, _ => .error .truncated
  | _ + 1, [] => .error .truncated
  | steps + 1, c :: rest =>
    if c = quote then .ok rest
    else if c = escape then do skipChars steps (← skipEscape rest)
    else if c.toNat < 32 then .error .malformed
    else skipChars steps rest

/-! ## Numbers -/

/-- A number as written, without its sign. -/
structure Number where
  whole : List Char
  /-- The digits behind the point, if there is one. -/
  places : Option (List Char)
  /-- Whether the exponent is negative, and its digits, if there is one. -/
  exponent : Option (Bool × List Char)

/-- One digit or more; `atEnd` tells how an end of the text counts. -/
def scanDigits (atEnd : Failure) (cs : List Char) : Except Failure (List Char × List Char) :=
  match cs.takeWhile Text.isDigit, cs.dropWhile Text.isDigit with
  | [], [] => .error atEnd
  | [], _ => .error .malformed
  | digits, rest => .ok (digits, rest)

/-- The digits in front of a point; only a number below one starts with zero. -/
def scanWhole (atEnd : Failure) (cs : List Char) : Except Failure (List Char × List Char) := do
  let (digits, rest) ← scanDigits atEnd cs
  if digits.head? = some '0' ∧ digits.length ≠ 1 then .error .malformed
  else return (digits, rest)

/-- The digits behind a point, if one stands there. -/
def scanPlaces (atEnd : Failure) (cs : List Char) :
    Except Failure (Option (List Char) × List Char) := do
  match cs with
  | '.' :: rest =>
    let (digits, rest) ← scanDigits atEnd rest
    return (some digits, rest)
  | _ => return (none, cs)

/-- An exponent with its sign, if one stands there. -/
def scanExponent (atEnd : Failure) (cs : List Char) :
    Except Failure (Option (Bool × List Char) × List Char) := do
  match cs with
  | c :: rest =>
    if c = 'e' ∨ c = 'E' then
      let (negative, rest) := match rest with
        | '+' :: rest => (false, rest)
        | '-' :: rest => (true, rest)
        | rest => (false, rest)
      let (digits, rest) ← scanDigits atEnd rest
      return (some (negative, digits), rest)
    else return (none, cs)
  | [] => return (none, cs)

/-- A number behind its sign. -/
def scanNumber (atEnd : Failure) (cs : List Char) : Except Failure (Number × List Char) := do
  let (whole, rest) ← scanWhole atEnd cs
  let (places, rest) ← scanPlaces atEnd rest
  let (exponent, rest) ← scanExponent atEnd rest
  return ({ whole, places, exponent }, rest)

/-- As many leading digits as fit into 64 bits, and how many were left over. -/
def significand (start : Nat) : List Char → Nat × Nat
  | [] => (start, 0)
  | c :: rest =>
    let next := 10 * start + Text.digitValue c
    if UInt64.size ≤ next then (start, rest.length + 1) else significand next rest

/-- The digits that count, and the power of ten they are multiplied by. -/
def Number.scientific (n : Number) : Nat × Int :=
  let (whole, cut) := significand 0 n.whole
  let places := n.places.getD []
  let (all, unused) := significand whole places
  let shift : Int := match n.exponent with
    | none => 0
    | some (true, digits) => -(Text.digitsValue digits : Int)
    | some (false, digits) => Text.digitsValue digits
  (all, (cut : Int) - (places.length - unused : Nat) + shift)

/-- Whether the number is beyond every binary64 value. -/
def Number.isOutOfRange (n : Number) : Bool :=
  let (digits, power) := n.scientific
  digits ≠ 0 && 0 < power
    && (308 < power || (Float.ofNat digits * Float.ofScientific 1 false power.toNat).isInf)

/-- The value of a number written as an integer, which `-0` is not. -/
def Number.integer? (n : Number) (negative : Bool) : Option Int :=
  if n.places.isNone && n.exponent.isNone then
    let value := Text.digitsValue n.whole
    if negative then (if value = 0 then none else some (-(value : Int))) else some value
  else none

/-- Reads a number behind its sign; one that is no integer has no value. -/
def readInteger (negative : Bool) : Reader (Option Int) := fun cs => do
  let (n, rest) ← scanNumber .truncated cs
  if n.isOutOfRange then .error .malformed else return (n.integer? negative, rest)

/-! ## Values passed over -/

mutual

/-- The rest behind a value of any kind. Every step takes a character. -/
def skipValueIn : Nat → List Char → Except Failure (List Char)
  | 0, _ => .error .truncated
  | steps + 1, cs =>
    match skipBlanks cs with
    | [] => .error .truncated
    | c :: rest =>
      if c = 'n' then expect ['u', 'l', 'l'] rest
      else if c = 't' then expect ['r', 'u', 'e'] rest
      else if c = 'f' then expect ['a', 'l', 's', 'e'] rest
      else if c = quote then skipChars rest.length rest
      else if c = '-' then (scanNumber .malformed rest).map (·.2)
      else if Text.isDigit c then (scanNumber .malformed (c :: rest)).map (·.2)
      else if c = '[' then
        match skipBlanks rest with
        | ']' :: rest => .ok rest
        | [] => .error .truncated
        | rest => do skipItemsIn steps (← skipValueIn steps rest)
      else if c = '\x7b' then
        match skipBlanks rest with
        | '\x7d' :: rest => .ok rest
        | [] => .error .truncated
        | rest => skipEntryIn steps rest
      else .error .malformed

/-- The rest behind the further items of a list. -/
def skipItemsIn : Nat → List Char → Except Failure (List Char)
  | 0, _ => .error .truncated
  | steps + 1, cs =>
    match skipBlanks cs with
    | ']' :: rest => .ok rest
    | ',' :: rest => do skipItemsIn steps (← skipValueIn steps rest)
    | [] => .error .truncated
    | _ => .error .malformed

/-- The rest behind an entry of an object and all that follow it. -/
def skipEntryIn : Nat → List Char → Except Failure (List Char)
  | 0, _ => .error .truncated
  | steps + 1, cs =>
    match skipBlanks cs with
    | [] => .error .truncated
    | c :: rest =>
      if c ≠ quote then .error .malformed
      else do
        let rest ← skipChars rest.length rest
        match skipBlanks rest with
        | ':' :: rest =>
          let rest ← skipValueIn steps rest
          match skipBlanks rest with
          | '\x7d' :: rest => return rest
          | ',' :: rest => skipEntryIn steps rest
          | [] => .error .truncated
          | _ => .error .malformed
        | [] => .error .truncated
        | _ => .error .malformed

end

/-- The rest behind a value of any kind. -/
def skipValue (cs : List Char) : Except Failure (List Char) := skipValueIn (cs.length + 1) cs

end ChainSync.Wire
