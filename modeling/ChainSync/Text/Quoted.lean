/-!
# Quoted Characters

The quoted form of a single character, as it appears inside a message.

A message that points at an unexpected byte shows the Latin-1 character of
that byte between single quotes. Characters with a short escape use it, other
characters that leave no mark on paper are written by number, and everything
else stands for itself.

## Main definitions

* `isLatin1Printable`: The Latin-1 characters that leave a mark.
* `quoteMark`: The single quote.
* `escapeChar`: The characters a quoted character is written as.
* `quoteChar`: The quoted form, quotes included.
-/

namespace ChainSync.Text

/-- A character below 256 that leaves a mark: the controls, the no-break space
    and the soft hyphen do not. -/
def isLatin1Printable (c : Char) : Bool :=
  let n := c.toNat
  (0x20 ≤ n && n < 0x7f) || (0xa1 ≤ n && n ≤ 0xff && n != 0xad)

/-- The single quote. -/
def quoteMark : Char := Char.ofNat 39

/-- The character that starts an escape. -/
def escapeMark : Char := Char.ofNat 92

/-- The characters a quoted character is written as. -/
def escapeChar (c : Char) : List Char :=
  if c = '\x00' then [escapeMark, '0']
  else if c = '\t' then [escapeMark, 't']
  else if c = '\n' then [escapeMark, 'n']
  else if c = '\r' then [escapeMark, 'r']
  else if c = quoteMark ∨ c = escapeMark then [escapeMark, c]
  else if isLatin1Printable c then [c]
  else [escapeMark, 'u', '\x7b'] ++ Nat.toDigits 16 c.toNat ++ ['\x7d']

/-- The quoted form of a character below 256. -/
def quoteChar (c : Char) : String :=
  String.ofList (quoteMark :: escapeChar c ++ [quoteMark])

end ChainSync.Text
