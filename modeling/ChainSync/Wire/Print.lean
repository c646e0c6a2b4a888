import ChainSync.Wire.Format

/-!
# Printing Wire Data

JSON text of data: on one line without blanks, or indented.

Only what must be escaped in a string is escaped, short forms first; every
other character stands for itself.

## Main definitions

* `escapeChars`: The characters a string is written as.
* `Datum.compact`: A value on one line.
* `Datum.pretty`: A value with one field or item to a line.
-/

namespace ChainSync.Wire

/-- The characters one character of a string is written as. -/
def escapeOne (c : Char) : List Char :=
  if c = quote ∨ c = escape then [escape, c]
  else if c = '\n' then [escape, 'n']
  else if c = '\r' then [escape, 'r']
  else if c = '\t' then [escape, 't']
  else if c.toNat = 8 then [escape, 'b']
  else if c.toNat = 12 then [escape, 'f']
  else if c.toNat < 32 then
    [escape, 'u', '0', '0', Nat.digitChar (c.toNat / 16), Nat.digitChar (c.toNat % 16)]
  else [c]

/-- The characters of a string between its quotes. -/
def escapeChars (cs : List Char) : List Char := cs.flatMap escapeOne

/-- A string with its quotes. -/
def quoted (s : String) : List Char := quote :: escapeChars s.toList ++ [quote]

/-- The digits of an integer, with a sign if it is negative. -/
def intChars (n : Int) : List Char :=
  if n < 0 then '-' :: Nat.toDigits 10 n.natAbs else Nat.toDigits 10 n.natAbs

mutual

/-- A value on one line, without blanks. -/
def Datum.compactChars : Datum → List Char
  | .null => ['n', 'u', 'l', 'l']
  | .bool true => ['t', 'r', 'u', 'e']
  | .bool false => ['f', 'a', 'l', 's', 'e']
  | .int n => intChars n
  | .text s => quoted s
  | .list [] => ['[', ']']
  | .list (d :: ds) => '[' :: d.compactChars ++ compactItems ds ++ [']']
  | .record [] => ['\x7b', '\x7d']
  | .record ((name, d) :: fields) =>
    '\x7b' :: quoted name ++ ':' :: d.compactChars ++ compactFields fields ++ ['\x7d']

/-- The further items of a list, a comma before each. -/
def compactItems : List Datum → List Char
  | [] => []
  | d :: ds => ',' :: d.compactChars ++ compactItems ds

/-- The further fields of a record, a comma before each. -/
def compactFields : List (String × Datum) → List Char
  | [] => []
  | (name, d) :: fields => ',' :: quoted name ++ ':' :: d.compactChars ++ compactFields fields

end

/-- A value on one line. -/
def Datum.compact (d : Datum) : String := String.ofList d.compactChars

/-- A line break and the indentation of a depth. -/
def lineBreak (depth : Nat) : List Char := '\n' :: List.replicate (2 * depth) ' '

mutual

/-- A value with one field or item to a line, two blanks for each depth. -/
def Datum.prettyChars (depth : Nat) : Datum → List Char
  | .null => ['n', 'u', 'l', 'l']
  | .bool true => ['t', 'r', 'u', 'e']
  | .bool false => ['f', 'a', 'l', 's', 'e']
  | .int n => intChars n
  | .text s => quoted s
  | .list [] => ['[', ']']
  | .list (d :: ds) =>
    '[' :: lineBreak (depth + 1) ++ d.prettyChars (depth + 1) ++ prettyItems (depth + 1) ds
      ++ lineBreak depth ++ [']']
  | .record [] => ['\x7b', '\x7d']
  | .record ((name, d) :: fields) =>
    '\x7b' :: lineBreak (depth + 1) ++ quoted name ++ ':' :: ' ' :: d.prettyChars (depth + 1)
      ++ prettyFields (depth + 1) fields ++ lineBreak depth ++ ['\x7d']

/-- The further items of a list, each on a line of its own. -/
def prettyItems (depth : Nat) : List Datum → List Char
  | [] => []
  | d :: ds => ',' :: lineBreak depth ++ d.prettyChars depth ++ prettyItems depth ds

/-- The further fields of a record, each on a line of its own. -/
def prettyFields (depth : Nat) : List (String × Datum) → List Char
  | [] => []
  | (name, d) :: fields =>
    ',' :: lineBreak depth ++ quoted name ++ ':' :: ' ' :: d.prettyChars depth
      ++ prettyFields depth fields

end

/-- A value with one field or item to a line. -/
def Datum.pretty (d : Datum) : String := String.ofList (d.prettyChars 0)

end ChainSync.Wire
