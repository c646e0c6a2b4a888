import ChainSync.Wire.Scan

/-!
# Wire Formats

How the kinds of data on the wire are read from JSON.

A format reads one value. The formats for the basic kinds combine into formats
for lists and records. A record is an object that has every field once, in any
order, or a list of all field values in the order of declaration. Fields it
does not know are passed over; a field that may be absent counts as `null`.

Reading goes from left to right and stops at the first thing that is wrong. A
value of another kind is a mismatch as soon as its first piece has been read.

## Main definitions

* `Datum`: A value as it stands on the wire.
* `Format`: A reader for one kind of value.
* `Format.int`, `Format.bool`, `Format.text`, `Format.optional`,
  `Format.list`, `Format.choice`, `Format.record`: The kinds.
* `Format.parse`: Reads a whole text.
-/

namespace ChainSync.Wire

/-- A value as it stands on the wire; a record keeps the order of its fields. -/
inductive Datum where
  | null
  | bool (b : Bool)
  | int (n : Int)
  | text (s : String)
  | list (items : List Datum)
  | record (fields : List (String × Datum))

/-- A reader for one kind of value. -/
structure Format where
  read : Reader Datum
  /-- Whether a record may leave the value out. -/
  mayBeAbsent : Bool := false

namespace Format

/-- The failure of a value that is not of the wanted kind. Its first piece is
    read all the same, and may be the first thing that is wrong. -/
def wrongKind (cs : List Char) : Failure :=
  match cs with
  | [] => .truncated
  | c :: rest =>
    let failure {α : Type} : Except Failure α → Failure
      | .ok _ => .mismatch
      | .error e => e
    if c = 'n' then failure (expect ['u', 'l', 'l'] rest)
    else if c = 't' then failure (expect ['r', 'u', 'e'] rest)
    else if c = 'f' then failure (expect ['a', 'l', 's', 'e'] rest)
    else if c = '-' then failure (readInteger true rest)
    else if Text.isDigit c then failure (readInteger false cs)
    else if c = quote then failure (readString rest)
    else if c = '[' ∨ c = '\x7b' then .mismatch
    else .malformed

/-- An integer between two bounds. -/
def int (low high : Int) : Format where
  read cs := do
    let inRange : Option Int × List Char → Except Failure (Datum × List Char)
      | (some n, rest) => if low ≤ n ∧ n ≤ high then .ok (.int n, rest) else .error .mismatch
      | (none, _) => .error .mismatch
    match skipBlanks cs with
    | '-' :: rest => inRange (← readInteger true rest)
    | cs =>
      if (cs.head?.map Text.isDigit).getD false then inRange (← readInteger false cs)
      else .error (wrongKind cs)

/-- A signed integer of 32 bits. -/
def int32 : Format := int Int32.minValue.toInt Int32.maxValue.toInt

/-- A signed integer of 64 bits. -/
def int64 : Format := int Int64.minValue.toInt Int64.maxValue.toInt

/-- A byte. -/
def byte : Format := int 0 255

/-- An unsigned integer of 64 bits. -/
def nat64 : Format := int 0 (UInt64.size - 1)

/-- A truth value. -/
def bool : Format where
  read cs := do
    match skipBlanks cs with
    | 't' :: rest => return (.bool true, ← expect ['r', 'u', 'e'] rest)
    | 'f' :: rest => return (.bool false, ← expect ['a', 'l', 's', 'e'] rest)
    | cs => .error (wrongKind cs)

/-- A string. -/
def text : Format where
  read cs := do
    match skipBlanks cs with
    | [] => .error .truncated
    | c :: rest =>
      if c = quote then
        let (s, rest) ← readString rest
        return (.text s, rest)
      else .error (wrongKind (c :: rest))

/-- A value that may be `null`. -/
def optional (inner : Format) : Format where
  read cs := do
    match skipBlanks cs with
    | 'n' :: rest => return (.null, ← expect ['u', 'l', 'l'] rest)
    | cs => inner.read cs
  mayBeAbsent := true

/-- The next item of a list, if there is one. The first item has no comma in
    front. -/
def readItem (item : Reader Datum) (first : Bool) (cs : List Char) :
    Except Failure (Option Datum × List Char) := do
  let value (cs : List Char) : Except Failure (Option Datum × List Char) := do
    let (d, rest) ← item cs
    return (some d, rest)
  match skipBlanks cs with
  | [] => .error .truncated
  | ']' :: rest => return (none, ']' :: rest)
  | c :: rest =>
    if first then value (c :: rest)
    else if c ≠ ',' then .error .malformed
    else match skipBlanks rest with
      | [] => .error .truncated
      | ']' :: _ => .error .malformed
      | rest => value rest

/-- Passes over the end of a list. -/
def readListEnd (cs : List Char) : Except Failure (List Char) :=
  match skipBlanks cs with
  | ']' :: rest => .ok rest
  | [] => .error .truncated
  | _ => .error .malformed

/-- All items of a list. Every item takes a character. -/
def readItems (item : Reader Datum) : Nat → Bool → Reader (List Datum)
  | 0, _, _ => .error .truncated
  | steps + 1, first, cs => do
    match ← readItem item first cs with
    | (none, rest) => return ([], rest)
    | (some d, rest) =>
      let (ds, rest) ← readItems item steps false rest
      return (d :: ds, rest)

/-- A list of values of one kind. -/
def list (item : Format) : Format where
  read cs := do
    match skipBlanks cs with
    | '[' :: rest =>
      let (ds, rest) ← readItems item.read (rest.length + 1) true rest
      return (.list ds, ← readListEnd rest)
    | cs => .error (wrongKind cs)

/-- A string of bytes, as a list of numbers. -/
def bytes : Format := list byte

/-- One of several names: a string, or an object that gives the name `null`. -/
def choice (names : List String) : Format where
  read cs := do
    let known (s : String) : Except Failure Unit :=
      if s ∈ names then .ok () else .error .mismatch
    match skipBlanks cs with
    | [] => .error .truncated
    | '\x7b' :: rest =>
      match ← text.read rest with
      | (.text s, rest) =>
        known s
        match skipBlanks rest with
        | ':' :: rest =>
          match skipBlanks rest with
          | 'n' :: rest =>
            let rest ← expect ['u', 'l', 'l'] rest
            match skipBlanks rest with
            | '\x7d' :: rest => return (.text s, rest)
            | [] => .error .truncated
            | _ => .error .malformed
          | cs => .error (wrongKind cs)
        | [] => .error .truncated
        | _ => .error .malformed
      | _ => .error .mismatch
    | c :: rest =>
      if c = quote then
        let (s, rest) ← readString rest
        known s
        return (.text s, rest)
      else .error .malformed

/-- The name of the next field of an object, if there is one, and the text
    behind it. -/
def readKey (first : Bool) (cs : List Char) : Except Failure (Option String × List Char) := do
  let key (cs : List Char) : Except Failure (Option String × List Char) := do
    match cs with
    | [] => .error .truncated
    | c :: rest =>
      if c = quote then
        let (s, rest) ← readString rest
        return (some s, rest)
      else .error .malformed
  match skipBlanks cs with
  | [] => .error .truncated
  | '\x7d' :: rest => return (none, rest)
  | c :: rest =>
    if first then key (c :: rest)
    else if c = ',' then key (skipBlanks rest)
    else .error .malformed

/-- Passes over the colon behind a field's name. -/
def readColon (cs : List Char) : Except Failure (List Char) :=
  match skipBlanks cs with
  | ':' :: rest => .ok rest
  | [] => .error .truncated
  | _ => .error .malformed

/-- The fields of an object, as many as are known, in the order they stand in.
    A field that comes twice is a mismatch as soon as its name has been read. -/
def readEntries (fields : List (String × Format)) :
    Nat → Bool → List (String × Datum) → Reader (List (String × Datum))
  | 0, _, _, _ => .error .truncated
  | steps + 1, first, found, cs => do
    match ← readKey first cs with
    | (none, rest) => return (found, rest)
    | (some name, rest) =>
      match fields.lookup name with
      | none =>
        let rest ← skipValue (← readColon rest)
        readEntries fields steps false found rest
      | some format =>
        if (found.lookup name).isSome then .error .mismatch
        else
          let (d, rest) ← format.read (← readColon rest)
          readEntries fields steps false (found ++ [(name, d)]) rest

/-- The values of all fields in the order of declaration. -/
def arrange (found : List (String × Datum)) :
    List (String × Format) → Except Failure (List (String × Datum))
  | [] => .ok []
  | (name, format) :: rest =>
    match found.lookup name with
    | some d => return (name, d) :: (← arrange found rest)
    | none =>
      if format.mayBeAbsent then return (name, .null) :: (← arrange found rest)
      else .error .mismatch

/-- The values of all fields from a list that holds them in order. -/
def readInOrder : List (String × Format) → Bool → Reader (List (String × Datum))
  | [], _, cs => .ok ([], cs)
  | (name, format) :: rest, first, cs => do
    match ← readItem format.read first cs with
    | (none, _) => .error .mismatch
    | (some d, cs) =>
      let (ds, cs) ← readInOrder rest false cs
      return ((name, d) :: ds, cs)

/-- A record with the given fields. -/
def record (fields : List (String × Format)) : Format where
  read cs := do
    match skipBlanks cs with
    | '\x7b' :: rest =>
      let (found, rest) ← readEntries fields (rest.length + 1) true [] rest
      return (.record (← arrange found fields), rest)
    | '[' :: rest =>
      let (ds, rest) ← readInOrder fields true rest
      return (.record ds, ← readListEnd rest)
    | cs => .error (wrongKind cs)

/-- Reads a whole text; only blanks may follow the value. -/
def parse (format : Format) (s : String) : Except Failure Datum := do
  let (d, rest) ← format.read s.toList
  if (skipBlanks rest).isEmpty then return d else .error .malformed

end Format

end ChainSync.Wire
