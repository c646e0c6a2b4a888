import ChainSync.Wire.Print

/-!
# Codecs

A type of the library and its form on the wire, both ways.

A codec joins the format that reads a datum with the two conversions between
data and values. The conversion from data may assume that the datum has been
read by the format; on any other datum it gives nothing.

## Main definitions

* `Codec`: A format with its conversions.
* `Codec.read`: The value a text stands for.
* `Codec.write`: The text of a value, on one line.
* Codecs for integers, texts, lists and optional values.
-/

namespace ChainSync.Wire

/-- A type's form on the wire. -/
structure Codec (α : Type) where
  format : Format
  encode : α → Datum
  decode : Datum → Option α

namespace Codec

variable {α : Type}

/-- The value a text stands for. -/
def read (c : Codec α) (s : String) : Except Failure α := do
  match c.decode (← c.format.parse s) with
  | some a => return a
  | none => .error .mismatch

/-- The text of a value, on one line. -/
def write (c : Codec α) (a : α) : String := (c.encode a).compact

/-- A signed integer of 32 bits. -/
def int32 : Codec Int32 where
  format := .int32
  encode n := .int n.toInt
  decode
    | .int n => some (Int32.ofInt n)
    | _ => none

/-- A signed integer of 64 bits. -/
def int64 : Codec Int64 where
  format := .int64
  encode n := .int n.toInt
  decode
    | .int n => some (Int64.ofInt n)
    | _ => none

/-- An unsigned integer of 64 bits. -/
def uint64 : Codec UInt64 where
  format := .nat64
  encode n := .int n.toNat
  decode
    | .int n => some (UInt64.ofNat n.toNat)
    | _ => none

/-- A byte. -/
def uint8 : Codec UInt8 where
  format := .byte
  encode n := .int n.toNat
  decode
    | .int n => some (UInt8.ofNat n.toNat)
    | _ => none

/-- A truth value. -/
def bool : Codec Bool where
  format := .bool
  encode := .bool
  decode
    | .bool b => some b
    | _ => none

/-- A string. -/
def text : Codec String where
  format := .text
  encode := .text
  decode
    | .text s => some s
    | _ => none

/-- A list of values of one type. -/
def list (item : Codec α) : Codec (List α) where
  format := .list item.format
  encode as := .list (as.map item.encode)
  decode
    | .list ds => ds.mapM item.decode
    | _ => none

/-- A value that may be missing. -/
def optional (inner : Codec α) : Codec (Option α) where
  format := .optional inner.format
  encode
    | none => .null
    | some a => inner.encode a
  decode
    | .null => some none
    | d => (inner.decode d).map some

/-- The values of a record's fields. -/
def fieldValues : Datum → List Datum
  | .record fields => fields.map (·.2)
  | _ => []

end Codec

end ChainSync.Wire
