/-!
# Offsets

Places in a text, counted in bytes.

A text is stored in one to four bytes for each character, and an offset counts
the bytes in front of a place. Cutting a text at an offset that lies beyond its
end or inside a character is a fault of whoever does it, so the cuts here give
nothing at such an offset, and so does looking up a byte that is not there.

## Main definitions

* `firstOffset`, `lastOffset`: Where a character stands.
* `from?`, `upTo?`, `between?`: What stands on one side of an offset, and
  between two.
* `byte?`: The byte at an offset.
-/

namespace ChainSync.Text

/-- The offset of the first occurrence of a character. -/
def firstOffset (c : Char) : List Char → Option Nat
  | [] => none
  | x :: rest => if x = c then some 0 else (firstOffset c rest).map (x.utf8Size + ·)

/-- The offset of the last occurrence of a character. -/
def lastOffset (c : Char) : List Char → Option Nat
  | [] => none
  | x :: rest =>
    match lastOffset c rest with
    | some n => some (x.utf8Size + n)
    | none => if x = c then some 0 else none

/-- What stands from an offset on. -/
def from? (s : String) (n : Nat) : Option String :=
  if h : (String.Pos.Raw.mk n).IsValid s then some (s.sliceFrom ⟨⟨n⟩, h⟩).copy else none

/-- What stands in front of an offset. -/
def upTo? (s : String) (n : Nat) : Option String :=
  if h : (String.Pos.Raw.mk n).IsValid s then some (s.sliceTo ⟨⟨n⟩, h⟩).copy else none

/-- What stands between two offsets. -/
def between? (s : String) (start stop : Nat) : Option String :=
  (upTo? s stop).bind (from? · start)

/-- The byte at an offset. -/
def byte? (s : String) (n : Nat) : Option UInt8 := s.toByteArray[n]?

end ChainSync.Text
