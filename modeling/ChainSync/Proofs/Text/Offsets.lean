import ChainSync.Text.Offset

/-!
# Cutting at Offsets

A text cut behind a part of it gives that part and the rest.

An offset that some part of the text takes up in front is at the edge of a
character, so cutting there always succeeds. A text has no two beginnings of
the same size, and so places in it may be compared by their offsets. The bytes
of the first 128 characters occur in no other character, and so a byte at the
edge of a character tells such a character from all others.

## Main definitions

* `size`: The bytes that characters take up.

## Theorems

* `from?_size`, `upTo?_size`, `between?_size`: Cutting between parts.
* `byte?_size`: The byte behind a part is the first one of a character.
* `head_utf8EncodeChar_iff`: A byte below 128 stands for its character only.
* `append_inj_of_size`: Equal offsets are equal places.
-/

namespace ChainSync.Text

theorem isValid_append (a b : String) :
    (String.Pos.Raw.mk a.utf8ByteSize).IsValid (a ++ b) :=
  String.Pos.Raw.isValid_iff_exists_append.mpr ⟨a, b, rfl, rfl⟩

theorem splits_append (a b : String) :
    String.Pos.Splits (s := a ++ b) ⟨⟨a.utf8ByteSize⟩, isValid_append a b⟩ a b := ⟨rfl, rfl⟩

theorem from?_append (a b : String) : from? (a ++ b) a.utf8ByteSize = some b := by
  rw [from?, dif_pos (isValid_append a b), (splits_append a b).copy_sliceFrom_eq]

theorem upTo?_append (a b : String) : upTo? (a ++ b) a.utf8ByteSize = some a := by
  rw [upTo?, dif_pos (isValid_append a b), (splits_append a b).copy_sliceTo_eq]

theorem byte?_eq (s : String) (n : Nat) : byte? s n = s.toByteArray.data.toList[n]? := by
  simp only [byte?, getElem?_def, ByteArray.getElem_eq_getElem_data, Array.getElem_toList,
    Array.length_toList]
  rfl

/-- The byte behind a part of a text is the first one of the next character. -/
theorem byte?_append (a b : String) (c : Char) :
    byte? (a ++ (String.singleton c ++ b)) a.utf8ByteSize = (String.utf8EncodeChar c).head? := by
  have hsize : a.toByteArray.data.toList.length = a.utf8ByteSize := rfl
  have hbytes : (a ++ (String.singleton c ++ b)).toByteArray.data.toList =
      a.toByteArray.data.toList ++ (String.utf8EncodeChar c ++ b.toByteArray.data.toList) := by
    simp only [String.toByteArray_append, String.toByteArray_singleton, List.utf8Encode_singleton,
      ByteArray.data_append, Array.toList_append, List.data_toByteArray]
  rw [byte?_eq, hbytes, ← hsize, List.getElem?_append_right (Nat.le_refl _), Nat.sub_self,
    ← List.head?_eq_getElem?, List.head?_append]
  cases h : String.utf8EncodeChar c with
  | nil => exact absurd h String.utf8EncodeChar_ne_nil
  | cons x rest => rfl

/-- A byte below 128 comes first in one character only. -/
theorem head_utf8EncodeChar (c : Char) : ∃ x, (String.utf8EncodeChar c).head? = some x ∧
    (x.toNat = c.toNat ∨ 128 ≤ x.toNat ∧ 128 ≤ c.toNat) := by
  have hval : c.val.toNat = c.toNat := rfl
  unfold String.utf8EncodeChar
  simp only [hval]
  split
  -- One byte holds the character itself; of several the first is a mark above 191.
  · refine ⟨_, rfl, .inl ?_⟩
    rw [UInt8.toNat_ofNat']
    omega
  · have hc : 128 ≤ c.toNat := by omega
    split
    · refine ⟨_, rfl, .inr ⟨?_, hc⟩⟩
      rw [UInt8.toNat_ofNat']
      omega
    · split
      · refine ⟨_, rfl, .inr ⟨?_, hc⟩⟩
        rw [UInt8.toNat_ofNat']
        omega
      · refine ⟨_, rfl, .inr ⟨?_, hc⟩⟩
        rw [UInt8.toNat_ofNat']
        omega

theorem head_utf8EncodeChar_iff {c d : Char} (hd : d.toNat < 128) :
    (String.utf8EncodeChar c).head? = some d.toUInt8 ↔ c = d := by
  have hbyte : d.toUInt8.toNat = d.toNat := Nat.mod_eq_of_lt (Nat.lt_trans hd (by decide))
  rcases head_utf8EncodeChar c with ⟨x, hx, hcases⟩
  rw [hx, Option.some.injEq]
  constructor
  · rintro rfl
    rw [← Char.toNat_inj]
    omega
  · rintro rfl
    apply UInt8.toNat.inj
    omega

/-! ## Characters -/

/-- The number of bytes that characters take up. -/
def size (cs : List Char) : Nat := (String.ofList cs).utf8ByteSize

theorem utf8ByteSize_ofList (cs : List Char) : (String.ofList cs).utf8ByteSize = size cs := rfl

theorem size_append (a b : List Char) : size (a ++ b) = size a + size b := by
  rw [size, String.ofList_append, String.utf8ByteSize_append]
  rfl

theorem size_singleton (c : Char) : size [c] = c.utf8Size := by
  rw [size, ← String.singleton_eq_ofList, String.utf8ByteSize_singleton]

theorem size_cons (c : Char) (cs : List Char) : size (c :: cs) = c.utf8Size + size cs := by
  rw [← size_singleton, ← size_append, List.singleton_append]

/-- A character of one byte moves what follows it by one. -/
theorem size_concat {c : Char} (hc : c.utf8Size = 1) (cs : List Char) :
    size (cs ++ [c]) = size cs + 1 := by
  rw [size_append, size_singleton, hc]

theorem from?_size (a b : List Char) :
    from? (String.ofList (a ++ b)) (size a) = some (String.ofList b) := by
  rw [String.ofList_append, size, from?_append]

theorem upTo?_size (a b : List Char) :
    upTo? (String.ofList (a ++ b)) (size a) = some (String.ofList a) := by
  rw [String.ofList_append, size, upTo?_append]

theorem between?_size (a m b : List Char) :
    between? (String.ofList (a ++ m ++ b)) (size a) (size (a ++ m)) = some (String.ofList m) := by
  rw [between?, upTo?_size, Option.bind_some, from?_size]

theorem byte?_size (a b : List Char) (c : Char) :
    byte? (String.ofList (a ++ c :: b)) (size a) = (String.utf8EncodeChar c).head? := by
  rw [List.append_cons, List.append_assoc, String.ofList_append, String.ofList_append,
    ← String.singleton_eq_ofList, size, byte?_append]

/-- A text has one beginning of each size. -/
theorem append_inj_of_size {a b a' b' : List Char} (h : a ++ b = a' ++ b')
    (hsize : size a = size a') : a = a' ∧ b = b' := by
  have hupTo := upTo?_size a b
  rw [h, hsize, upTo?_size, Option.some.injEq, String.ofList_inj] at hupTo
  subst hupTo
  exact ⟨rfl, List.append_cancel_left h⟩

end ChainSync.Text
