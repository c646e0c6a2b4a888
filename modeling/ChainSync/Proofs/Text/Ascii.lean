import ChainSync.Proofs.Text.Offsets
import Mathlib.Data.List.Basic

/-!
# Bytes of Texts

The bytes that a text is made of, as a list.

A reader that works on bytes says nothing about characters by itself. It does if it only
accepts bytes below 128: a character that is not among the first 128 begins with a
greater one, so every character of an accepted text is its only byte.

## Theorems

* `Text.toList_toUTF8`: The bytes of a text are those of its characters.
* `Text.toUTF8_inj`: Texts with the same bytes are the same.
* `Text.toNat_ofNat`, `Text.toNat_toLower`, `Text.toNat_toUInt8`: Characters as numbers.
* `Text.toUTF8_of_ascii`, `Text.ascii_of_toUTF8`: Texts of the first 128 characters.
-/

namespace ChainSync.Text

theorem toList_loop (bytes : ByteArray) (n : Nat) (read : List UInt8) :
    ByteArray.toList.loop bytes n read = read.reverse ++ bytes.data.toList.drop n := by
  fun_induction ByteArray.toList.loop bytes n read with
  | case1 n read h ih =>
      have hlength : n < bytes.data.toList.length := h
      rw [ih, List.drop_eq_getElem_cons hlength, List.reverse_cons, List.append_assoc,
        List.singleton_append]
      congr 2
      exact getElem!_pos bytes.data n h
  | case2 n read h =>
      have hlength : bytes.data.toList.length ≤ n := Nat.le_of_not_lt h
      rw [List.drop_eq_nil_of_le hlength, List.append_nil]

theorem toList_bytes (bytes : ByteArray) : bytes.toList = bytes.data.toList := by
  unfold ByteArray.toList
  rw [toList_loop, List.reverse_nil, List.nil_append, List.drop_zero]

theorem toList_toUTF8 (t : String) : t.toUTF8.toList = t.toList.flatMap String.utf8EncodeChar := by
  rw [toList_bytes, ← String.ofList_toList (s := t), String.toUTF8_eq_toByteArray,
    String.toByteArray_ofList, String.toList_ofList]
  unfold List.utf8Encode
  rw [List.data_toByteArray]

theorem toUTF8_inj {t u : String} : t.toUTF8.toList = u.toUTF8.toList ↔ t = u := by
  rw [toList_bytes, toList_bytes, Array.toList_inj, ← ByteArray.ext_iff,
    String.toUTF8_eq_toByteArray, String.toUTF8_eq_toByteArray, String.toByteArray_inj]

/-! ## The first characters -/

theorem toNat_ofNat {n : Nat} (hn : n < 128) : (Char.ofNat n).toNat = n := by
  have hvalid : n.isValidChar := .inl (by omega)
  unfold Char.ofNat
  rw [dif_pos hvalid]
  rfl

theorem toNat_toLower (c : Char) :
    c.toLower.toNat = if 65 ≤ c.toNat ∧ c.toNat ≤ 90 then c.toNat + 32 else c.toNat := by
  by_cases h : 65 ≤ c.toNat ∧ c.toNat ≤ 90
  · have hupper : c.val ≥ 'A'.val ∧ c.val ≤ 'Z'.val := h
    have hsum := UInt32.toNat_add c.val ('a'.val - 'A'.val)
    rw [if_pos h]
    unfold Char.toLower
    rw [dif_pos hupper]
    change (c.val + ('a'.val - 'A'.val)).toNat = c.toNat + 32
    rw [hsum]
    exact Nat.mod_eq_of_lt (show c.toNat + 32 < 2 ^ 32 by omega)
  · have hother : ¬(c.val ≥ 'A'.val ∧ c.val ≤ 'Z'.val) := h
    rw [if_neg h]
    unfold Char.toLower
    rw [dif_neg hother]

theorem toNat_toUInt8 {c : Char} (hc : c.toNat < 128) : c.toUInt8.toNat = c.toNat :=
  Nat.mod_eq_of_lt (Nat.lt_trans hc (by decide))

theorem utf8EncodeChar_of_lt {c : Char} (hc : c.toNat < 128) :
    String.utf8EncodeChar c = [c.toUInt8] := by
  refine String.utf8EncodeChar_eq_singleton (Char.utf8Size_eq_one_iff.mpr ?_)
  exact UInt32.le_iff_toNat_le.mpr (Nat.le_of_lt_succ hc)

theorem toUTF8_of_ascii {t : String} (h : ∀ c ∈ t.toList, c.toNat < 128) :
    t.toUTF8.toList = t.toList.map Char.toUInt8 := by
  rw [toList_toUTF8, List.map_eq_flatMap]
  exact List.flatMap_congr fun c hc => utf8EncodeChar_of_lt (h c hc)

/-- A text of bytes below 128 is one of characters below 128. -/
theorem ascii_of_toUTF8 {t : String} (h : ∀ b ∈ t.toUTF8.toList, b.toNat < 128) :
    ∀ c ∈ t.toList, c.toNat < 128 := by
  intro c hc
  rcases head_utf8EncodeChar c with ⟨b, hb, hcases⟩
  have hmem : b ∈ t.toUTF8.toList := by
    rw [toList_toUTF8]
    exact List.mem_flatMap.mpr ⟨c, hc, List.mem_of_mem_head? hb⟩
  have hlt := h b hmem
  omega

end ChainSync.Text
