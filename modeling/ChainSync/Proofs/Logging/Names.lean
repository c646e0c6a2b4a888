import ChainSync.Logging.Archive
import ChainSync.Proofs.Calendar.Order

/-!
# Names of Archives

What can be read off the name of an archive.

The name is made of a stamp and a number, and both are found in it again: a stamp has no
point in it, so the first point after it begins the number. The name is therefore the
only one of its second and number.

## Theorems

* `Archive.key_nameOf`: Stamp and number are found again.
* `Archive.key_nameOf_stampText`: The same for the names of log files.
-/

namespace ChainSync

namespace Archive

/-- The number behind the second, as it is written. -/
def numberChars (number : Nat) : List Char :=
  if number = 0 then [] else '.' :: Nat.toDigits 10 number

theorem toList_nameOf (stamp : String) (number : Nat) :
    (nameOf stamp number).toList =
      head.toList ++ (stamp.toList ++ numberChars number ++ tail.toList) := by
  unfold nameOf numberChars
  split
  · simp
  · simp [Nat.toString_eq_repr, Nat.toList_repr]

theorem isArchive_nameOf (stamp : String) (number : Nat) :
    isArchive (nameOf stamp number) = true := by
  simp only [isArchive, toList_nameOf, Bool.and_eq_true, List.isPrefixOf_iff_prefix,
    List.isSuffixOf_iff_suffix]
  refine ⟨List.prefix_append _ _, ?_⟩
  rw [← List.append_assoc]
  exact List.suffix_append _ _

theorem isArchive_activeName : isArchive activeName = false := by decide

theorem withoutTail?_append (cs : List Char) : withoutTail? (cs ++ tail.toList) = some cs := by
  have hsuffix : tail.toList.isSuffixOf (cs ++ tail.toList) = true :=
    List.isSuffixOf_iff_suffix.mpr (List.suffix_append _ _)
  rw [withoutTail?, if_pos hsuffix, List.length_append, String.length_toList,
    Nat.add_sub_cancel, List.take_left]

theorem stem_nameOf (stamp : String) (number : Nat) :
    stem (nameOf stamp number) = stamp.toList ++ numberChars number := by
  have hprefix : head.toList.isPrefixOf (nameOf stamp number).toList = true := by
    rw [toList_nameOf]
    exact List.isPrefixOf_iff_prefix.mpr (List.prefix_append _ _)
  have hdrop : (nameOf stamp number).toList.drop head.length =
      stamp.toList ++ numberChars number ++ tail.toList := by
    rw [toList_nameOf, ← String.length_toList, List.drop_left]
  simp only [stem, hprefix, if_true, hdrop, withoutTail?_append, Option.getD_some]

theorem readNumber_toDigits {number : Nat} (h : number < UInt32.size) :
    readNumber (Nat.toDigits 10 number) = some number := by
  have hplus : (Nat.toDigits 10 number).head? ≠ some '+' := fun hhead =>
    absurd (Nat.isDigit_of_mem_toDigits (by decide) (by decide) (List.mem_of_mem_head? hhead))
      (by decide)
  simp [readNumber, hplus, Text.readNat_toDigits, h]

/-- The stamp and the number of a name are those it was made of. -/
theorem key_nameOf {stamp : String} {number : Nat} (hstamp : '.' ∉ stamp.toList)
    (hnumber : number < UInt32.size) : key (nameOf stamp number) = (stamp, number) := by
  have hbefore : ∀ c ∈ stamp.toList, decide (c ≠ '.') = true := fun c hc =>
    decide_eq_true fun h => hstamp (h ▸ hc)
  simp only [key, stem_nameOf, List.takeWhile_append_of_pos hbefore,
    List.dropWhile_append_of_pos hbefore]
  unfold numberChars
  split
  · next hzero => simp [hzero, readNumber, Text.readNat]
  · simp [readNumber_toDigits hnumber]

theorem lt_of_le_lastNumber {number : Nat} (h : number ≤ lastNumber) : number < UInt32.size :=
  Nat.lt_of_le_of_lt h (by decide)

theorem key_nameOf_stampText (t : Int) {number : Nat} (h : number ≤ lastNumber) :
    key (nameOf (stampText t) number) = (stampText t, number) :=
  key_nameOf (point_not_mem_stampText t) (lt_of_le_lastNumber h)

end Archive

end ChainSync
