import ChainSync.Text.Digits

/-!
# Digits in Order

Numbers of a fixed width are ordered as texts like the numbers.

Texts are compared character by character, and one that is the beginning of another
comes first. Of two runs of digits it is therefore the first difference that counts,
which is the order of the numbers only if the runs are equally long. That is what the
zeros in front are for.

## Theorems

* `Text.append_lt_append_iff`: Texts whose beginnings are equally long.
* `Text.padded_succ`: The last digit of a number.
* `Text.padded_lt_padded`, `Text.padded_append_lt`: Numbers of a fixed width are in
  order, and so are texts that begin with them.
* `Text.readNat_toDigits`: Digits name the number they were written for.
-/

namespace ChainSync.Text

/-- The beginnings decide, unless they are the same. -/
theorem append_lt_append_iff {a b c d : List Char} (h : a.length = b.length) :
    a ++ c < b ++ d ↔ a < b ∨ a = b ∧ c < d := by
  induction a generalizing b with
  | nil =>
      have hb : b = [] := List.eq_nil_of_length_eq_zero h.symm
      simp [hb]
  | cons x a ih =>
      cases b with
      | nil => exact absurd h (by simp)
      | cons y b =>
          have hlen : a.length = b.length := Nat.succ.inj h
          simp only [List.cons_append, List.cons_lt_cons_iff, ih hlen, List.cons.injEq]
          constructor
          · rintro (hxy | ⟨rfl, hab | ⟨rfl, hcd⟩⟩)
            · exact .inl (.inl hxy)
            · exact .inl (.inr ⟨rfl, hab⟩)
            · exact .inr ⟨⟨rfl, rfl⟩, hcd⟩
          · rintro ((hxy | ⟨rfl, hab⟩) | ⟨⟨rfl, rfl⟩, hcd⟩)
            · exact .inl hxy
            · exact .inr ⟨rfl, .inl hab⟩
            · exact .inr ⟨rfl, .inr ⟨rfl, hcd⟩⟩

/-! ## Fixed widths -/

theorem length_padded {width n : Nat} (hwidth : 0 < width) (h : n < placeValue width) :
    (padded width n).length = width := by
  have hle : (Nat.toDigits 10 n).length ≤ width :=
    (Nat.length_toDigits_le_iff (by decide) hwidth).mpr h
  simp only [padded, List.length_append, List.length_replicate]
  omega

theorem padded_one {n : Nat} (h : n < 10) : padded 1 n = [n.digitChar] := by
  simp [padded, Nat.toDigits_of_lt_base h]

/-- The last digit comes off the end. -/
theorem padded_succ {width : Nat} (hwidth : 0 < width) (n : Nat) :
    padded (width + 1) n = padded width (n / 10) ++ [(n % 10).digitChar] := by
  by_cases hn : n < 10
  · have hzero : n / 10 = 0 := by omega
    have hself : n % 10 = n := by omega
    have hpad : List.replicate width '0' = List.replicate (width - 1) '0' ++ ['0'] := by
      rw [← List.replicate_succ']
      congr 1
      omega
    simp only [padded, hzero, hself, Nat.toDigits_of_lt_base hn, List.length_singleton]
    exact congrArg (· ++ [n.digitChar]) hpad
  · simp only [padded, Nat.toDigits_of_base_le (by decide) (Nat.le_of_not_lt hn),
      List.length_append, List.length_singleton, Nat.add_sub_add_right, List.append_assoc]

theorem digitChar_lt {m n : Nat} (hn : n < 10) (h : m < n) : m.digitChar < n.digitChar := by
  have hm := Nat.toNat_digitChar_of_lt_ten (Nat.lt_trans h hn)
  have hn := Nat.toNat_digitChar_of_lt_ten hn
  change m.digitChar.toNat < n.digitChar.toNat
  omega

/-- Numbers of a fixed width are in order, by induction on the width. -/
theorem padded_lt_padded {width m n : Nat} (hwidth : 0 < width) (hn : n < placeValue width)
    (h : m < n) : padded width m < padded width n := by
  induction width generalizing m n with
  | zero => exact absurd hwidth (by decide)
  | succ width ih =>
      rcases Nat.eq_zero_or_pos width with rfl | hpos
      · rw [padded_one (Nat.lt_trans h hn), padded_one hn, List.cons_lt_cons_iff]
        exact .inl (digitChar_lt hn h)
      have hplace : placeValue (width + 1) = placeValue width * 10 := rfl
      have hn' : n / 10 < placeValue width := by omega
      have hm' : m / 10 < placeValue width := by omega
      have hlen : (padded width (m / 10)).length = (padded width (n / 10)).length :=
        (length_padded hpos hm').trans (length_padded hpos hn').symm
      rw [padded_succ hpos, padded_succ hpos, append_lt_append_iff hlen]
      by_cases hlt : m / 10 < n / 10
      · exact .inl (ih hpos hn' hlt)
      · have heq : m / 10 = n / 10 := by omega
        refine .inr ⟨by rw [heq], List.cons_lt_cons_iff.mpr (.inl (digitChar_lt ?_ ?_))⟩
        · omega
        · omega

/-- A text that begins with a number of a fixed width. -/
theorem padded_append_lt {width m n : Nat} {c d : List Char} (hwidth : 0 < width)
    (hm : m < placeValue width) (hn : n < placeValue width) (h : m < n ∨ m = n ∧ c < d) :
    padded width m ++ c < padded width n ++ d := by
  have hlen := (length_padded hwidth hm).trans (length_padded hwidth hn).symm
  refine (append_lt_append_iff hlen).mpr ?_
  rcases h with hlt | ⟨rfl, hcd⟩
  · exact .inl (padded_lt_padded hwidth hn hlt)
  · exact .inr ⟨rfl, hcd⟩

theorem isDigit_of_mem_padded {width n : Nat} {c : Char} (h : c ∈ padded width n) :
    c.isDigit = true := by
  rcases List.mem_append.mp h with hzero | hdigit
  · rw [List.eq_of_mem_replicate hzero]
    rfl
  · exact Nat.isDigit_of_mem_toDigits (by decide) (by decide) hdigit

/-! ## Reading -/

theorem readNat_toDigits (n : Nat) : readNat (Nat.toDigits 10 n) = some n := by
  have hdigits : (Nat.toDigits 10 n).all isDigit = true := by
    refine List.all_eq_true.mpr fun c hc => ?_
    exact Nat.isDigit_of_mem_toDigits (b := 10) (n := n) (by decide) (by decide) hc
  have hvalue : digitsValue (Nat.toDigits 10 n) = n :=
    Nat.ofDigitChars_toDigits (by decide) (by decide)
  have hnil : (Nat.toDigits 10 n).isEmpty = false := by
    rw [List.isEmpty_eq_false_iff]
    exact Nat.toDigits_ne_nil
  simp [readNat, hdigits, hvalue, hnil]

end ChainSync.Text
