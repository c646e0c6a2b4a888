import ChainSync.Proofs.Text.Digits
import ChainSync.Wire.Print
import Mathlib.Tactic.SplitIfs

/-!
# Reading What Was Printed

Strings and integers are read back as they were printed.

A string is read character by character. What is printed for one character is
taken by one step, whichever of the escapes it is, and stands for that character
again. A string needs nothing of the text behind it, because it has a closing quote.

An integer has none. It ends where no number can go on, so what follows must not
begin with a digit, a point or an exponent: `Ends` says so. An integer of at most 64
bits has all of its digits in the significand, so it is never out of range.

## Main definitions

* `Ends`: A text that no number goes on with.

## Theorems

* `readEscape_escapeOne`: An escape stands for the character it was printed for.
* `readString_quoted`: A string behind its opening quote.
* `readInteger_toDigits`: The digits of an integer.
-/

namespace ChainSync.Wire

/-! ## Strings -/

theorem hexValue?_digitChar : ∀ n < 16, hexValue? (Nat.digitChar n) = some n := by decide

/-- A control character that has no letter of its own is printed by its number. -/
theorem readUnicodeEscape_control {c : Char} (h : c.toNat < 32) (rest : List Char) :
    readUnicodeEscape ('0' :: '0' :: Nat.digitChar (c.toNat / 16)
      :: Nat.digitChar (c.toNat % 16) :: rest) = .ok (c, rest) := by
  have hhigh : hexValue? (Nat.digitChar (c.toNat / 16)) = some (c.toNat / 16) :=
    hexValue?_digitChar _ (by omega)
  have hlow : hexValue? (Nat.digitChar (c.toNat % 16)) = some (c.toNat % 16) :=
    hexValue?_digitChar _ (by omega)
  have hzero : hexValue? '0' = some 0 := rfl
  have hsum : ((0 * 16 + 0) * 16 + c.toNat / 16) * 16 + c.toNat % 16 = c.toNat := by omega
  simp only [readUnicodeEscape, readHex4, hzero, hhigh, hlow, hsum, bind, Except.bind]
  rw [if_neg (by omega), if_neg (by omega), Char.ofNat_toNat]
  rfl

/-- What one character is printed as is read in one step. -/
theorem readChars_escapeOne {c : Char} {steps : Nat} {ds more rest : List Char}
    (h : readChars steps more = .ok (ds, rest)) :
    readChars (steps + 1) (escapeOne c ++ more) = .ok (c :: ds, rest) := by
  have hquote : escape ≠ quote := by decide
  -- Behind the escape sign, it is enough that the escape stands for the character.
  have hescape {cs : List Char} (hread : readEscape (cs ++ more) = .ok (c, more)) :
      readChars (steps + 1) (escape :: cs ++ more) = .ok (c :: ds, rest) := by
    rw [List.cons_append, readChars, if_neg hquote, if_pos rfl, hread]
    simp only [bind, Except.bind, h, pure, Except.pure]
  unfold escapeOne
  split_ifs with h₁ h₂ h₃ h₄ h₅ h₆ h₇
  · refine hescape ?_
    rcases h₁ with rfl | rfl <;> rfl
  · subst h₂
    exact hescape rfl
  · subst h₃
    exact hescape rfl
  · subst h₄
    exact hescape rfl
  · obtain rfl : c = Char.ofNat 8 := by rw [← h₅, Char.ofNat_toNat]
    exact hescape rfl
  · obtain rfl : c = Char.ofNat 12 := by rw [← h₆, Char.ofNat_toNat]
    exact hescape rfl
  · exact hescape (readUnicodeEscape_control h₇ more)
  · -- A character that is printed as it is, and is none of those that stand for something.
    rw [not_or] at h₁
    rw [List.singleton_append, readChars, if_neg h₁.1, if_neg h₁.2, if_neg h₇, h]
    rfl

theorem escapeChars_cons (c : Char) (cs : List Char) :
    escapeChars (c :: cs) = escapeOne c ++ escapeChars cs := List.flatMap_cons

theorem escapeOne_length_pos (c : Char) : 0 < (escapeOne c).length := by
  unfold escapeOne
  split_ifs <;> exact Nat.succ_pos _

/-- Any number of steps will do that is greater than the number of characters. -/
theorem readChars_escapeChars (cs rest : List Char) {steps : Nat}
    (hsteps : (escapeChars cs).length < steps) :
    readChars steps (escapeChars cs ++ quote :: rest) = .ok (cs, rest) := by
  induction cs generalizing steps with
  | nil =>
      rcases Nat.exists_eq_add_one.mpr (Nat.zero_lt_of_lt hsteps) with ⟨steps, rfl⟩
      rfl
  | cons c cs ih =>
      rw [escapeChars_cons, List.length_append] at hsteps
      have hpos := escapeOne_length_pos c
      rcases Nat.exists_eq_add_one.mpr (Nat.zero_lt_of_lt hsteps) with ⟨steps, rfl⟩
      rw [escapeChars_cons, List.append_assoc]
      exact readChars_escapeOne (ih (by omega))

/-- A string is read back up to its closing quote, whatever follows. -/
theorem readString_quoted (s : String) (rest : List Char) :
    readString (escapeChars s.toList ++ quote :: rest) = .ok (s, rest) := by
  have hsteps : (escapeChars s.toList).length < (escapeChars s.toList ++ quote :: rest).length := by
    simp
  have hread := readChars_escapeChars s.toList rest hsteps
  simp only [readString, hread, bind, Except.bind, pure, Except.pure, String.ofList_toList]

/-! ## Integers -/

/-- A text that no number goes on with. -/
def Ends (rest : List Char) : Prop :=
  ∀ c ∈ rest.head?, Text.isDigit c = false ∧ c ≠ '.' ∧ c ≠ 'e' ∧ c ≠ 'E'

theorem ends_nil : Ends [] := fun _ h => absurd h (by simp)

theorem ends_cons {c : Char} (hc : Text.isDigit c = false ∧ c ≠ '.' ∧ c ≠ 'e' ∧ c ≠ 'E')
    (cs : List Char) : Ends (c :: cs) := by
  intro d hd
  rw [List.head?_cons, Option.mem_some_iff] at hd
  exact hd ▸ hc

theorem isDigit_toDigits {n : Nat} {c : Char} (h : c ∈ Nat.toDigits 10 n) :
    Text.isDigit c = true :=
  Nat.isDigit_of_mem_toDigits (by decide) (by decide) h

/-- Only zero itself begins with a zero. -/
theorem head?_toDigits {n : Nat} (h : (Nat.toDigits 10 n).head? = some '0') : n = 0 := by
  induction n using Nat.strongRecOn with
  | ind n ih =>
      by_cases hn : n < 10
      · have hdigit : ∀ m < 10, Nat.digitChar m = '0' → m = 0 := by decide
        rw [Nat.toDigits_of_lt_base hn, List.head?_cons, Option.some.injEq] at h
        exact hdigit n hn h
      · -- The first digit is that of the number without its last one.
        have hsome : (Nat.toDigits 10 (n / 10)).head?.isSome :=
          List.isSome_head?.mpr Nat.toDigits_ne_nil
        rw [Nat.toDigits_of_base_le (by decide) (Nat.le_of_not_lt hn), List.head?_append,
          Option.or_of_isSome hsome] at h
        have hfirst := ih (n / 10) (by omega) h
        omega

/-- The digits of a number are all the digits there are. -/
theorem scanDigits_toDigits (atEnd : Failure) (n : Nat) {rest : List Char} (hrest : Ends rest) :
    scanDigits atEnd (Nat.toDigits 10 n ++ rest) = .ok (Nat.toDigits 10 n, rest) := by
  have hall : ∀ c ∈ Nat.toDigits 10 n, Text.isDigit c = true := fun _ => isDigit_toDigits
  have htake : rest.takeWhile Text.isDigit = [] := by
    cases rest with
    | nil => rfl
    | cons c cs => exact List.takeWhile_cons_of_neg (by simp [(hrest c rfl).1])
  have hdrop : rest.dropWhile Text.isDigit = rest := by
    cases rest with
    | nil => rfl
    | cons c cs => exact List.dropWhile_cons_of_neg (by simp [(hrest c rfl).1])
  rw [scanDigits, List.takeWhile_append_of_pos hall, List.dropWhile_append_of_pos hall, htake,
    hdrop, List.append_nil]
  cases hdigits : Nat.toDigits 10 n with
  | nil => exact absurd hdigits Nat.toDigits_ne_nil
  | cons d ds => rfl

theorem scanWhole_toDigits (atEnd : Failure) (n : Nat) {rest : List Char} (hrest : Ends rest) :
    scanWhole atEnd (Nat.toDigits 10 n ++ rest) = .ok (Nat.toDigits 10 n, rest) := by
  have hzero : ¬((Nat.toDigits 10 n).head? = some '0' ∧ (Nat.toDigits 10 n).length ≠ 1) := by
    rintro ⟨hhead, hlength⟩
    rw [head?_toDigits hhead] at hlength
    exact hlength rfl
  simp only [scanWhole, scanDigits_toDigits atEnd n hrest, bind, Except.bind, if_neg hzero, pure,
    Except.pure]

/-- Behind the digits the number is over. -/
theorem scanNumber_toDigits (atEnd : Failure) (n : Nat) {rest : List Char} (hrest : Ends rest) :
    scanNumber atEnd (Nat.toDigits 10 n ++ rest) =
      .ok ({ whole := Nat.toDigits 10 n, places := none, exponent := none }, rest) := by
  have hplaces : scanPlaces atEnd rest = .ok (none, rest) := by
    unfold scanPlaces
    split
    · exact absurd rfl (hrest '.' rfl).2.1
    · rfl
  have hexponent : scanExponent atEnd rest = .ok (none, rest) := by
    cases rest with
    | nil => rfl
    | cons c cs =>
        rcases hrest c rfl with ⟨_, _, he, hE⟩
        simp only [scanExponent, he, hE, or_self, if_false]
        rfl
  simp only [scanNumber, scanWhole_toDigits atEnd n hrest, hplaces, hexponent, bind, Except.bind,
    pure, Except.pure]

theorem le_foldl_digits (start : Nat) (cs : List Char) :
    start ≤ cs.foldl (fun n c => 10 * n + Text.digitValue c) start := by
  induction cs generalizing start with
  | nil => exact Nat.le_refl _
  | cons c cs ih =>
      have := ih (10 * start + Text.digitValue c)
      rw [List.foldl_cons]
      omega

/-- A number of at most 64 bits is its own significand. -/
theorem significand_eq {start : Nat} {cs : List Char}
    (h : cs.foldl (fun n c => 10 * n + Text.digitValue c) start < UInt64.size) :
    significand start cs = (cs.foldl (fun n c => 10 * n + Text.digitValue c) start, 0) := by
  induction cs generalizing start with
  | nil => rfl
  | cons c cs ih =>
      rw [List.foldl_cons] at h
      have hnext := Nat.lt_of_le_of_lt (le_foldl_digits _ cs) h
      rw [significand, if_neg (Nat.not_le_of_lt hnext), ih h, List.foldl_cons]

theorem digitsValue_toDigits (n : Nat) : Text.digitsValue (Nat.toDigits 10 n) = n :=
  Nat.ofDigitChars_toDigits (by decide) (by decide)

/-- The digits of a number of at most 64 bits are read as that number. -/
theorem readInteger_toDigits (negative : Bool) {n : Nat} (hn : n < UInt64.size)
    {rest : List Char} (hrest : Ends rest) :
    readInteger negative (Nat.toDigits 10 n ++ rest) =
      .ok (if negative then (if n = 0 then none else some (-(n : Int))) else some (n : Int),
        rest) := by
  have hvalue := digitsValue_toDigits n
  have hwhole : significand 0 (Nat.toDigits 10 n) = (n, 0) := by
    have hfold := hvalue
    unfold Text.digitsValue at hfold
    rw [significand_eq (by rwa [hfold]), hfold]
  -- Without places and exponent the number is an integer of 64 bits.
  have hrange : ({ whole := Nat.toDigits 10 n, places := none, exponent := none } :
      Number).isOutOfRange = false := by
    simp [Number.isOutOfRange, Number.scientific, hwhole, significand]
  simp only [readInteger, scanNumber_toDigits .truncated n hrest, hrange, bind, Except.bind,
    Bool.false_eq_true, if_false, pure, Except.pure, Number.integer?, hvalue]
  rfl

end ChainSync.Wire
