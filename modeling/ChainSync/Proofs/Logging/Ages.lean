import Mathlib
import ChainSync.Proofs.Logging.Names

/-!
# Ages of Archives

Names of archives compare like the ages they were made of.

The age of an archive is the second of its last change and, within that second, the
number that its log file got. Its name is a text. What is compared when archives are
pruned is neither, but what is found in the name: the text of a second, and a number that
is read from digits. Both could spoil the order. Compared as they stand, the names of a
second would have number 10 in front of number 2. And a year of five digits is written
with a plus sign, which comes in front of all digits.

So the key is strictly monotone in the age as long as years have four digits and no sign,
pairs being compared by their first parts and then by their second ones. Everything else
about the order of names follows from that.

## Main definitions

* `Archive.sortKey`: The key of a name, as keys are compared.
* `Archive.nameAt`: The name of an age.
* `Archive.plainAges`: Ages in the years 0 to 9999.

## Theorems

* `Archive.notYounger_iff_le`: Pruning goes by the key.
* `Archive.strictMonoOn_sortKey`: Keys are in the order of ages.
* `Archive.notYounger_nameOf`, `Archive.eq_of_key_nameOf_eq`: Names in order, and told
  apart.
* `Archive.names_compare_like_ages`: All comparisons of names.
-/

namespace ChainSync.Archive

/-! ## The order of names -/

/-- The key of a name, compared by the text of the second first and then by the number. -/
def sortKey (name : String) : String ×ₗ Nat := toLex (key name)

theorem notYounger_iff (a b : String) :
    notYounger a b = true ↔
      (key a).1 < (key b).1 ∨ (key a).1 = (key b).1 ∧ (key a).2 ≤ (key b).2 := by
  simp [notYounger]

theorem notYounger_iff_le (a b : String) : notYounger a b = true ↔ sortKey a ≤ sortKey b := by
  rw [notYounger_iff, sortKey, sortKey, Prod.Lex.toLex_le_toLex]

theorem notYounger_trans (a b c : String) (hab : notYounger a b = true)
    (hbc : notYounger b c = true) : notYounger a c = true := by
  rw [notYounger_iff_le] at *
  exact le_trans hab hbc

theorem notYounger_total (a b : String) : (notYounger a b || notYounger b a) = true := by
  rw [Bool.or_eq_true, notYounger_iff_le, notYounger_iff_le]
  exact le_total _ _

/-- Names of the same age have the same key. -/
theorem key_eq_of_notYounger {a b : String} (hab : notYounger a b = true)
    (hba : notYounger b a = true) : key a = key b := by
  rw [notYounger_iff_le] at hab hba
  exact toLex.injective (le_antisymm hab hba)

/-! ## The names of log files -/

/-- The name of an age, which is a second and a number. -/
def nameAt (age : Int ×ₗ Nat) : String := nameOf (stampText (ofLex age).1) (ofLex age).2

/-- The ages of archives in the years 0 to 9999. -/
def plainAges : Set (Int ×ₗ Nat) :=
  {age | HasPlainYear (ofLex age).1 ∧ (ofLex age).2 ≤ lastNumber}

theorem sortKey_nameAt {age : Int ×ₗ Nat} (h : (ofLex age).2 ≤ lastNumber) :
    sortKey (nameAt age) = toLex (stampText (ofLex age).1, (ofLex age).2) :=
  congrArg toLex (key_nameOf_stampText _ h)

/-- The later second has the greater stamp, and in one second the number is compared as
    a number. -/
theorem strictMonoOn_sortKey : StrictMonoOn (fun age => sortKey (nameAt age)) plainAges := by
  intro a ha b hb hab
  change sortKey (nameAt a) < sortKey (nameAt b)
  rw [sortKey_nameAt ha.2, sortKey_nameAt hb.2, Prod.Lex.toLex_lt_toLex]
  rcases Prod.Lex.lt_iff.mp hab with hsecond | ⟨hsecond, hnumber⟩
  · exact .inl (stampText_lt_stampText ha.1 hb.1 hsecond)
  · exact .inr ⟨congrArg stampText hsecond, hnumber⟩

/-- Names are in the order of their seconds and numbers. -/
theorem notYounger_nameOf {t t' : Int} {m n : Nat} (ht : HasPlainYear t) (ht' : HasPlainYear t')
    (hm : m ≤ lastNumber) (hn : n ≤ lastNumber) :
    notYounger (nameOf (stampText t) m) (nameOf (stampText t') n) = true ↔
      t < t' ∨ t = t' ∧ m ≤ n := by
  have hage : toLex (t, m) ∈ plainAges := ⟨ht, hm⟩
  have hage' : toLex (t', n) ∈ plainAges := ⟨ht', hn⟩
  have hle := strictMonoOn_sortKey.le_iff_le hage hage'
  rw [notYounger_iff_le]
  exact hle.trans Prod.Lex.toLex_le_toLex

/-- A key belongs to one second and number. -/
theorem eq_of_key_nameOf_eq {t t' : Int} {m n : Nat} (ht : HasPlainYear t)
    (ht' : HasPlainYear t') (hm : m ≤ lastNumber) (hn : n ≤ lastNumber)
    (h : key (nameOf (stampText t) m) = key (nameOf (stampText t') n)) : t = t' ∧ m = n := by
  have hage : toLex (t, m) ∈ plainAges := ⟨ht, hm⟩
  have hage' : toLex (t', n) ∈ plainAges := ⟨ht', hn⟩
  have hsame := strictMonoOn_sortKey.injOn hage hage' (congrArg toLex h)
  exact Prod.mk.inj hsame

/-- The names that are tried for a log file, by number. -/
theorem getElem?_candidates (stamp : String) {number : Nat} (h : number ≤ lastNumber) :
    (candidates stamp)[number]? = some (nameOf stamp number) := by
  rw [candidates, List.getElem?_map, List.getElem?_range (Nat.lt_succ_of_le h), Option.map_some]

/-- Of two names that log files of the years 0 to 9999 can get, the keys compare like the
    seconds and, in one second, like the numbers of the two. That is the order that pruning
    goes by, and no two ages have the same key. -/
theorem names_compare_like_ages {t t' : Int} {m n : Nat} (ht : HasPlainYear t)
    (ht' : HasPlainYear t') (hm : m ≤ lastNumber) (hn : n ≤ lastNumber) :
    (candidates (stampText t))[m]? = some (nameOf (stampText t) m) ∧
    cmp (sortKey (nameOf (stampText t) m)) (sortKey (nameOf (stampText t') n)) =
      cmp (toLex (t, m)) (toLex (t', n)) ∧
    (notYounger (nameOf (stampText t) m) (nameOf (stampText t') n) = true ↔
      toLex (t, m) ≤ toLex (t', n)) ∧
    (key (nameOf (stampText t) m) = key (nameOf (stampText t') n) → t = t' ∧ m = n) := by
  have hage : toLex (t, m) ∈ plainAges := ⟨ht, hm⟩
  have hage' : toLex (t', n) ∈ plainAges := ⟨ht', hn⟩
  have hcmp := strictMonoOn_sortKey.cmp_map_eq hage hage'
  have horder := notYounger_nameOf ht ht' hm hn
  refine ⟨getElem?_candidates _ hm, hcmp, ?_, eq_of_key_nameOf_eq ht ht' hm hn⟩
  rw [horder, Prod.Lex.toLex_le_toLex]

/-- In the last second of the year 9999 number 10 comes after number 9, and the last number
    of the first second of the year 0 is older than both. -/
theorem number_ten_follows_nine :
    let name (t : Int) (number : Nat) : String := nameOf (stampText t) number
    (HasPlainYear (-62167219200) ∧ HasPlainYear 253402300799) ∧
    cmp (sortKey (name 253402300799 10)) (sortKey (name 253402300799 9)) = .gt ∧
    cmp (sortKey (name (-62167219200) 999)) (sortKey (name 253402300799 9)) = .lt ∧
    key (name 253402300799 0) ≠ key (name 253402300799 1) := by
  intro name
  have hfirst : HasPlainYear (-62167219200) := hasPlainYear_iff.mpr (by decide)
  have hlast : HasPlainYear 253402300799 := hasPlainYear_iff.mpr (by decide)
  refine ⟨⟨hfirst, hlast⟩, ?_, ?_, fun hkey => ?_⟩
  · rw [(names_compare_like_ages hlast hlast (by decide) (by decide)).2.1]
    decide
  · rw [(names_compare_like_ages hfirst hlast (by decide) (by decide)).2.1]
    decide
  · have hsame := (names_compare_like_ages hlast hlast (by decide) (by decide)).2.2.2 hkey
    exact absurd hsame.2 (by decide)

end ChainSync.Archive
