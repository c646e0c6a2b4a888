import ChainSync.Address.Ipv6

/-!
# What IPv6 Literals Are Spelled With

The characters of a literal, and how many of them are colons.

Reading a literal takes characters away from the front of a text. `Reads` says
of two texts that one is left when some characters of literals have been read
off the other, and each reader keeps to it. So nothing but such characters
stands in a text that is read to its end.

That there are two colons at least is plain for a literal that leaves groups
out. In one that does not, every group but the first has a colon in front of
it, and only a dotted part counts for a group without one. So the colons that
have been read are counted along with the groups.

## Main definitions

* `isLiteralChar`: The characters of literals.
* `Reads`: A text of which some of them have been read.
* `Accounted`: Groups that have been read, and the colons among them.

## Theorems

* `reads_readGroup`, `reads_readDotted`: The readers.
* `accounted_readGroups`: A run of groups.
* `isIpv6_spec`: What literals are spelled with.
-/

namespace ChainSync.Address

/-- The characters an IPv6 literal is spelled with. -/
def isLiteralChar (c : Char) : Bool := isHexDigit c || c = ':' || c = '.'

/-- Some characters of literals in front of a text leave `rest` when they are
    read. -/
def Reads (cs rest : List Char) : Prop :=
  ∃ used, cs = used ++ rest ∧ ∀ c ∈ used, isLiteralChar c = true

variable {cs rest rest' : List Char} {c : Char}

theorem Reads.refl (cs : List Char) : Reads cs cs :=
  ⟨[], rfl, fun _ hc => absurd hc List.not_mem_nil⟩

theorem Reads.trans (h : Reads cs rest) (h' : Reads rest rest') : Reads cs rest' := by
  rcases h with ⟨used, rfl, hused⟩
  rcases h' with ⟨more, rfl, hmore⟩
  refine ⟨used ++ more, (List.append_assoc used more rest').symm, ?_⟩
  intro c hc
  exact (List.mem_append.mp hc).elim (hused c) (hmore c)

theorem Reads.cons (hc : isLiteralChar c = true) (rest : List Char) : Reads (c :: rest) rest :=
  ⟨[c], rfl, fun _ hx => List.mem_singleton.mp hx ▸ hc⟩

/-- A text that is read to its end. -/
theorem Reads.spells (h : Reads cs []) : ∀ c ∈ cs, isLiteralChar c = true := by
  rcases h with ⟨used, rfl, hused⟩
  rw [List.append_nil]
  exact hused

theorem Reads.count_le (h : Reads cs rest) : rest.count c ≤ cs.count c := by
  rcases h with ⟨used, rfl, _⟩
  rw [List.count_append]
  exact Nat.le_add_left _ _

/-- All that is there of some kind is read. -/
theorem reads_dropWhile {p : Char → Bool} (hp : ∀ c, p c = true → isLiteralChar c = true)
    (cs : List Char) : Reads cs (cs.dropWhile p) :=
  ⟨cs.takeWhile p, List.takeWhile_append_dropWhile.symm,
    fun c hc => hp c (List.all_eq_true.mp List.all_takeWhile c hc)⟩

theorem isLiteralChar_of_isHexDigit (c : Char) (h : isHexDigit c = true) :
    isLiteralChar c = true := by
  rw [isLiteralChar, h, Bool.true_or, Bool.true_or]

theorem isLiteralChar_of_isDigit (c : Char) (h : Text.isDigit c = true) :
    isLiteralChar c = true := by
  refine isLiteralChar_of_isHexDigit c ?_
  rw [isHexDigit, h, Bool.true_or, Bool.true_or]

/-! ## The readers -/

theorem reads_readGroup (h : readGroup cs = some rest) : Reads cs rest := by
  unfold readGroup at h
  simp only [] at h
  split at h
  · exact absurd h (by simp only [reduceCtorEq, not_false_eq_true])
  · rw [← Option.some.inj h]
    exact reads_dropWhile isLiteralChar_of_isHexDigit cs

theorem reads_readOctet (h : readOctet cs = some rest) : Reads cs rest := by
  unfold readOctet at h
  simp only [] at h
  split at h
  · exact absurd h (by simp only [reduceCtorEq, not_false_eq_true])
  · rw [← Option.some.inj h]
    exact reads_dropWhile isLiteralChar_of_isDigit cs

theorem readChar_eq (h : readChar c cs = some rest) : cs = c :: rest := by
  cases cs with
  | nil => exact absurd h (by simp only [readChar, reduceCtorEq, not_false_eq_true])
  | cons x tail =>
      simp only [readChar] at h
      by_cases hx : x = c
      · rw [if_pos hx] at h
        rw [hx, Option.some.inj h]
      · rw [if_neg hx] at h
        exact absurd h (by simp only [reduceCtorEq, not_false_eq_true])

theorem reads_readDotted (h : readDotted cs = some rest) : Reads cs rest := by
  have hpoint : ∀ {cs rest}, readChar '.' cs = some rest → Reads cs rest := by
    intro cs rest hchar
    rw [readChar_eq hchar]
    exact .cons (by decide) rest
  unfold readDotted at h
  simp only [Option.bind_eq_bind, Option.bind_eq_some_iff] at h
  rcases h with ⟨cs₁, h₁, cs₂, h₂, cs₃, h₃, cs₄, h₄, cs₅, h₅, cs₆, h₆, h₇⟩
  have hfirst := (reads_readOctet h₁).trans (hpoint h₂)
  have hsecond := (reads_readOctet h₃).trans (hpoint h₄)
  have hthird := (reads_readOctet h₅).trans (hpoint h₆)
  exact hfirst.trans (hsecond.trans (hthird.trans (reads_readOctet h₇)))

/-- Where a group begins: behind a colon unless it is the first. -/
theorem start_eq {count : Nat} {start : List Char}
    (h : (if count = 0 then some cs else readChar ':' cs) = some start) :
    Reads cs start ∧ start.count ':' + 1 = cs.count ':' + (if count = 0 then 1 else 0) := by
  by_cases hcount : count = 0
  · rw [if_pos hcount] at h ⊢
    rw [Option.some.inj h]
    exact ⟨.refl start, rfl⟩
  · rw [if_neg hcount] at h ⊢
    rw [readChar_eq h, List.count_cons_self]
    exact ⟨.cons (by decide) start, rfl⟩

/-- What has been read of a run of groups, when `count` groups had been read
    before. Each has a colon of its own, but for the first one and one half of a
    dotted part. -/
structure Accounted (count : Nat) (cs : List Char) (r : Groups) : Prop where
  reads : Reads cs r.rest
  count_le : r.count + r.rest.count ':' ≤
    count + cs.count ':' + (if count = 0 then 1 else 0) + r.dotted.toNat

theorem accounted_readGroups (count : Nat) (cs : List Char) (room : Nat) :
    Accounted count cs (readGroups count cs room) := by
  induction room generalizing count cs with
  | zero =>
      refine ⟨.refl cs, ?_⟩
      simp only [readGroups]
      omega
  | succ room ih =>
      unfold readGroups
      simp only []
      generalize hbegin : (if count = 0 then some cs else readChar ':' cs) = beginning
      cases hdotted : (if 1 ≤ room then beginning.bind readDotted else none) with
      | some rest =>
          -- A dotted part ends the literal.
          have hsome : beginning.bind readDotted = some rest := by
            by_cases hroom : 1 ≤ room
            · rwa [if_pos hroom] at hdotted
            · rw [if_neg hroom] at hdotted
              exact absurd hdotted (by simp only [reduceCtorEq, not_false_eq_true])
          rcases Option.bind_eq_some_iff.mp hsome with ⟨start, rfl, hread⟩
          rcases start_eq hbegin with ⟨hto, hcolons⟩
          have hrest := reads_readDotted hread
          have hle := hrest.count_le (c := ':')
          refine ⟨hto.trans hrest, ?_⟩
          simp only [Bool.toNat_true]
          omega
      | none =>
          cases hgroup : beginning.bind readGroup with
          | some rest =>
              rcases Option.bind_eq_some_iff.mp hgroup with ⟨start, rfl, hread⟩
              rcases start_eq hbegin with ⟨hto, hcolons⟩
              have hrest := reads_readGroup hread
              have hle := hrest.count_le (c := ':')
              rcases ih (count + 1) rest with ⟨hmore, hcount⟩
              change Accounted count cs (readGroups (count + 1) rest room)
              refine ⟨hto.trans (hrest.trans hmore), ?_⟩
              rw [if_neg (Nat.succ_ne_zero count)] at hcount
              omega
          | none =>
              refine ⟨.refl cs, ?_⟩
              simp only []
              omega

/-- An IPv6 literal is spelled with hexadecimal digits, colons and points, and
    there are two colons in it at least. -/
theorem isIpv6_spec (h : isIpv6 cs = true) :
    (∀ c ∈ cs, isLiteralChar c = true) ∧ 2 ≤ cs.count ':' := by
  unfold isIpv6 at h
  rcases accounted_readGroups 0 cs 8 with ⟨hfront, hcount⟩
  generalize readGroups 0 cs 8 = front at h hfront hcount
  simp only [] at h
  split at h
  · -- All eight groups are written out.
    next height =>
    have hend : front.rest = [] := List.isEmpty_iff.mp h
    rw [hend] at hfront hcount
    refine ⟨hfront.spells, ?_⟩
    have hhalf := front.dotted.toNat_le
    rw [height, if_pos rfl, List.count_nil] at hcount
    omega
  · split at h
    · exact absurd h Bool.false_ne_true
    · split at h
      · -- Some are left out between two colons.
        next rest hrest =>
        have hback := (accounted_readGroups 0 rest (7 - front.count)).reads
        rw [List.isEmpty_iff.mp h] at hback
        have hcolons := hfront.count_le (c := ':')
        rw [hrest] at hfront hcolons
        have hcolon : isLiteralChar ':' = true := by decide
        refine ⟨(hfront.trans (.trans (.cons hcolon _) (.trans (.cons hcolon _) hback))).spells, ?_⟩
        rw [List.count_cons_self, List.count_cons_self] at hcolons
        omega
      · exact absurd h Bool.false_ne_true

end ChainSync.Address
