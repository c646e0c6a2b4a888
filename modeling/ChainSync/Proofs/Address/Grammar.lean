import ChainSync.Address.HostPort

/-!
# The Grammar of Addresses

What `Address.split` accepts, in both directions.

The grammar says what an address is composed of, and `split` looks for it by
the last colon and the first closing bracket. Each of the two searches is
pinned down by what does not stand on one side of what it finds: no closing
bracket in front of the first, no colon behind the last. From there each form
of an address is settled by itself, and the two cannot be mistaken for each
other, because a plain host does not begin with a bracket.

## Main definitions

* `Address.Free`: A text without certain characters.
* `Address.Forms`: A host and a port form an address.

## Theorems

* `splitAtFirst_append`, `splitAtFirst_spec`: What the first occurrence is.
* `splitAtLast_append`, `splitAtLast_spec`: What the last occurrence is.
* `splitChars_ok_iff`: The grammar, character by character.
* `split_ok_iff`: The grammar.
-/

namespace ChainSync.Address

variable {c : Char} {cs a b h p : List Char}

theorem splitAtFirst_append (ha : c ∉ a) : splitAtFirst c (a ++ c :: b) = some (a, b) := by
  induction a with
  | nil => exact if_pos rfl
  | cons x a ih =>
      rcases not_or.mp (fun hmem => ha (List.mem_cons.mpr hmem)) with ⟨hx, hrest⟩
      rw [List.cons_append, splitAtFirst, if_neg (fun heq => hx heq.symm), ih hrest]
      rfl

theorem splitAtFirst_spec (hs : splitAtFirst c cs = some (a, b)) :
    cs = a ++ c :: b ∧ c ∉ a := by
  induction cs generalizing a with
  | nil => exact absurd hs (by simp only [splitAtFirst, reduceCtorEq, not_false_eq_true])
  | cons x rest ih =>
      unfold splitAtFirst at hs
      by_cases hx : x = c
      · rw [if_pos hx, Option.some.injEq, Prod.mk.injEq] at hs
        rcases hs with ⟨rfl, rfl⟩
        exact ⟨congrArg (· :: rest) hx, List.not_mem_nil⟩
      · rw [if_neg hx] at hs
        rcases Option.map_eq_some_iff.mp hs with ⟨⟨a', b'⟩, hrest, heq⟩
        rcases Prod.mk.inj heq with ⟨rfl, rfl⟩
        rcases ih hrest with ⟨rfl, hmem⟩
        refine ⟨rfl, fun hc => ?_⟩
        rcases List.mem_cons.mp hc with rfl | hc
        · exact hx rfl
        · exact hmem hc

theorem splitAtLast_eq_none_iff : splitAtLast c cs = none ↔ c ∉ cs := by
  induction cs with
  | nil => simp only [splitAtLast, List.not_mem_nil, not_false_eq_true]
  | cons x rest ih =>
      unfold splitAtLast
      cases hrest : splitAtLast c rest with
      | none =>
          have hnot : c ∉ rest := ih.mp hrest
          by_cases hx : x = c
          · simp only [hx, if_true, reduceCtorEq, List.mem_cons, true_or, not_true_eq_false]
          · simp only [if_neg hx, List.mem_cons, not_or, hnot, not_false_eq_true, and_true,
              true_iff]
            exact fun heq => hx heq.symm
      | some ab =>
          have hmem : c ∈ rest := Decidable.not_not.mp fun hnot =>
            absurd (hrest.symm.trans (ih.mpr hnot)) (by simp only [reduceCtorEq, not_false_eq_true])
          simp only [reduceCtorEq, List.mem_cons, hmem, or_true, not_true_eq_false]

theorem splitAtLast_append (hb : c ∉ b) : splitAtLast c (a ++ c :: b) = some (a, b) := by
  induction a with
  | nil =>
      rw [List.nil_append, splitAtLast, splitAtLast_eq_none_iff.mpr hb]
      exact if_pos rfl
  | cons x a ih => rw [List.cons_append, splitAtLast, ih]

theorem splitAtLast_spec (hs : splitAtLast c cs = some (a, b)) :
    cs = a ++ c :: b ∧ c ∉ b := by
  induction cs generalizing a with
  | nil => exact absurd hs (by simp only [splitAtLast, reduceCtorEq, not_false_eq_true])
  | cons x rest ih =>
      unfold splitAtLast at hs
      cases hrest : splitAtLast c rest with
      | none =>
          rw [hrest] at hs
          by_cases hx : x = c
          · simp only [hx, if_true, Option.some.injEq, Prod.mk.injEq] at hs
            rcases hs with ⟨rfl, rfl⟩
            exact ⟨congrArg (· :: rest) hx, splitAtLast_eq_none_iff.mp hrest⟩
          · simp only [if_neg hx, reduceCtorEq] at hs
      | some ab =>
          -- There is one further on, so this one is not the last.
          rcases ab with ⟨a', b'⟩
          rw [hrest] at hs
          simp only [Option.some.injEq, Prod.mk.injEq] at hs
          rcases hs with ⟨rfl, rfl⟩
          rcases ih hrest with ⟨rfl, hb⟩
          exact ⟨rfl, hb⟩

/-- What is behind a check is only reached past it. -/
theorem ite_error_eq_ok_iff {ε α : Type} {refuse : Prop} [Decidable refuse] {e : ε}
    {x : Except ε α} {v : α} :
    (if refuse then .error e else x) = .ok v ↔ ¬refuse ∧ x = .ok v := by
  by_cases hrefuse : refuse
  · simp only [hrefuse, if_true, reduceCtorEq, not_true_eq_false, false_and]
  · simp only [hrefuse, if_false, not_false_eq_true, true_and]

theorem splitBracketed_ok_iff :
    splitBracketed cs = .ok (h, p) ↔
      cs = h ++ ']' :: ':' :: p ∧ ('[' ∉ h ∧ ']' ∉ h) ∧ ':' ∉ p ∧ '[' ∉ p ∧ ']' ∉ p := by
  constructor
  · intro hok
    unfold splitBracketed at hok
    cases hfirst : splitAtFirst ']' cs with
    | none => simp only [hfirst, reduceCtorEq] at hok
    | some found =>
        rcases found with ⟨host, tail⟩
        rcases splitAtFirst_spec hfirst with ⟨rfl, hhost⟩
        cases tail with
        | nil => simp only [hfirst, reduceCtorEq] at hok
        | cons next port =>
            simp only [hfirst, ite_error_eq_ok_iff, Except.ok.injEq, Prod.mk.injEq, ne_eq,
              Decidable.not_not, not_or] at hok
            rcases hok with ⟨rfl, hcolon, ⟨hopen, hopen'⟩, hclose, rfl, rfl⟩
            exact ⟨rfl, ⟨hopen, hhost⟩, hcolon, hopen', hclose⟩
  · rintro ⟨rfl, ⟨hopen, hclose⟩, hcolon, hopen', hclose'⟩
    simp only [splitBracketed, splitAtFirst_append hclose, hcolon, hopen, hopen', hclose', ne_eq,
      not_true_eq_false, or_self, if_false]

theorem splitPlain_ok_iff :
    splitPlain a b = .ok (h, p) ↔
      (a = h ∧ b = p) ∧ (':' ∉ h ∧ '[' ∉ h ∧ ']' ∉ h) ∧ '[' ∉ p ∧ ']' ∉ p := by
  simp only [splitPlain, ite_error_eq_ok_iff, Except.ok.injEq, Prod.mk.injEq, not_or]
  constructor
  · rintro ⟨hcolon, ⟨hopen, hopen'⟩, ⟨hclose, hclose'⟩, rfl, rfl⟩
    exact ⟨⟨rfl, rfl⟩, ⟨hcolon, hopen, hclose⟩, hopen', hclose'⟩
  · rintro ⟨⟨rfl, rfl⟩, ⟨hcolon, hopen, hclose⟩, hopen', hclose'⟩
    exact ⟨hcolon, ⟨hopen, hopen'⟩, ⟨hclose, hclose'⟩, rfl, rfl⟩

/-- An address that begins with a bracket is not looked at by its last colon. -/
theorem splitChars_bracketed (hlast : splitAtLast ':' ('[' :: cs) = some (a, b)) :
    splitChars ('[' :: cs) = splitBracketed cs := by
  simp only [splitChars, hlast]

theorem splitChars_plain (hhead : cs.head? ≠ some '[')
    (hlast : splitAtLast ':' cs = some (a, b)) : splitChars cs = splitPlain a b := by
  unfold splitChars
  rw [hlast]
  simp only
  split
  · exact absurd rfl hhead
  · rfl

theorem splitChars_ok_iff :
    splitChars cs = .ok (h, p) ↔
      (cs = h ++ ':' :: p ∧ (':' ∉ h ∧ '[' ∉ h ∧ ']' ∉ h) ∨
        cs = '[' :: h ++ ']' :: ':' :: p ∧ ('[' ∉ h ∧ ']' ∉ h)) ∧
      ':' ∉ p ∧ '[' ∉ p ∧ ']' ∉ p := by
  constructor
  · intro hok
    cases hlast : splitAtLast ':' cs with
    | none => simp only [splitChars, hlast, reduceCtorEq] at hok
    | some found =>
        by_cases hhead : cs.head? = some '['
        · rcases List.head?_eq_some_iff.mp hhead with ⟨rest, rfl⟩
          rw [splitChars_bracketed hlast] at hok
          rcases splitBracketed_ok_iff.mp hok with ⟨rfl, hhost, hport⟩
          exact ⟨.inr ⟨rfl, hhost⟩, hport⟩
        · rw [splitChars_plain hhead hlast] at hok
          rcases splitPlain_ok_iff.mp hok with ⟨⟨rfl, rfl⟩, hhost, hopen, hclose⟩
          rcases splitAtLast_spec hlast with ⟨hcs, hafter⟩
          exact ⟨.inl ⟨hcs, hhost⟩, hafter, hopen, hclose⟩
  · rintro ⟨⟨rfl, hhost⟩ | ⟨rfl, hhost⟩, hport⟩
    · -- A plain host is free of brackets, and an empty one is followed by a colon.
      have hhead : (h ++ ':' :: p).head? ≠ some '[' := by
        cases h with
        | nil => exact fun heq => absurd (Option.some.inj heq) (by decide)
        | cons x h => exact fun heq => hhost.2.1 (Option.some.inj heq ▸ List.mem_cons_self)
      rw [splitChars_plain hhead (splitAtLast_append hport.1)]
      exact splitPlain_ok_iff.mpr ⟨⟨rfl, rfl⟩, hhost, hport.2⟩
    · -- The host may hold colons, but the one behind the bracket comes last.
      have hlast : splitAtLast ':' ('[' :: (h ++ ']' :: ':' :: p)) =
          some ('[' :: h ++ [']'], p) := by
        rw [← splitAtLast_append hport.1, List.append_assoc]
        rfl
      rw [List.cons_append, splitChars_bracketed hlast]
      exact splitBracketed_ok_iff.mpr ⟨rfl, hhost, hport⟩

/-- A text in which none of the given characters stands. -/
def Free (cs : List Char) (s : String) : Prop := ∀ c ∈ cs, c ∉ s.toList

instance (cs : List Char) (s : String) : Decidable (Free cs s) :=
  inferInstanceAs (Decidable (∀ c ∈ cs, c ∉ s.toList))

/-- A host and a port form an address: side by side, or with the host in
    brackets. -/
def Forms (host port address : String) : Prop :=
  (address = host ++ ":" ++ port ∧ Free [':', '[', ']'] host ∨
    address = "[" ++ host ++ "]:" ++ port ∧ Free ['[', ']'] host) ∧
  Free [':', '[', ']'] port

instance (host port address : String) : Decidable (Forms host port address) :=
  inferInstanceAs (Decidable (_ ∧ _))

theorem free_nil (s : String) : Free [] s := fun _ hc => absurd hc List.not_mem_nil

theorem free_cons_iff {s : String} : Free (c :: cs) s ↔ c ∉ s.toList ∧ Free cs s :=
  List.forall_mem_cons

theorem eq_plain_iff {address host port : String} :
    address = host ++ ":" ++ port ↔ address.toList = host.toList ++ ':' :: port.toList := by
  rw [← String.toList_inj, String.toList_append, String.toList_append, List.append_assoc]
  rfl

theorem eq_bracketed_iff {address host port : String} :
    address = "[" ++ host ++ "]:" ++ port ↔
      address.toList = '[' :: host.toList ++ ']' :: ':' :: port.toList := by
  rw [← String.toList_inj, String.toList_append, String.toList_append, String.toList_append,
    List.append_assoc]
  rfl

theorem split_ok_iff_chars {address host port : String} :
    split address = .ok ⟨host, port⟩ ↔
      splitChars address.toList = .ok (host.toList, port.toList) := by
  unfold split
  cases splitChars address.toList with
  | error fault => simp only [reduceCtorEq]
  | ok parts =>
      simp only [Except.ok.injEq, HostPort.mk.injEq, Prod.ext_iff, ← String.toList_inj,
        String.toList_ofList]

/-- An address is accepted, and taken apart, as the grammar has it. -/
theorem split_ok_iff {address host port : String} :
    split address = .ok ⟨host, port⟩ ↔ Forms host port address := by
  simp only [split_ok_iff_chars, splitChars_ok_iff, Forms, eq_plain_iff, eq_bracketed_iff,
    free_cons_iff, free_nil, and_true]

theorem error_address {address : String} {e : Error} (h : split address = .error e) :
    e.address = address := by
  unfold split at h
  split at h
  · simp only [reduceCtorEq] at h
  · rw [← Except.error.inj h]

end ChainSync.Address
