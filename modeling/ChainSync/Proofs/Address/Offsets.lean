import ChainSync.Address.Offsets
import ChainSync.Proofs.Address.Grammar
import ChainSync.Proofs.Text.Offsets

/-!
# Offsets in an Address

Taking an address apart at offsets is taking it apart character by character.

Every offset that `splitAtOffsets` cuts at is the size of a part of the
address: of what stands in front of the last colon or up to the first closing
bracket, or of that and the character behind it. So no cut is beyond the end or
inside a character, and the parts are those that `split` finds.

The one comparison of offsets asks whether the closing bracket stands right in
front of the last colon. That is so exactly if a colon follows the bracket and
none follows that colon; if not, the byte behind the bracket tells which of the
two fails.

## Main definitions

* `outcome`: What `split` makes of a result by characters.

## Theorems

* `firstOffset_eq`, `lastOffset_eq`: Offsets are sizes.
* `partsInBrackets_eq`, `splitAtOffsets_plain`: The two forms of an address.
* `splitAtOffsets_eq`: Cutting at offsets always succeeds, with the same result.
* `split_grammar`: What is accepted, refused and cut.
-/

namespace ChainSync.Address

open Text

variable {c : Char} {cs before after rest host port : List Char}

theorem firstOffset_eq : firstOffset c cs = (splitAtFirst c cs).map (size ·.1) := by
  induction cs with
  | nil => rfl
  | cons x rest ih =>
      unfold firstOffset splitAtFirst
      by_cases hx : x = c
      · simp only [hx, if_true, Option.map_some]
        rfl
      · simp only [if_neg hx, ih, Option.map_map]
        exact congrArg (Option.map · _) (funext fun ab => (size_cons x ab.1).symm)

theorem lastOffset_eq : lastOffset c cs = (splitAtLast c cs).map (size ·.1) := by
  induction cs with
  | nil => rfl
  | cons x rest ih =>
      unfold lastOffset splitAtLast
      rw [ih]
      cases splitAtLast c rest with
      | none =>
          by_cases hx : x = c
          · simp only [hx, if_true, Option.map_none, Option.map_some]
            rfl
          · simp only [if_neg hx, Option.map_none]
      | some ab => simp only [Option.map_some, size_cons]

/-- What `split` makes of a result by characters. -/
def outcome (address : String) (r : Except Fault (List Char × List Char)) :
    Except Error HostPort :=
  (r.mapError (⟨address, ·⟩)).map fun parts => ⟨String.ofList parts.1, String.ofList parts.2⟩

theorem split_ofList (cs : List Char) :
    split (String.ofList cs) = outcome (String.ofList cs) (splitChars cs) := by
  rw [split, String.toList_ofList]
  cases splitChars cs with
  | error fault => rfl
  | ok parts => rfl

theorem outcome_ok (address : String) (host port : List Char) :
    outcome address (.ok (host, port)) = .ok ⟨String.ofList host, String.ofList port⟩ := rfl

theorem outcome_error (address : String) (fault : Fault) :
    outcome address (.error fault) = .error ⟨address, fault⟩ := rfl

theorem partsAt_eq {address host port opening closing : String}
    {openFrom closeFrom lastColon : Nat} (hopening : from? address openFrom = some opening)
    (hclosing : from? address closeFrom = some closing)
    (hport : from? address (lastColon + 1) = some port) :
    partsAt address host openFrom closeFrom lastColon =
      some (if '[' ∈ opening.toList then .error ⟨address, .unexpected '['⟩
        else if ']' ∈ closing.toList then .error ⟨address, .unexpected ']'⟩
        else .ok ⟨host, port⟩) := by
  simp only [partsAt, hopening, hclosing, hport, Option.bind_eq_bind, Option.bind_some,
    Option.pure_def, apply_ite some]

/-- A character other than the one in the middle stands on one of its sides. -/
theorem mem_append_cons_iff {x : Char} (hx : c ≠ x) :
    c ∈ before ++ x :: after ↔ c ∈ before ∨ c ∈ after := by
  simp only [List.mem_append, List.mem_cons, hx, false_or]

theorem splitAtOffsets_plain (hhead : cs.head? ≠ some '[')
    (hlast : splitAtLast ':' cs = some (before, after)) :
    splitAtOffsets (String.ofList cs) = some (split (String.ofList cs)) := by
  have hcs := (splitAtLast_spec hlast).1
  have hhost : upTo? (String.ofList cs) (size before) = some (String.ofList before) := by
    rw [hcs, upTo?_size]
  have hwhole : from? (String.ofList cs) 0 = some (String.ofList cs) := from?_size [] cs
  have hport : from? (String.ofList cs) (size before + 1) = some (String.ofList after) := by
    rw [hcs, List.append_cons, ← size_concat (c := ':') rfl, from?_size]
  have hopen : '[' ∈ cs ↔ '[' ∈ before ∨ '[' ∈ after := by
    rw [hcs, mem_append_cons_iff (by decide)]
  have hclose : ']' ∈ cs ↔ ']' ∈ before ∨ ']' ∈ after := by
    rw [hcs, mem_append_cons_iff (by decide)]
  simp only [splitAtOffsets, String.toList_ofList, split_ofList, splitChars_plain hhead hlast,
    lastOffset_eq, hlast, Option.map_some, if_neg hhead, hhost, partsAt_eq hwhole hwhole hport,
    Option.bind_eq_bind, Option.bind_some, Option.pure_def, splitPlain, ← hopen, ← hclose,
    apply_ite (outcome _), outcome_ok, outcome_error, apply_ite some]

/-- Cut behind the first closing bracket. -/
theorem append_close (host tail : List Char) :
    '[' :: host ++ ']' :: tail = ('[' :: host ++ [']']) ++ tail := by
  rw [List.append_assoc]
  rfl

theorem size_close (host : List Char) : size ('[' :: host) + 1 = size ('[' :: host ++ [']']) :=
  (size_concat rfl _).symm

theorem partsInBrackets_fit (host port : List Char) :
    partsInBrackets (String.ofList ('[' :: host ++ ']' :: ':' :: port)) (size ('[' :: host) + 1)
        (size ('[' :: host)) =
      some (if '[' ∈ host ∨ '[' ∈ port then
          .error ⟨String.ofList ('[' :: host ++ ']' :: ':' :: port), .unexpected '['⟩
        else if ']' ∈ port then
          .error ⟨String.ofList ('[' :: host ++ ']' :: ':' :: port), .unexpected ']'⟩
        else .ok ⟨String.ofList host, String.ofList port⟩) := by
  have hhost : between? (String.ofList ('[' :: host ++ ']' :: ':' :: port)) 1
      (size ('[' :: host)) = some (String.ofList host) :=
    between?_size ['['] host (']' :: ':' :: port)
  have hopening : from? (String.ofList ('[' :: host ++ ']' :: ':' :: port)) 1 =
      some (String.ofList (host ++ ']' :: ':' :: port)) :=
    from?_size ['['] (host ++ ']' :: ':' :: port)
  have hclosing : from? (String.ofList ('[' :: host ++ ']' :: ':' :: port))
      (size ('[' :: host) + 1) = some (String.ofList (':' :: port)) := by
    rw [size_close, append_close, from?_size]
  have hport : from? (String.ofList ('[' :: host ++ ']' :: ':' :: port))
      (size ('[' :: host) + 1 + 1) = some (String.ofList port) := by
    rw [size_close, append_close, List.append_cons, ← size_concat (c := ':') rfl, from?_size]
  rw [partsInBrackets, if_pos rfl, hhost, Option.bind_eq_bind, Option.bind_some,
    partsAt_eq hopening hclosing hport]
  simp only [String.toList_ofList, List.mem_append, List.mem_cons, Char.reduceEq, false_or]

theorem partsInBrackets_end {lastColon : Nat} (hmisfit : size ('[' :: host) + 1 ≠ lastColon) :
    partsInBrackets (String.ofList ('[' :: host ++ [']'])) lastColon (size ('[' :: host)) =
      some (.error ⟨String.ofList ('[' :: host ++ [']']), .missingPort⟩) := by
  rw [partsInBrackets, if_neg hmisfit]
  exact if_pos (size_close host)

theorem partsInBrackets_misfit {lastColon : Nat} {next : Char} {tail : List Char}
    (hmisfit : size ('[' :: host) + 1 ≠ lastColon) :
    partsInBrackets (String.ofList ('[' :: host ++ ']' :: next :: tail)) lastColon
        (size ('[' :: host)) =
      some (.error ⟨String.ofList ('[' :: host ++ ']' :: next :: tail),
        if next = ':' then .tooManyColons else .missingPort⟩) := by
  have hend : size ('[' :: host) + 1 ≠
      (String.ofList ('[' :: host ++ ']' :: next :: tail)).utf8ByteSize := by
    -- Whatever follows the bracket takes up a byte at least.
    have hpos := next.utf8Size_pos
    rw [utf8ByteSize_ofList, append_close host (next :: tail), size_append _ (next :: tail),
      size_cons next tail, size_close]
    omega
  rw [partsInBrackets, if_neg hmisfit, if_neg hend, size_close, append_close, byte?_size]
  rcases head_utf8EncodeChar next with ⟨x, hx, -⟩
  have hcolon := head_utf8EncodeChar_iff (c := next) (d := ':') (by decide)
  rw [hx, Option.some.injEq] at hcolon
  simp only [hx, hcolon, Option.bind_eq_bind, Option.bind_some, Option.pure_def]

/-- The closing bracket stands right in front of the last colon exactly if a
    colon follows it and none follows that colon. -/
theorem close_before_colon_iff {tail : List Char}
    (hlast : splitAtLast ':' ('[' :: host ++ ']' :: tail) = some (before, after)) :
    size ('[' :: host) + 1 = size before ↔ ∃ port, tail = ':' :: port ∧ ':' ∉ port := by
  rw [append_close] at hlast
  rw [size_close]
  rcases splitAtLast_spec hlast with ⟨hcs, hafter⟩
  constructor
  · intro hsize
    -- Two cuts of one address at the same offset are the same cut.
    exact ⟨after, (append_inj_of_size hcs hsize).2, hafter⟩
  · rintro ⟨port, rfl, hport⟩
    rw [splitAtLast_append hport, Option.some.injEq, Prod.mk.injEq] at hlast
    exact congrArg size hlast.1

/-- What stands behind the closing bracket decides, with and without offsets. -/
theorem partsInBrackets_eq {tail : List Char} (hhost : ']' ∉ host)
    (hlast : splitAtLast ':' ('[' :: host ++ ']' :: tail) = some (before, after)) :
    partsInBrackets (String.ofList ('[' :: host ++ ']' :: tail)) (size before)
        (size ('[' :: host)) =
      some (outcome (String.ofList ('[' :: host ++ ']' :: tail))
        (splitBracketed (host ++ ']' :: tail))) := by
  have hfit := close_before_colon_iff hlast
  simp only [splitBracketed, splitAtFirst_append hhost]
  cases tail with
  | nil =>
      -- Nothing stands behind the bracket.
      have hmisfit : size ('[' :: host) + 1 ≠ size before := fun heq => by
        rcases hfit.mp heq with ⟨port, hport, -⟩
        simp only [reduceCtorEq] at hport
      rw [partsInBrackets_end hmisfit, outcome_error]
  | cons next port =>
      by_cases hfits : next = ':' ∧ ':' ∉ port
      · rcases hfits with ⟨rfl, hcolon⟩
        rw [← hfit.mpr ⟨port, rfl, hcolon⟩, partsInBrackets_fit]
        simp only [ne_eq, not_true_eq_false, if_false, hcolon, apply_ite (outcome _), outcome_ok,
          outcome_error]
      · have hmisfit : size ('[' :: host) + 1 ≠ size before := fun heq => by
          rcases hfit.mp heq with ⟨port', hport, hcolon⟩
          rcases List.cons.inj hport with ⟨rfl, rfl⟩
          exact hfits ⟨rfl, hcolon⟩
        rw [partsInBrackets_misfit hmisfit]
        by_cases hnext : next = ':'
        · -- A colon follows, so it is not the last one.
          have hcolon : ':' ∈ port := Decidable.not_not.mp fun hnot => hfits ⟨hnext, hnot⟩
          simp only [hnext, ne_eq, not_true_eq_false, if_true, if_false, hcolon, outcome_error]
        · simp only [hnext, ne_eq, not_false_eq_true, if_true, if_false, outcome_error]

theorem splitAtOffsets_bracketed (hlast : splitAtLast ':' ('[' :: rest) = some (before, after)) :
    splitAtOffsets (String.ofList ('[' :: rest)) =
      some (split (String.ofList ('[' :: rest))) := by
  have hfirst : splitAtFirst ']' ('[' :: rest) =
      (splitAtFirst ']' rest).map fun found => ('[' :: found.1, found.2) := by
    rw [splitAtFirst, if_neg (by decide)]
  simp only [splitAtOffsets, String.toList_ofList, split_ofList, splitChars_bracketed hlast,
    lastOffset_eq, firstOffset_eq, hlast, hfirst, Option.map_some, List.head?_cons, if_true]
  cases hclose : splitAtFirst ']' rest with
  | none => simp only [hclose, Option.map_none, splitBracketed, outcome_error]
  | some found =>
      rcases found with ⟨host, tail⟩
      rcases splitAtFirst_spec hclose with ⟨rfl, hhost⟩
      exact partsInBrackets_eq hhost hlast

/-- Cutting at offsets never fails, and comes to the same as going by
    characters. -/
theorem splitAtOffsets_eq (address : String) : splitAtOffsets address = some (split address) := by
  obtain ⟨cs, rfl⟩ : ∃ cs, address = String.ofList cs := ⟨_, String.ofList_toList.symm⟩
  cases hlast : splitAtLast ':' cs with
  | none =>
      simp only [splitAtOffsets, String.toList_ofList, lastOffset_eq, hlast, Option.map_none,
        split_ofList, splitChars, outcome_error]
  | some found =>
      by_cases hhead : cs.head? = some '['
      · rcases List.head?_eq_some_iff.mp hhead with ⟨rest, rfl⟩
        exact splitAtOffsets_bracketed hlast
      · exact splitAtOffsets_plain hhead hlast

/-- An address is taken apart if and only if the grammar has it, into the parts
    the grammar gives; any other is handed back with what is wrong with it.
    Whatever the address is, no cut and no byte that is looked at lies beyond
    its end or inside a character. -/
theorem split_grammar (address : String) :
    (∀ host port, splitAtOffsets address = some (.ok ⟨host, port⟩) ↔ Forms host port address) ∧
    ((¬∃ host port, Forms host port address) →
      ∃ fault, splitAtOffsets address = some (.error ⟨address, fault⟩)) ∧
    splitAtOffsets address = some (split address) := by
  have hsplit := splitAtOffsets_eq address
  refine ⟨fun host port => ?_, fun hnone => ?_, hsplit⟩
  · rw [hsplit, Option.some.injEq, split_ok_iff]
  · cases hresult : split address with
    | ok parts => exact absurd ⟨parts.host, parts.port, split_ok_iff.mp hresult⟩ hnone
    | error e =>
        have haddress := error_address hresult
        exact ⟨e.fault, by rw [hsplit, hresult, ← haddress]⟩

end ChainSync.Address
