import ChainSync.Codec.Base64
import ChainSync.Proofs.Codec.Hex
import Mathlib.Tactic.LinearCombination

/-!
# Base 64 Texts

Which texts are base 64, and what they are the symbols of.

Bytes and symbols do not match one by one, so the values of the symbols stand between
them. On one side they are the bits of the bytes, regrouped by six. That side is
arithmetic, and it is a bijection onto the canonical lists of values: those where what is
missing from the last group is made up by padding, and where no bit is set that belongs
to no byte (`sixes_joined`, `joined_sixes`). On the other side each of them is a symbol.
There the reader looks for the padding by many checks in an order of its own, but what it
lets pass is always the symbols of a list of values and then padding.

Together a text is read as some bytes only if it is what is written for them. What is
written stands for the number of the bytes, in a base of 64 (`written_encode`).

## Main definitions

* `Base64.sixes`, `Base64.joined`: Bytes to values and back.
* `Base64.padding`: How many places of the last group are empty.
* `Base64.Canonical`: Values and padding that bytes can have.
* `Base64.spelled`: The bytes of the text of values and padding.
* `Base64.Written`: The text of some bytes.

## Theorems

* `Base64.symbolValue?_eq_some_iff`: Symbols and their values.
* `Base64.canonical_sixes`, `Base64.joined_sixes`, `Base64.sixes_joined`: Regrouping.
* `Base64.readTail_eq_ok`, `Base64.finishTail_eq_ok`: The last group.
* `Base64.decodeGroups_eq_ok_iff`: Reading finds values and padding.
* `Base64.written_encode`: What is written.
* `Base64.decode_eq_ok_iff`: What is read is what is written.
* `Base64.decode_isOk_iff`: The base 64 texts.
* `codecs_invert`: Both ways to write bytes are read back exactly.
-/

namespace ChainSync.Base64

open Codec (bigEndian map_eq_ok_iff)

/-! ## Symbols -/

theorem toNat_symbol {v : Nat} (hv : v < 64) : (symbol v).toNat =
    if v < 26 then 65 + v else if v < 52 then 71 + v else if v < 62 then v - 4
    else if v = 62 then 43 else 47 := by
  unfold symbol
  split_ifs
  · exact Text.toNat_ofNat (by omega)
  · exact Text.toNat_ofNat (by omega)
  · exact Text.toNat_ofNat (by omega)
  · rfl
  · rfl

example : (List.range 64).map symbol =
    "ABCDEFGHIJKLMNOPQRSTUVWXYZabcdefghijklmnopqrstuvwxyz0123456789+/".toList := by decide

theorem symbol_lt {v : Nat} (hv : v < 64) : (symbol v).toNat < 128 := by
  rw [toNat_symbol hv]
  split_ifs <;> omega

theorem symbolValue?_eq_some_iff {b : UInt8} {v : Nat} :
    symbolValue? b = some v ↔ v < 64 ∧ b = (symbol v).toUInt8 := by
  have hbyte : v < 64 → (b = (symbol v).toUInt8 ↔ b.toNat = (symbol v).toNat) := by
    intro hv
    rw [← UInt8.toNat_inj, Text.toNat_toUInt8 (symbol_lt hv)]
  unfold symbolValue?
  simp only
  constructor
  · intro h
    have hv : v < 64 := by
      split_ifs at h <;> (cases h; omega)
    refine ⟨hv, (hbyte hv).mpr ?_⟩
    rw [toNat_symbol hv]
    split_ifs at h ⊢ <;> (cases h; omega)
  · rintro ⟨hv, hb⟩
    rw [hbyte hv, toNat_symbol hv] at hb
    split_ifs at hb ⊢ <;> (try rw [Option.some.injEq]) <;> omega

theorem symbolValue?_symbol {v : Nat} (hv : v < 64) :
    symbolValue? (symbol v).toUInt8 = some v :=
  symbolValue?_eq_some_iff.mpr ⟨hv, rfl⟩

theorem symbol_ne_pad {v : Nat} (hv : v < 64) : (symbol v).toUInt8 ≠ pad := by
  intro h
  have hvalue := symbolValue?_symbol hv
  rw [h] at hvalue
  exact nomatch hvalue

/-! ## Regrouping -/

/-- The bits of some bytes by six, with zeros behind the last of them. -/
def sixes : List UInt8 → List Nat
  | [] => []
  | [a] => [a.toNat / 4, a.toNat % 4 * 16]
  | [a, b] => [a.toNat / 4, a.toNat % 4 * 16 + b.toNat / 16, b.toNat % 16 * 4]
  | a :: b :: c :: rest =>
    a.toNat / 4 :: (a.toNat % 4 * 16 + b.toNat / 16) :: (b.toNat % 16 * 4 + c.toNat / 64)
      :: c.toNat % 64 :: sixes rest

/-- The bytes of some values, each put together from two of them. -/
def joined : List Nat → List UInt8
  | p :: q :: r :: s :: rest =>
    UInt8.ofNat (p * 4 + q / 16) :: UInt8.ofNat (q % 16 * 16 + r / 4)
      :: UInt8.ofNat (r % 4 * 64 + s) :: joined rest
  | [p, q, r] => [UInt8.ofNat (p * 4 + q / 16), UInt8.ofNat (q % 16 * 16 + r / 4)]
  | [p, q] => [UInt8.ofNat (p * 4 + q / 16)]
  | _ => []

/-- The places of the last group that hold no value. -/
def padding (bytes : List UInt8) : Nat := (3 - bytes.length % 3) % 3

/-- Values and padding that some bytes have: whole groups of four, and no bits set in the
    last value but those of a byte. -/
structure Canonical (values : List Nat) (pads : Nat) : Prop where
  bits : ∀ v ∈ values, v < 64
  full : (values.length + pads) % 4 = 0
  few : pads ≤ 2
  unused : ∀ v ∈ values.getLast?, v % 4 ^ pads = 0

theorem Canonical.nil : Canonical [] 0 := ⟨by simp, rfl, by decide, by simp⟩

/-- One group more in front. -/
theorem canonical_group_iff {p q r s pads : Nat} {rest : List Nat} :
    Canonical (p :: q :: r :: s :: rest) pads ↔
      (p < 64 ∧ q < 64 ∧ r < 64 ∧ s < 64) ∧ Canonical rest pads := by
  constructor
  · rintro ⟨hbits, hfull, hfew, hunused⟩
    simp only [List.mem_cons, forall_eq_or_imp] at hbits
    refine ⟨⟨hbits.1, hbits.2.1, hbits.2.2.1, hbits.2.2.2.1⟩, hbits.2.2.2.2, ?_, hfew, ?_⟩
    · simp only [List.length_cons] at hfull
      omega
    · cases rest with
      | nil => simp
      | cons v rest => simpa only [List.getLast?_cons_cons] using hunused
  · rintro ⟨⟨hp, hq, hr, hs⟩, hbits, hfull, hfew, hunused⟩
    refine ⟨?_, ?_, hfew, ?_⟩
    · simp only [List.mem_cons, forall_eq_or_imp]
      exact ⟨hp, hq, hr, hs, hbits⟩
    · simp only [List.length_cons]
      omega
    · cases rest with
      | nil =>
          -- Without a last group there is no padding either.
          have hpads : pads = 0 := by
            simp only [List.length_nil] at hfull
            omega
          simp [hpads, Nat.mod_one]
      | cons v rest => simpa only [List.getLast?_cons_cons] using hunused

theorem padding_one (a : UInt8) : padding [a] = 2 := rfl

theorem padding_two (a b : UInt8) : padding [a, b] = 1 := rfl

theorem padding_group (a b c : UInt8) (rest : List UInt8) :
    padding (a :: b :: c :: rest) = padding rest := by
  unfold padding
  simp only [List.length_cons]
  omega

theorem canonical_one_iff {p q : Nat} :
    Canonical [p, q] 2 ↔ p < 64 ∧ q < 64 ∧ q % 16 = 0 := by
  constructor
  · rintro ⟨hbits, _, _, hunused⟩
    simp only [List.mem_cons, forall_eq_or_imp] at hbits
    exact ⟨hbits.1, hbits.2.1, hunused q rfl⟩
  · rintro ⟨hp, hq, hunused⟩
    exact ⟨by simp [hp, hq], by simp, by decide, by simpa using hunused⟩

theorem canonical_two_iff {p q r : Nat} :
    Canonical [p, q, r] 1 ↔ p < 64 ∧ q < 64 ∧ r < 64 ∧ r % 4 = 0 := by
  constructor
  · rintro ⟨hbits, _, _, hunused⟩
    simp only [List.mem_cons, forall_eq_or_imp] at hbits
    exact ⟨hbits.1, hbits.2.1, hbits.2.2.1, hunused r rfl⟩
  · rintro ⟨hp, hq, hr, hunused⟩
    exact ⟨by simp [hp, hq, hr], by simp, by decide, by simpa using hunused⟩

theorem canonical_sixes (bytes : List UInt8) : Canonical (sixes bytes) (padding bytes) := by
  fun_induction sixes bytes with
  | case1 => exact Canonical.nil
  | case2 a =>
      have ha := a.toNat_lt
      rw [padding_one, canonical_one_iff]
      omega
  | case3 a b =>
      have ha := a.toNat_lt
      have hb := b.toNat_lt
      rw [padding_two, canonical_two_iff]
      omega
  | case4 a b c rest ih =>
      have ha := a.toNat_lt
      have hb := b.toNat_lt
      have hc := c.toNat_lt
      rw [padding_group, canonical_group_iff]
      exact ⟨by omega, ih⟩

/-- What is written are the symbols of the values and the padding. -/
theorem symbols_eq (bytes : List UInt8) : symbols bytes =
    (sixes bytes).map symbol ++ List.replicate (padding bytes) '=' := by
  fun_induction sixes bytes with
  | case1 => rfl
  | case2 a => rfl
  | case3 a b =>
      have hb := b.toNat_lt
      simp only [symbols, List.map_cons, List.map_nil]
      rw [show (a.toNat * 256 + b.toNat) / 1024 = a.toNat / 4 by omega,
        show (a.toNat * 256 + b.toNat) / 16 % 64 = a.toNat % 4 * 16 + b.toNat / 16 by omega,
        show (a.toNat * 256 + b.toNat) % 16 = b.toNat % 16 by omega]
      rfl
  | case4 a b c rest ih =>
      have hb := b.toNat_lt
      have hc := c.toNat_lt
      -- The three bytes are written as one number.
      generalize hn : a.toNat * 65536 + b.toNat * 256 + c.toNat = n
      have hp : n / 262144 = a.toNat / 4 := by omega
      have hq : n / 4096 % 64 = a.toNat % 4 * 16 + b.toNat / 16 := by omega
      have hr : n / 64 % 64 = b.toNat % 16 * 4 + c.toNat / 64 := by omega
      have hs : n % 64 = c.toNat % 64 := by omega
      simp only [symbols, List.map_cons, List.cons_append, padding_group, ih, hn, hp, hq, hr, hs]

theorem length_sixes (bytes : List UInt8) :
    3 * (sixes bytes).length = 4 * bytes.length + padding bytes := by
  fun_induction sixes bytes with
  | case1 => rfl
  | case2 a => rfl
  | case3 a b => rfl
  | case4 a b c rest ih =>
      rw [padding_group]
      simp only [List.length_cons]
      omega

/-- The values stand for the number the bytes stand for, with two zero bits behind it for
    each place that is empty. -/
theorem bigEndian_sixes (bytes : List UInt8) :
    bigEndian 64 (sixes bytes) = bigEndian 256 (bytes.map UInt8.toNat) * 4 ^ padding bytes := by
  fun_induction sixes bytes with
  | case1 => rfl
  | case2 a =>
      have ha := a.toNat_lt
      simp only [bigEndian, padding_one, List.map_cons, List.map_nil, List.length_cons,
        List.length_nil]
      omega
  | case3 a b =>
      have ha := a.toNat_lt
      have hb := b.toNat_lt
      simp only [bigEndian, padding_two, List.map_cons, List.map_nil, List.length_cons,
        List.length_nil]
      omega
  | case4 a b c rest ih =>
      have hplace : (64 : Nat) ^ (sixes rest).length = 256 ^ rest.length * 4 ^ padding rest := by
        rw [show (64 : Nat) = 4 ^ 3 from rfl, show (256 : Nat) = 4 ^ 4 from rfl, ← pow_mul,
          ← pow_mul, ← pow_add, length_sixes]
      have hgroup : ((a.toNat / 4 * 64 + (a.toNat % 4 * 16 + b.toNat / 16)) * 64 +
          (b.toNat % 16 * 4 + c.toNat / 64)) * 64 + c.toNat % 64 =
            (a.toNat * 256 + b.toNat) * 256 + c.toNat := by
        omega
      simp only [bigEndian, padding_group, List.map_cons, List.length_cons, List.length_map,
        pow_succ, hplace, ih]
      -- Nothing is known of the quotients but what they add up to.
      generalize a.toNat / 4 = p at hgroup ⊢
      generalize a.toNat % 4 * 16 + b.toNat / 16 = q at hgroup ⊢
      generalize b.toNat % 16 * 4 + c.toNat / 64 = r at hgroup ⊢
      generalize c.toNat % 64 = s at hgroup ⊢
      linear_combination 256 ^ rest.length * 4 ^ padding rest * hgroup

theorem ofNat_eq {b : UInt8} {n : Nat} (h : n = b.toNat) : UInt8.ofNat n = b := by
  rw [h, UInt8.ofNat_toNat]

theorem joined_sixes (bytes : List UInt8) : joined (sixes bytes) = bytes := by
  fun_induction sixes bytes with
  | case1 => rfl
  | case2 a =>
      have ha := a.toNat_lt
      simp only [joined]
      rw [ofNat_eq (b := a) (by omega)]
  | case3 a b =>
      have ha := a.toNat_lt
      have hb := b.toNat_lt
      simp only [joined]
      rw [ofNat_eq (b := a) (by omega), ofNat_eq (b := b) (by omega)]
  | case4 a b c rest ih =>
      have ha := a.toNat_lt
      have hb := b.toNat_lt
      have hc := c.toNat_lt
      simp only [joined, ih]
      rw [ofNat_eq (b := a) (by omega), ofNat_eq (b := b) (by omega), ofNat_eq (b := c) (by omega)]

/-- Canonical values are whole groups and then at most one that is filled up. -/
@[elab_as_elim]
theorem Canonical.induction
    {motive : (values : List Nat) → (pads : Nat) → Canonical values pads → Prop}
    (nil : motive [] 0 Canonical.nil)
    (one : ∀ p q h, motive [p, q] 2 h)
    (two : ∀ p q r h, motive [p, q, r] 1 h)
    (group : ∀ p q r s rest pads h (hrest : Canonical rest pads), motive rest pads hrest →
      motive (p :: q :: r :: s :: rest) pads h)
    {values : List Nat} {pads : Nat} (h : Canonical values pads) : motive values pads h := by
  have hfull := h.full
  have hfew := h.few
  match values with
  | [] =>
      obtain rfl : pads = 0 := by
        simp only [List.length_nil] at hfull
        omega
      exact nil
  | [_] =>
      simp only [List.length_singleton] at hfull
      omega
  | [p, q] =>
      obtain rfl : pads = 2 := by
        simp only [List.length_cons, List.length_nil] at hfull
        omega
      exact one p q h
  | [p, q, r] =>
      obtain rfl : pads = 1 := by
        simp only [List.length_cons, List.length_nil] at hfull
        omega
      exact two p q r h
  | p :: q :: r :: s :: rest =>
      have hrest := (canonical_group_iff.mp h).2
      exact group p q r s rest pads h hrest (Canonical.induction nil one two group hrest)

theorem toNat_ofNat {n : Nat} (hn : n < 256) : (UInt8.ofNat n).toNat = n := Nat.mod_eq_of_lt hn

theorem sixes_joined {values : List Nat} {pads : Nat} (h : Canonical values pads) :
    sixes (joined values) = values ∧ padding (joined values) = pads := by
  induction h using Canonical.induction with
  | nil => exact ⟨rfl, rfl⟩
  | one p q h =>
      rcases canonical_one_iff.mp h with ⟨hp, hq, hunused⟩
      have ha := toNat_ofNat (show p * 4 + q / 16 < 256 by omega)
      rw [joined, sixes, ha]
      refine ⟨?_, padding_one _⟩
      rw [show (p * 4 + q / 16) / 4 = p by omega, show (p * 4 + q / 16) % 4 * 16 = q by omega]
  | two p q r h =>
      rcases canonical_two_iff.mp h with ⟨hp, hq, hr, hunused⟩
      have ha := toNat_ofNat (show p * 4 + q / 16 < 256 by omega)
      have hb := toNat_ofNat (show q % 16 * 16 + r / 4 < 256 by omega)
      refine ⟨?_, padding_two _ _⟩
      rw [joined]
      generalize UInt8.ofNat (p * 4 + q / 16) = a at ha ⊢
      generalize UInt8.ofNat (q % 16 * 16 + r / 4) = b at hb ⊢
      rw [sixes, show a.toNat / 4 = p by omega,
        show a.toNat % 4 * 16 + b.toNat / 16 = q by omega, show b.toNat % 16 * 4 = r by omega]
  | group p q r s rest pads h hrest ih =>
      rcases (canonical_group_iff.mp h).1 with ⟨hp, hq, hr, hs⟩
      have ha := toNat_ofNat (show p * 4 + q / 16 < 256 by omega)
      have hb := toNat_ofNat (show q % 16 * 16 + r / 4 < 256 by omega)
      have hc := toNat_ofNat (show r % 4 * 64 + s < 256 by omega)
      refine ⟨?_, (padding_group _ _ _ _).trans ih.2⟩
      rw [joined]
      generalize UInt8.ofNat (p * 4 + q / 16) = a at ha ⊢
      generalize UInt8.ofNat (q % 16 * 16 + r / 4) = b at hb ⊢
      generalize UInt8.ofNat (r % 4 * 64 + s) = c at hc ⊢
      rw [sixes, ih.1, show a.toNat / 4 = p by omega,
        show a.toNat % 4 * 16 + b.toNat / 16 = q by omega,
        show b.toNat % 16 * 4 + c.toNat / 64 = r by omega, show c.toNat % 64 = s by omega]

/-! ## Reading -/

/-- The bytes of the text of some values and padding. -/
def spelled (values : List Nat) (pads : Nat) : List UInt8 :=
  values.map (fun v => (symbol v).toUInt8) ++ List.replicate pads pad

theorem spelled_cons (v : Nat) (values : List Nat) (pads : Nat) :
    spelled (v :: values) pads = (symbol v).toUInt8 :: spelled values pads := rfl

theorem length_spelled (values : List Nat) (pads : Nat) :
    (spelled values pads).length = values.length + pads := by
  simp [spelled]

/-- What is read of the last group are symbols and then padding, by induction on what is
    left of it. -/
theorem readTail_eq_ok {offset index : Nat} {tail read : Tail} {bs : List UInt8}
    (h : readTail offset index tail bs = .ok read) :
    ∃ values pads, read.values = tail.values ++ values ∧ read.pads = tail.pads + pads ∧
      (∀ v ∈ values, v < 64) ∧ bs = spelled values pads ∧ (tail.pads ≠ 0 → values = []) := by
  fun_induction readTail offset index tail bs with
  | case1 =>
      cases h
      exact ⟨[], 0, by simp, rfl, by simp, rfl, fun _ => rfl⟩
  | case2 => exact nomatch h
  | case3 index tail rest hindex padStart ih =>
      rcases ih h with ⟨values, pads, hvalues, hpads, hbits, hrest, hnone⟩
      -- Behind padding there are no symbols any more.
      obtain rfl : values = [] := hnone (Nat.succ_ne_zero _)
      refine ⟨[], pads + 1, hvalues, ?_, hbits, ?_, fun _ => rfl⟩
      · simp only at hpads
        omega
      · rw [hrest]
        rfl
  | case4 => exact nomatch h
  | case5 => exact nomatch h
  | case6 index tail b rest _ hpad v hvalue ih =>
      rcases ih h with ⟨values, pads, hvalues, hpads, hbits, hrest, _⟩
      rcases symbolValue?_eq_some_iff.mp hvalue with ⟨hv, rfl⟩
      refine ⟨v :: values, pads, ?_, hpads, ?_, ?_, fun h => absurd h hpad⟩
      · rw [hvalues, List.append_assoc, List.singleton_append]
      · simp only [List.mem_cons, forall_eq_or_imp]
        exact ⟨hv, hbits⟩
      · rw [hrest, spelled_cons]

/-- The last group is accepted if it is filled up and stands for bytes. -/
theorem finishTail_eq_ok {offset : Nat} {tail : Tail} {bytes : List UInt8}
    (hbits : ∀ v ∈ tail.values, v < 64) (hshort : tail.values.length + tail.pads ≤ 4)
    (h : finishTail offset tail = .ok bytes) :
    Canonical tail.values tail.pads ∧ bytes = joined tail.values := by
  obtain ⟨values, lastSymbol, padStart, pads⟩ := tail
  unfold finishTail at h
  simp only at h hbits hshort ⊢
  split_ifs at h with hcount hfull
  -- At least two symbols, at most four places and all of them taken.
  have hpads : values.length + pads = 4 := by omega
  clear hcount hfull hshort
  split at h
  · next a b =>
      obtain rfl : pads = 2 := Nat.add_left_cancel hpads
      simp only [List.mem_cons, forall_eq_or_imp] at hbits
      split_ifs at h with hunused
      cases h
      exact ⟨canonical_one_iff.mpr ⟨hbits.1, hbits.2.1, not_not.mp hunused⟩, rfl⟩
  · next a b c =>
      obtain rfl : pads = 1 := Nat.add_left_cancel hpads
      simp only [List.mem_cons, forall_eq_or_imp] at hbits
      split_ifs at h with hunused
      cases h
      exact ⟨canonical_two_iff.mpr ⟨hbits.1, hbits.2.1, hbits.2.2.1, not_not.mp hunused⟩, rfl⟩
  · next a b c d =>
      obtain rfl : pads = 0 := Nat.add_left_cancel hpads
      simp only [List.mem_cons, forall_eq_or_imp] at hbits
      cases h
      exact ⟨canonical_group_iff.mpr
        ⟨⟨hbits.1, hbits.2.1, hbits.2.2.1, hbits.2.2.2.1⟩, Canonical.nil⟩, rfl⟩
  · exact nomatch h

/-- A last group is read on its own. -/
theorem decodeGroups_short (offset : Nat) {bs : List UInt8} (h : bs.length ≤ 4) :
    decodeGroups offset bs = (readTail offset 0 {} bs).bind (finishTail offset) := by
  unfold decodeGroups
  split
  · simp only [List.length_cons] at h
    omega
  · rfl

/-- What is read of the groups is canonical, by induction on the groups. -/
theorem decodeGroups_eq_ok {offset : Nat} {bs bytes : List UInt8}
    (h : decodeGroups offset bs = .ok bytes) :
    ∃ values pads, Canonical values pads ∧ bs = spelled values pads ∧ bytes = joined values := by
  fun_induction decodeGroups offset bs generalizing bytes with
  | case1 => exact nomatch h
  | case2 => exact nomatch h
  | case3 => exact nomatch h
  | case4 => exact nomatch h
  | case5 _ _ _ _ _ _ _ p q r s hs hr hq hp ih =>
      rcases map_eq_ok_iff.mp h with ⟨bytes', hok, rfl⟩
      rcases ih hok with ⟨values, pads, hcanonical, hrest, rfl⟩
      obtain ⟨hp', rfl⟩ := symbolValue?_eq_some_iff.mp hp
      obtain ⟨hq', rfl⟩ := symbolValue?_eq_some_iff.mp hq
      obtain ⟨hr', rfl⟩ := symbolValue?_eq_some_iff.mp hr
      obtain ⟨hs', rfl⟩ := symbolValue?_eq_some_iff.mp hs
      refine ⟨p :: q :: r :: s :: values, pads, ?_, ?_, rfl⟩
      · exact canonical_group_iff.mpr ⟨⟨hp', hq', hr', hs'⟩, hcanonical⟩
      · rw [hrest]
        rfl
  | case6 offset bs hlast =>
      have hshort : bs.length ≤ 4 := by
        rcases bs with _ | ⟨a, _ | ⟨b, _ | ⟨c, _ | ⟨d, _ | ⟨e, rest⟩⟩⟩⟩⟩
        · decide
        · simp
        · simp
        · simp
        · simp
        · exact absurd rfl (hlast a b c d e rest)
      cases hread : readTail offset 0 {} bs with
      | error why =>
          rw [hread] at h
          exact nomatch h
      | ok read =>
          rw [hread] at h
          rcases readTail_eq_ok hread with ⟨values, pads, hvalues, hpads, hbits, hbs, _⟩
          obtain rfl : read.values = values := hvalues
          obtain rfl : read.pads = pads := by rw [hpads, Nat.zero_add]
          rw [hbs, length_spelled] at hshort
          rcases finishTail_eq_ok hbits hshort h with ⟨hcanonical, hbytes⟩
          exact ⟨_, _, hcanonical, hbs, hbytes⟩

variable {offset index v : Nat} {tail : Tail} {rest : List UInt8}

theorem readTail_symbol (hv : v < 64) (hpads : tail.pads = 0) :
    readTail offset index tail ((symbol v).toUInt8 :: rest) =
      readTail offset (index + 1)
        { tail with values := tail.values ++ [v], lastSymbol := (symbol v).toUInt8 } rest := by
  rw [readTail, if_neg (symbol_ne_pad hv), if_neg (not_not.mpr hpads), symbolValue?_symbol hv]

theorem readTail_pad (hindex : 2 ≤ index) :
    readTail offset index tail (pad :: rest) =
      readTail offset (index + 1) { tail with
        padStart := if tail.pads = 0 then index else tail.padStart
        pads := tail.pads + 1 } rest := by
  rw [readTail, if_pos rfl, if_neg (Nat.not_lt.mpr hindex)]

/-- What is canonical is read. -/
theorem decodeGroups_spelled {values : List Nat} {pads : Nat} (h : Canonical values pads)
    (hsome : values ≠ []) (offset : Nat) :
    decodeGroups offset (spelled values pads) = .ok (joined values) := by
  induction h using Canonical.induction generalizing offset with
  | nil => exact absurd rfl hsome
  | one p q h =>
      rcases canonical_one_iff.mp h with ⟨hp, hq, hunused⟩
      rw [decodeGroups_short offset (by simp [spelled])]
      simp only [spelled, List.map_cons, List.map_nil, List.cons_append, List.nil_append,
        List.replicate]
      rw [readTail_symbol hp rfl, readTail_symbol hq rfl, readTail_pad (by decide),
        readTail_pad (by decide)]
      simp [readTail, Except.bind, finishTail, hunused, joined]
  | two p q r h =>
      rcases canonical_two_iff.mp h with ⟨hp, hq, hr, hunused⟩
      rw [decodeGroups_short offset (by simp [spelled])]
      simp only [spelled, List.map_cons, List.map_nil, List.cons_append, List.nil_append,
        List.replicate]
      rw [readTail_symbol hp rfl, readTail_symbol hq rfl, readTail_symbol hr rfl,
        readTail_pad (by decide)]
      simp [readTail, Except.bind, finishTail, hunused, joined]
  | group p q r s rest pads h hrest ih =>
      rcases (canonical_group_iff.mp h).1 with ⟨hp, hq, hr, hs⟩
      cases rest with
      | nil =>
          -- The last group is full, so nothing follows its symbols.
          obtain rfl : pads = 0 := by
            have hfull := hrest.full
            have hfew := hrest.few
            simp only [List.length_nil] at hfull
            omega
          rw [decodeGroups_short offset (by simp [spelled])]
          simp only [spelled, List.map_cons, List.map_nil, List.replicate, List.append_nil]
          rw [readTail_symbol hp rfl, readTail_symbol hq rfl, readTail_symbol hr rfl,
            readTail_symbol hs rfl]
          simp [readTail, Except.bind, finishTail, joined]
      | cons v rest =>
          have hok := ih (by simp) (offset + 4)
          rw [spelled_cons] at hok
          simp only [spelled_cons, decodeGroups, symbolValue?_symbol hp, symbolValue?_symbol hq,
            symbolValue?_symbol hr, symbolValue?_symbol hs, hok]
          rfl

/-! ## Texts -/

theorem toUTF8_spelled {values : List Nat} {pads : Nat} (h : ∀ v ∈ values, v < 64) :
    (String.ofList (values.map symbol ++ List.replicate pads '=')).toUTF8.toList =
      spelled values pads := by
  rw [Text.toUTF8_of_ascii, String.toList_ofList, List.map_append, List.map_map,
    List.map_replicate]
  · rfl
  · rw [String.toList_ofList]
    intro c hc
    rcases List.mem_append.mp hc with hsymbol | hpad
    · rcases List.mem_map.mp hsymbol with ⟨v, hv, rfl⟩
      exact symbol_lt (h v hv)
    · rw [List.eq_of_mem_replicate hpad]
      decide

theorem encode_eq (bytes : List UInt8) : encode bytes =
    String.ofList ((sixes bytes).map symbol ++ List.replicate (padding bytes) '=') := by
  rw [encode, symbols_eq]

theorem toUTF8_encode (bytes : List UInt8) :
    (encode bytes).toUTF8.toList = spelled (sixes bytes) (padding bytes) := by
  rw [encode_eq, toUTF8_spelled (canonical_sixes bytes).bits]

/-- A text of some bytes: symbols and padding in whole groups, and the same number but for
    the bits that are padding. -/
def Written (bytes : List UInt8) (t : String) : Prop :=
  ∃ values pads, t = String.ofList (values.map symbol ++ List.replicate pads '=') ∧
    Canonical values pads ∧ 3 * values.length = 4 * bytes.length + pads ∧
    bigEndian 64 values = bigEndian 256 (bytes.map UInt8.toNat) * 4 ^ pads

theorem written_encode (bytes : List UInt8) : Written bytes (encode bytes) :=
  ⟨sixes bytes, padding bytes, encode_eq bytes, canonical_sixes bytes, length_sixes bytes,
    bigEndian_sixes bytes⟩

/-- Written bytes are read again. -/
theorem decode_encode (bytes : List UInt8) : decode (encode bytes) = .ok bytes := by
  have hcanonical := canonical_sixes bytes
  unfold decode
  simp only [toUTF8_encode]
  cases bytes with
  | nil => rfl
  | cons b bytes =>
      have hsome : sixes (b :: bytes) ≠ [] := fun hnil => by
        have hjoined := joined_sixes (b :: bytes)
        rw [hnil] at hjoined
        exact nomatch hjoined
      have hfull := hcanonical.full
      rw [← length_spelled] at hfull
      split
      · next hnone =>
          rw [List.getLast?_eq_none_iff] at hnone
          exact absurd (List.map_eq_nil_iff.mp (List.append_eq_nil_iff.mp hnone).1) hsome
      · -- Whole groups are never one symbol too long.
        rw [if_neg (by omega), decodeGroups_spelled hcanonical hsome, joined_sixes]

/-- What is read is what is written. -/
theorem decode_eq_ok_iff {t : String} {bytes : List UInt8} :
    decode t = .ok bytes ↔ t = encode bytes := by
  refine ⟨fun h => ?_, fun h => h ▸ decode_encode bytes⟩
  -- Texts are the same if their bytes are, and the reader knows nothing else of them.
  rw [← Text.toUTF8_inj, toUTF8_encode]
  unfold decode at h
  simp only at h
  split at h
  · next hnone =>
      rw [List.getLast?_eq_none_iff] at hnone
      cases h
      exact hnone
  · split_ifs at h
    rcases decodeGroups_eq_ok h with ⟨values, pads, hcanonical, hbytes, rfl⟩
    rw [hbytes, (sixes_joined hcanonical).1, (sixes_joined hcanonical).2]

/-- The base 64 texts are those of the symbols of canonical values and their padding. -/
theorem decode_isOk_iff (t : String) : (∃ bytes, decode t = .ok bytes) ↔
    ∃ values pads, Canonical values pads ∧
      t = String.ofList (values.map symbol ++ List.replicate pads '=') := by
  simp only [decode_eq_ok_iff, encode_eq]
  constructor
  · rintro ⟨bytes, rfl⟩
    exact ⟨sixes bytes, padding bytes, canonical_sixes bytes, rfl⟩
  · rintro ⟨values, pads, hcanonical, rfl⟩
    rcases sixes_joined hcanonical with ⟨hsixes, hpads⟩
    exact ⟨joined values, by rw [hsixes, hpads]⟩

end ChainSync.Base64

namespace ChainSync

/-- Both ways to write bytes as text write the number they stand for in an alphabet, and are
    read back exactly. A hexadecimal text is any even number of digits, and it is written
    again in lower case. A base 64 text is only what is written: symbols in whole groups,
    filled up by padding at the end, without a bit that belongs to no byte. -/
theorem codecs_invert :
    (∀ bytes, Hex.Written bytes (Hex.encode bytes) ∧ Hex.decode (Hex.encode bytes) = .ok bytes) ∧
    (∀ bytes, Base64.Written bytes (Base64.encode bytes) ∧
      Base64.decode (Base64.encode bytes) = .ok bytes) ∧
    (∀ t, (∃ bytes, Hex.decode t = .ok bytes) ↔
      t.length % 2 = 0 ∧ ∀ c ∈ t.toList, Hex.IsDigit c) ∧
    (∀ t bytes, Hex.decode t = .ok bytes → Hex.encode bytes = t.map Char.toLower) ∧
    (∀ t bytes, Base64.decode t = .ok bytes ↔ t = Base64.encode bytes) ∧
    (∀ t, (∃ bytes, Base64.decode t = .ok bytes) ↔
      ∃ values pads, Base64.Canonical values pads ∧
        t = String.ofList (values.map Base64.symbol ++ List.replicate pads '=')) :=
  ⟨fun bytes => ⟨Hex.written_encode bytes, Hex.decode_encode bytes⟩,
    fun bytes => ⟨Base64.written_encode bytes, Base64.decode_encode bytes⟩, Hex.decode_isOk_iff,
    fun _ _ => Hex.encode_of_decode, fun _ _ => Base64.decode_eq_ok_iff, Base64.decode_isOk_iff⟩

/-- Digits of both cases, and a last group of one byte. -/
theorem mixed_case_lowered :
    Hex.decode "00FFaB" = .ok [0, 255, 171] ∧
    Hex.encode [0, 255, 171] = "00FFaB".map Char.toLower ∧
    Base64.decode "Zg==" = .ok [102] := by
  rcases codecs_invert with ⟨_, _, _, hlower, hexact, _⟩
  have hread : Hex.decode "00FFaB" = .ok [0, 255, 171] := by decide +kernel
  exact ⟨hread, hlower _ _ hread, (hexact _ _).mpr (by decide +kernel)⟩

end ChainSync
