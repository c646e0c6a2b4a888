import ChainSync.Codec.Hex
import ChainSync.Proofs.Text.Ascii
import Mathlib.Tactic.Ring

/-!
# Hexadecimal Texts

Which texts are hexadecimal, and what they are the digits of.

Writing and reading meet in the halves of the bytes. A text is read as some bytes
exactly if the values of its digits are the halves of those bytes, one after the other
(`decodePairs_eq_ok_iff`). That is said of the bytes the text is made of, but only the
digits have a value, and they are among the first 128 characters.

Only half of the round trip comes back as it was: reading takes the digits of either
case, so what is written again is the text in lower case.

A round trip does not tell which half of a byte comes first. That is settled by the number
a text stands for, which is the one the bytes stand for (`Hex.written_encode`).

## Main definitions

* `Codec.bigEndian`: The number some digits stand for.
* `Hex.IsDigit`: A hexadecimal digit of either case.
* `Hex.halves`: The values of the two digits of a byte.
* `Hex.Written`: The text of some bytes.

## Theorems

* `Hex.digitValue?_digit`, `Hex.digit_of_digitValue?`: Digits and their values.
* `Hex.decodePairs_eq_ok_iff`: Reading finds the bytes with those halves.
* `Hex.written_encode`, `Hex.decode_encode`: What is written, and that it is read again.
* `Hex.decode_isOk_iff`: The hexadecimal texts.
* `Hex.encode_of_decode`: What is read is written again in lower case.
-/

namespace ChainSync.Codec

/-- The number some digits stand for, the greatest place first. -/
def bigEndian (base : Nat) : List Nat → Nat
  | [] => 0
  | digit :: rest => digit * base ^ rest.length + bigEndian base rest

/-- A value is found for everything in a list whose values are a list. -/
theorem exists_value {α β : Type} {f : α → Option β} {l : List α} {values : List β}
    (h : l.map f = values.map some) {x : α} (hx : x ∈ l) : ∃ v, f x = some v := by
  have hmem : f x ∈ values.map some := h ▸ List.mem_map_of_mem hx
  rcases List.mem_map.mp hmem with ⟨v, _, hv⟩
  exact ⟨v, hv.symm⟩

theorem map_eq_ok_iff {ε α β : Type} {f : α → β} {x : Except ε α} {b : β} :
    x.map f = .ok b ↔ ∃ a, x = .ok a ∧ f a = b := by
  cases x <;> simp [Except.map]

end ChainSync.Codec

namespace ChainSync.Hex

open Codec (bigEndian exists_value map_eq_ok_iff)

/-! ## Digits -/

/-- A hexadecimal digit of either case. -/
def IsDigit (c : Char) : Prop :=
  '0' ≤ c ∧ c ≤ '9' ∨ 'a' ≤ c ∧ c ≤ 'f' ∨ 'A' ≤ c ∧ c ≤ 'F'

instance (c : Char) : Decidable (IsDigit c) := inferInstanceAs (Decidable (_ ∨ _))

theorem isDigit_iff (c : Char) : IsDigit c ↔ 48 ≤ c.toNat ∧ c.toNat < 58 ∨
    97 ≤ c.toNat ∧ c.toNat < 103 ∨ 65 ≤ c.toNat ∧ c.toNat < 71 := by
  simp only [IsDigit, Nat.lt_succ_iff]
  rfl

theorem IsDigit.lt {c : Char} (h : IsDigit c) : c.toNat < 128 := by
  rw [isDigit_iff] at h
  omega

theorem digitValue?_isSome {c : Char} (hc : c.toNat < 128) :
    (digitValue? c.toUInt8).isSome = true ↔ IsDigit c := by
  rw [isDigit_iff]
  unfold digitValue?
  simp only [Text.toNat_toUInt8 hc]
  split_ifs <;> simp <;> omega

theorem lt_of_digitValue? {b : UInt8} {v : Nat} (h : digitValue? b = some v) :
    b.toNat < 128 ∧ v < 16 := by
  unfold digitValue? at h
  simp only at h
  split_ifs at h <;> (cases h; omega)

theorem toNat_digit {v : Nat} (hv : v < 16) :
    (digit v).toNat = if v < 10 then 48 + v else 87 + v := by
  unfold digit
  split_ifs
  · exact Text.toNat_ofNat (by omega)
  · exact Text.toNat_ofNat (by omega)

example : (List.range 16).map digit = "0123456789abcdef".toList := by decide

theorem digitValue?_digit {v : Nat} (hv : v < 16) : digitValue? (digit v).toUInt8 = some v := by
  have hdigit := toNat_digit hv
  unfold digitValue?
  by_cases hten : v < 10
  · rw [if_pos hten] at hdigit
    simp only [Text.toNat_toUInt8 (show (digit v).toNat < 128 by omega), hdigit]
    rw [if_pos (by omega), Nat.add_sub_cancel_left]
  · rw [if_neg hten] at hdigit
    simp only [Text.toNat_toUInt8 (show (digit v).toNat < 128 by omega), hdigit]
    rw [if_neg (by omega), if_pos (by omega), Nat.add_sub_cancel_left]

/-- The digit that is written for the value of a digit is that digit in lower case. -/
theorem digit_of_digitValue? {c : Char} (hc : c.toNat < 128) {v : Nat}
    (h : digitValue? c.toUInt8 = some v) : digit v = c.toLower := by
  have hdigit := toNat_digit (lt_of_digitValue? h).2
  unfold digitValue? at h
  simp only [Text.toNat_toUInt8 hc] at h
  rw [← Char.toNat_inj, hdigit, Text.toNat_toLower]
  split_ifs at h ⊢ <;> (cases h; omega)

/-! ## Pairs of digits -/

/-- The values of the two digits of a byte. -/
def halves (b : UInt8) : List Nat := [b.toNat / 16, b.toNat % 16]

theorem encode_eq (bytes : List UInt8) :
    encode bytes = String.ofList ((bytes.flatMap halves).map digit) := by
  unfold encode
  rw [List.map_flatMap]
  rfl

theorem length_halves (bytes : List UInt8) : (bytes.flatMap halves).length = 2 * bytes.length := by
  simp [halves, Nat.mul_comm]

theorem lt_of_mem_halves {bytes : List UInt8} {v : Nat} (h : v ∈ bytes.flatMap halves) :
    v < 16 := by
  rcases List.mem_flatMap.mp h with ⟨b, _, hv⟩
  have hb := b.toNat_lt
  simp only [halves, List.mem_cons, List.not_mem_nil, or_false] at hv
  omega

/-- Digits of half a byte stand for the number the bytes stand for. -/
theorem bigEndian_halves (bytes : List UInt8) :
    bigEndian 16 (bytes.flatMap halves) = bigEndian 256 (bytes.map UInt8.toNat) := by
  induction bytes with
  | nil => rfl
  | cons b bytes ih =>
      have hplace : (16 : Nat) ^ (bytes.flatMap halves).length = 256 ^ bytes.length := by
        rw [length_halves, pow_mul, show (16 : Nat) ^ 2 = 256 from rfl]
      have hbyte : b.toNat / 16 * 16 + b.toNat % 16 = b.toNat := Nat.div_add_mod' _ _
      simp only [List.flatMap_cons, halves, List.cons_append, List.nil_append, List.map_cons,
        bigEndian, List.length_cons, List.length_map, pow_succ, hplace, ih]
      generalize b.toNat / 16 = high at hbyte ⊢
      generalize b.toNat % 16 = low at hbyte ⊢
      rw [← hbyte]
      ring

/-- A byte is put together again from two values below sixteen. -/
theorem halves_ofNat {h l : Nat} (hh : h < 16) (hl : l < 16) :
    halves (UInt8.ofNat (16 * h + l)) = [h, l] := by
  have hbyte : (UInt8.ofNat (16 * h + l)).toNat = 16 * h + l := by
    rw [UInt8.toNat_ofNat', Nat.mod_eq_of_lt (by omega)]
  unfold halves
  rw [hbyte, show (16 * h + l) / 16 = h by omega, show (16 * h + l) % 16 = l by omega]

/-- Reading finds the bytes whose halves are the values of the digits, by induction on the
    pairs. -/
theorem decodePairs_eq_ok_iff {position : Nat} {bs bytes : List UInt8} (h : bs.length % 2 = 0) :
    decodePairs position bs = .ok bytes ↔
      bs.map digitValue? = (bytes.flatMap halves).map some := by
  -- What has no value is not among the values.
  have hnone : ∀ {b : UInt8} {bs bytes : List UInt8} {why : Error}, b ∈ bs →
      digitValue? b = none → ((.error why : Except Error (List UInt8)) = .ok bytes ↔
        bs.map digitValue? = (bytes.flatMap halves).map some) := by
    intro b bs bytes why hb hvalue
    refine iff_of_false (by simp) fun heq => ?_
    rcases exists_value heq hb with ⟨v, hv⟩
    exact absurd (hvalue.symm.trans hv) (by simp)
  fun_induction decodePairs position bs generalizing bytes with
  | case1 _ high low rest hhigh => exact hnone (by simp) hhigh
  | case2 _ high low rest _ hlow _ => exact hnone (by simp) hlow
  | case3 _ high low rest v w hlow hhigh ih =>
      have hv := (lt_of_digitValue? hhigh).2
      have hw := (lt_of_digitValue? hlow).2
      have hrest : rest.length % 2 = 0 := by
        simp only [List.length_cons] at h
        omega
      rw [map_eq_ok_iff, List.map_cons, List.map_cons, hhigh, hlow]
      constructor
      · rintro ⟨bytes, hok, rfl⟩
        rw [List.flatMap_cons, halves_ofNat hv hw, (ih hrest).mp hok]
        rfl
      · intro heq
        cases bytes with
        | nil => exact absurd heq (by simp)
        | cons b bytes =>
            simp only [List.flatMap_cons, halves, List.cons_append, List.nil_append, List.map_cons,
              List.cons.injEq, Option.some.injEq] at heq
            rcases heq with ⟨hb, hb', heq⟩
            refine ⟨bytes, (ih hrest).mpr heq, ?_⟩
            rw [show 16 * v + w = b.toNat by omega, UInt8.ofNat_toNat]
  | case4 t _ hshort =>
      cases t with
      | nil =>
          cases bytes <;> simp [halves]
      | cons b t =>
          cases t with
          | nil => exact absurd h (by simp)
          | cons c t => exact absurd rfl (hshort b c t)

theorem exists_decodePairs {position : Nat} {bs : List UInt8}
    (h : ∀ b ∈ bs, (digitValue? b).isSome = true) :
    ∃ bytes, decodePairs position bs = .ok bytes := by
  fun_induction decodePairs position bs with
  | case1 _ high low rest hhigh =>
      have hdigit := h high (by simp)
      rw [hhigh] at hdigit
      exact absurd hdigit (by simp)
  | case2 _ high low rest _ hlow _ =>
      have hdigit := h low (by simp)
      rw [hlow] at hdigit
      exact absurd hdigit (by simp)
  | case3 _ high low rest v w _ _ ih =>
      rcases ih fun b hb => h b (by simp [hb]) with ⟨bytes, hok⟩
      exact ⟨_, map_eq_ok_iff.mpr ⟨bytes, hok, rfl⟩⟩
  | case4 _ _ _ => exact ⟨[], rfl⟩

/-! ## Texts -/

/-- The length needs no mention, since every byte has two halves. -/
theorem decode_eq_ok_iff {t : String} {bytes : List UInt8} :
    decode t = .ok bytes ↔
      t.toUTF8.toList.map digitValue? = (bytes.flatMap halves).map some := by
  unfold decode
  simp only
  by_cases hodd : t.toUTF8.toList.length % 2 = 1
  · rw [if_pos hodd]
    refine iff_of_false (by simp) fun heq => ?_
    have hlength := congrArg List.length heq
    rw [List.length_map, List.length_map, length_halves] at hlength
    omega
  · rw [if_neg hodd, decodePairs_eq_ok_iff (by omega)]

/-- A text that is read is one of the first 128 characters, and their values are the halves. -/
theorem chars_of_decode {t : String} {bytes : List UInt8} (h : decode t = .ok bytes) :
    (∀ c ∈ t.toList, c.toNat < 128) ∧
      t.toList.map (fun c => digitValue? c.toUInt8) = (bytes.flatMap halves).map some := by
  have hvalues := decode_eq_ok_iff.mp h
  have hascii : ∀ c ∈ t.toList, c.toNat < 128 := by
    refine Text.ascii_of_toUTF8 fun b hb => ?_
    rcases exists_value hvalues hb with ⟨v, hv⟩
    exact (lt_of_digitValue? hv).1
  rw [Text.toUTF8_of_ascii hascii, List.map_map] at hvalues
  exact ⟨hascii, hvalues⟩

/-- A text of some bytes: two digits for each, and in all the same number. -/
def Written (bytes : List UInt8) (t : String) : Prop :=
  ∃ values, t = String.ofList (values.map digit) ∧ (∀ v ∈ values, v < 16) ∧
    values.length = 2 * bytes.length ∧ bigEndian 16 values = bigEndian 256 (bytes.map UInt8.toNat)

theorem written_encode (bytes : List UInt8) : Written bytes (encode bytes) :=
  ⟨bytes.flatMap halves, encode_eq bytes, fun _ => lt_of_mem_halves, length_halves bytes,
    bigEndian_halves bytes⟩

/-- What is written is read again. -/
theorem decode_encode (bytes : List UInt8) : decode (encode bytes) = .ok bytes := by
  have hdigit : ∀ v ∈ bytes.flatMap halves, (digit v).toNat < 128 ∧
      digitValue? (digit v).toUInt8 = some v := by
    intro v hv
    have hlt := lt_of_mem_halves hv
    have hnat := toNat_digit hlt
    exact ⟨by split_ifs at hnat <;> omega, digitValue?_digit hlt⟩
  have hascii : ∀ c ∈ (encode bytes).toList, c.toNat < 128 := by
    rw [encode_eq, String.toList_ofList]
    intro c hc
    rcases List.mem_map.mp hc with ⟨v, hv, rfl⟩
    exact (hdigit v hv).1
  rw [decode_eq_ok_iff, Text.toUTF8_of_ascii hascii, encode_eq, String.toList_ofList,
    List.map_map, List.map_map]
  exact List.map_congr_left fun v hv => (hdigit v hv).2

/-- What is read is written again in lower case. -/
theorem encode_of_decode {t : String} {bytes : List UInt8} (h : decode t = .ok bytes) :
    encode bytes = t.map Char.toLower := by
  rcases chars_of_decode h with ⟨hascii, hvalues⟩
  -- The digits are compared where reading leaves them, among the values there may be.
  have hlower : (t.toList.map Char.toLower).map some = ((bytes.flatMap halves).map digit).map some :=
    calc (t.toList.map Char.toLower).map some
        = (t.toList.map (fun c => digitValue? c.toUInt8)).map (Option.map digit) := by
          rw [List.map_map, List.map_map]
          refine List.map_congr_left fun c hc => ?_
          rcases exists_value hvalues hc with ⟨v, hv⟩
          change some c.toLower = (digitValue? c.toUInt8).map digit
          rw [hv, Option.map_some, digit_of_digitValue? (hascii c hc) hv]
      _ = ((bytes.flatMap halves).map digit).map some := by
          rw [hvalues, List.map_map, List.map_map]
          rfl
  have hinj : Function.Injective (some : Char → Option Char) := fun _ _ => Option.some.inj
  rw [encode_eq, ← List.map_injective_iff.mpr hinj hlower, ← String.toList_map,
    String.ofList_toList]

/-- The hexadecimal texts are those of an even number of digits of either case. -/
theorem decode_isOk_iff (t : String) :
    (∃ bytes, decode t = .ok bytes) ↔ t.length % 2 = 0 ∧ ∀ c ∈ t.toList, IsDigit c := by
  constructor
  · rintro ⟨bytes, h⟩
    rcases chars_of_decode h with ⟨hascii, hvalues⟩
    refine ⟨?_, fun c hc => (digitValue?_isSome (hascii c hc)).mp ?_⟩
    · have hlength := congrArg List.length hvalues
      rw [List.length_map, List.length_map, length_halves, String.length_toList] at hlength
      omega
    · rcases exists_value hvalues hc with ⟨v, hv⟩
      rw [hv, Option.isSome_some]
  · rintro ⟨heven, hdigits⟩
    have hbytes := Text.toUTF8_of_ascii fun c hc => (hdigits c hc).lt
    unfold decode
    simp only
    rw [hbytes, List.length_map, String.length_toList, if_neg (by omega)]
    refine exists_decodePairs fun b hb => ?_
    rcases List.mem_map.mp hb with ⟨c, hc, rfl⟩
    exact (digitValue?_isSome (hdigits c hc).lt).mpr (hdigits c hc)

end ChainSync.Hex
