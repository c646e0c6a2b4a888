import ChainSync.Proofs.Wire.Layout
import ChainSync.Wire.Progress
import ChainSync.Wire.Wallet

/-!
# Reading Undoes Writing

Every value on the wire is read back as it was written.

A codec is faithful if its format accepts what it writes, and what has been read
decodes to the value that was written. That is a property of basic kinds that
lists, optional values and records pass on to what is made of them, so a record needs
only its fields to be faithful. An optional value also needs that no value is
written as a missing one.

## Main definitions

* `Codec.Faithful`: What is written is accepted and decodes to what it was.
* `Codec.ReadsBack`: What is written is read back.
* `Codec.TransactionFields`, `Codec.DecodedFields`: Names that differ on the wire.

## Theorems

* `Codec.Faithful.readsBack`: The text of a value, on one line or indented.
* `Codec.faithful_list`, `Codec.faithful_optional`: Lists and optional values.
* `Codec.transactionFields_read`: The names that are read are those that are written.
* `Codec.decoding_undoes_encoding`: All types on the wire.
-/

namespace ChainSync.Wire.Codec

variable {α : Type}

/-- What a codec writes is accepted by its format and decodes to the same value. -/
structure Faithful (c : Codec α) : Prop where
  accepts : ∀ a, c.format.Accepts (c.encode a)
  decode : ∀ a, c.decode (c.encode a) = some a

/-- Every value is read back from its text, on one line and indented. -/
def ReadsBack (c : Codec α) : Prop :=
  ∀ a, c.read (c.write a) = .ok a ∧ c.read (c.encode a).pretty = .ok a

theorem Faithful.readsBack {c : Codec α} (h : c.Faithful) : c.ReadsBack := by
  intro a
  have hread (l : Layout) (depth : Nat) :
      c.read (String.ofList ((c.encode a).laidOut l depth)) = .ok a := by
    simp only [read, (h.accepts a).parse l depth, h.decode a, bind, Except.bind, pure, Except.pure]
  constructor
  · rw [write, Datum.compact, Datum.compactChars_eq 0]
    exact hread .compact 0
  · rw [Datum.pretty, Datum.prettyChars_eq 0]
    exact hread .pretty 0

/-! ## Basic kinds -/

theorem faithful_int32 : int32.Faithful where
  accepts n := by
    have hlow : -2 ^ 31 ≤ n.toInt := n.le_toInt
    have hhigh : n.toInt < 2 ^ 31 := n.toInt_lt
    have hmax : Int32.maxValue.toInt = 2 ^ 31 - 1 := rfl
    have hsize : UInt64.size = 2 ^ 64 := rfl
    exact Format.accepts_int hlow (by omega) (by omega)
  decode n := congrArg some n.ofInt_toInt

theorem faithful_int64 : int64.Faithful where
  accepts n := by
    have hlow : -2 ^ 63 ≤ n.toInt := n.le_toInt
    have hhigh : n.toInt < 2 ^ 63 := n.toInt_lt
    have hmax : Int64.maxValue.toInt = 2 ^ 63 - 1 := rfl
    have hsize : UInt64.size = 2 ^ 64 := rfl
    exact Format.accepts_int hlow (by omega) (by omega)
  decode n := congrArg some n.ofInt_toInt

theorem faithful_uint64 : uint64.Faithful where
  accepts n := by
    have hhigh : n.toNat < UInt64.size := n.toNat_lt
    exact Format.accepts_int (by omega) (by omega) (by omega)
  decode n := congrArg some n.ofNat_toNat

theorem faithful_uint8 : uint8.Faithful where
  accepts n := by
    have hhigh : n.toNat < 256 := n.toNat_lt
    have hsize : UInt64.size = 2 ^ 64 := rfl
    exact Format.accepts_int (by omega) (by omega) (by omega)
  decode n := congrArg some n.ofNat_toNat

theorem faithful_bool : bool.Faithful where
  accepts := Format.accepts_bool
  decode _ := rfl

theorem faithful_text : text.Faithful where
  accepts := Format.accepts_text
  decode _ := rfl

theorem faithful_list {item : Codec α} (h : item.Faithful) : (list item).Faithful where
  accepts as := by
    refine Format.accepts_list fun d hd => ?_
    rcases List.mem_map.mp hd with ⟨a, _, rfl⟩
    exact h.accepts a
  decode as := by
    change (as.map item.encode).mapM item.decode = some as
    induction as with
    | nil => rfl
    | cons a as ih => simp [h.decode a, ih]

/-- No value may be written as one that is missing. -/
theorem faithful_optional {inner : Codec α} (h : inner.Faithful)
    (hpresent : ∀ a, inner.encode a ≠ .null) : (optional inner).Faithful where
  accepts a := by
    cases a with
    | none => exact Format.accepts_null inner.format
    | some a => exact Format.accepts_optional (h.accepts a) (hpresent a)
  decode a := by
    cases a with
    | none => rfl
    | some a =>
        have hdecode := h.decode a
        have hpresent := hpresent a
        simp only [optional]
        cases hd : inner.encode a with
        | null => exact absurd hd hpresent
        | _ => simp [← hd, hdecode]

/-! ## Names and numbers -/

theorem ofCode?_code (d : Direction) : Direction.ofCode? d.code = some d := by
  cases d <;> rfl

theorem faithful_direction : direction.Faithful where
  accepts d := by
    have hsize : UInt64.size = 2 ^ 64 := rfl
    cases d <;> exact Format.accepts_int (by decide) (by decide) (by decide)
  decode := ofCode?_code

theorem faithful_phase : phase.Faithful where
  accepts p := by
    refine Format.accepts_choice (List.mem_map_of_mem ?_)
    cases p <;> decide
  decode p := by cases p <;> rfl

/-! ## Records -/

theorem decode_text (s : String) : text.decode (.text s) = some s := rfl

theorem decode_bool (b : Bool) : bool.decode (.bool b) = some b := rfl

theorem faithful_bytes : bytes.Faithful := faithful_list faithful_uint8

theorem faithful_debit : debit.Faithful where
  accepts _ := Format.accepts_record (by decide) <|
    .cons ⟨rfl, faithful_int32.accepts _⟩ <| .cons ⟨rfl, faithful_int32.accepts _⟩ <|
    .cons ⟨rfl, faithful_int64.accepts _⟩ <| .cons ⟨rfl, faithful_text.accepts _⟩ <| .nil
  decode _ := by
    simp [debit, fieldValues, decode_text, faithful_int32.decode, faithful_int64.decode]

theorem faithful_credit : credit.Faithful where
  accepts _ := Format.accepts_record (by decide) <|
    .cons ⟨rfl, faithful_int32.accepts _⟩ <| .cons ⟨rfl, faithful_int32.accepts _⟩ <|
    .cons ⟨rfl, faithful_bool.accepts _⟩ <| .cons ⟨rfl, faithful_int64.accepts _⟩ <|
    .cons ⟨rfl, faithful_text.accepts _⟩ <| .nil
  decode _ := by
    simp [credit, fieldValues, decode_text, decode_bool, faithful_int32.decode,
      faithful_int64.decode]

theorem faithful_transaction : transaction.Faithful where
  accepts _ := Format.accepts_record (by decide) <|
    .cons ⟨rfl, faithful_text.accepts _⟩ <| .cons ⟨rfl, faithful_bytes.accepts _⟩ <|
    .cons ⟨rfl, faithful_int64.accepts _⟩ <| .cons ⟨rfl, faithful_int64.accepts _⟩ <|
    .cons ⟨rfl, faithful_text.accepts _⟩ <| .cons ⟨rfl, faithful_int64.accepts _⟩ <|
    .cons ⟨rfl, faithful_text.accepts _⟩ <| .cons ⟨rfl, faithful_int32.accepts _⟩ <|
    .cons ⟨rfl, faithful_direction.accepts _⟩ <|
    .cons ⟨rfl, (faithful_list faithful_debit).accepts _⟩ <|
    .cons ⟨rfl, (faithful_list faithful_credit).accepts _⟩ <| .nil
  decode _ := by
    simp [transaction, fieldValues, decode_text, faithful_bytes.decode, faithful_int64.decode,
      faithful_int32.decode, faithful_direction.decode, (faithful_list faithful_debit).decode,
      (faithful_list faithful_credit).decode]

theorem faithful_balance : balance.Faithful where
  accepts _ := Format.accepts_record (by decide) <|
    .cons ⟨rfl, faithful_int64.accepts _⟩ <| .cons ⟨rfl, faithful_int64.accepts _⟩ <|
    .cons ⟨rfl, faithful_int64.accepts _⟩ <| .cons ⟨rfl, faithful_int64.accepts _⟩ <|
    .cons ⟨rfl, faithful_int64.accepts _⟩ <| .cons ⟨rfl, faithful_int64.accepts _⟩ <|
    .cons ⟨rfl, faithful_int64.accepts _⟩ <| .nil
  decode _ := by simp [balance, fieldValues, faithful_int64.decode]

theorem faithful_account : account.Faithful where
  accepts _ := Format.accepts_record (by decide) <|
    .cons ⟨rfl, faithful_int32.accepts _⟩ <| .cons ⟨rfl, faithful_text.accepts _⟩ <|
    .cons ⟨rfl, faithful_balance.accepts _⟩ <| .cons ⟨rfl, faithful_int64.accepts _⟩ <|
    .cons ⟨rfl, faithful_int32.accepts _⟩ <| .cons ⟨rfl, faithful_int32.accepts _⟩ <|
    .cons ⟨rfl, faithful_int32.accepts _⟩ <| .nil
  decode _ := by
    simp [account, fieldValues, decode_text, faithful_int32.decode, faithful_balance.decode,
      faithful_int64.decode]

theorem faithful_accounts : accounts.Faithful where
  accepts _ := Format.accepts_record (by decide) <|
    .cons ⟨rfl, (faithful_list faithful_account).accepts _⟩ <|
    .cons ⟨rfl, faithful_bytes.accepts _⟩ <| .cons ⟨rfl, faithful_int32.accepts _⟩ <| .nil
  decode _ := by
    simp [accounts, fieldValues, (faithful_list faithful_account).decode, faithful_bytes.decode,
      faithful_int32.decode]

theorem faithful_optional_uint64 : (optional uint64).Faithful :=
  faithful_optional faithful_uint64 fun _ h => Datum.noConfusion h

theorem faithful_unsignedTransaction : unsignedTransaction.Faithful where
  accepts _ := Format.accepts_record (by decide) <|
    .cons ⟨rfl, faithful_bytes.accepts _⟩ <| .cons ⟨rfl, faithful_uint64.accepts _⟩ <|
    .cons ⟨rfl, faithful_optional_uint64.accepts _⟩ <| .cons ⟨rfl, faithful_int64.accepts _⟩ <|
    .cons ⟨rfl, faithful_int64.accepts _⟩ <| .nil
  decode _ := by
    simp [unsignedTransaction, fieldValues, faithful_bytes.decode, faithful_uint64.decode,
      faithful_optional_uint64.decode, faithful_int64.decode]

theorem faithful_decodedInput : decodedInput.Faithful where
  accepts _ := Format.accepts_record (by decide) <|
    .cons ⟨rfl, faithful_text.accepts _⟩ <| .cons ⟨rfl, faithful_int32.accepts _⟩ <|
    .cons ⟨rfl, faithful_int32.accepts _⟩ <| .cons ⟨rfl, faithful_int64.accepts _⟩ <|
    .cons ⟨rfl, faithful_int32.accepts _⟩ <| .cons ⟨rfl, faithful_int32.accepts _⟩ <| .nil
  decode _ := by
    simp [decodedInput, fieldValues, decode_text, faithful_int32.decode, faithful_int64.decode]

theorem faithful_decodedOutput : decodedOutput.Faithful where
  accepts _ := Format.accepts_record (by decide) <|
    .cons ⟨rfl, faithful_int32.accepts _⟩ <| .cons ⟨rfl, faithful_int64.accepts _⟩ <|
    .cons ⟨rfl, faithful_int32.accepts _⟩ <|
    .cons ⟨rfl, (faithful_list faithful_text).accepts _⟩ <| .nil
  decode _ := by
    simp [decodedOutput, fieldValues, faithful_int32.decode, faithful_int64.decode,
      (faithful_list faithful_text).decode]

theorem faithful_decodedTransaction : decodedTransaction.Faithful where
  accepts _ := Format.accepts_record (by decide) <|
    .cons ⟨rfl, faithful_text.accepts _⟩ <| .cons ⟨rfl, faithful_text.accepts _⟩ <|
    .cons ⟨rfl, faithful_int32.accepts _⟩ <| .cons ⟨rfl, faithful_int32.accepts _⟩ <|
    .cons ⟨rfl, faithful_int32.accepts _⟩ <|
    .cons ⟨rfl, (faithful_list faithful_decodedInput).accepts _⟩ <|
    .cons ⟨rfl, (faithful_list faithful_decodedOutput).accepts _⟩ <| .nil
  decode _ := by
    simp [decodedTransaction, fieldValues, decode_text, faithful_int32.decode,
      (faithful_list faithful_decodedInput).decode, (faithful_list faithful_decodedOutput).decode]

theorem faithful_timeEstimate : timeEstimate.Faithful where
  accepts _ := Format.accepts_record (by decide) <|
    .cons ⟨rfl, faithful_int64.accepts _⟩ <| .cons ⟨rfl, faithful_text.accepts _⟩ <|
    .cons ⟨rfl, faithful_text.accepts _⟩ <| .cons ⟨rfl, faithful_int32.accepts _⟩ <|
    .cons ⟨rfl, faithful_uint8.accepts _⟩ <| .nil
  decode _ := by
    simp [timeEstimate, fieldValues, decode_text, faithful_int64.decode, faithful_int32.decode,
      faithful_uint8.decode]

theorem faithful_optional_timeEstimate : (optional timeEstimate).Faithful :=
  faithful_optional faithful_timeEstimate fun _ h => Datum.noConfusion h

theorem faithful_progress : progress.Faithful where
  accepts _ := Format.accepts_record (by decide) <|
    .cons ⟨rfl, faithful_uint64.accepts _⟩ <| .cons ⟨rfl, faithful_phase.accepts _⟩ <|
    .cons ⟨rfl, faithful_int32.accepts _⟩ <| .cons ⟨rfl, faithful_int32.accepts _⟩ <|
    .cons ⟨rfl, faithful_int32.accepts _⟩ <| .cons ⟨rfl, faithful_int32.accepts _⟩ <|
    .cons ⟨rfl, faithful_bool.accepts _⟩ <| .cons ⟨rfl, faithful_int32.accepts _⟩ <|
    .cons ⟨rfl, faithful_uint8.accepts _⟩ <|
    .cons ⟨rfl, faithful_optional_timeEstimate.accepts _⟩ <| .nil
  decode _ := by
    simp [progress, fieldValues, decode_bool, faithful_uint64.decode, faithful_phase.decode,
      faithful_int32.decode, faithful_uint8.decode, faithful_optional_timeEstimate.decode]

/-! ## Names on the wire -/

/-- Where a transaction's raw bytes, its kind and its direction stand in the fields of a
    record. -/
structure TransactionFields (fields : List (String × Datum)) (t : Transaction) : Prop where
  raw : (fields.lookup "transaction").bind bytes.decode = some t.raw
  kind : (fields.lookup "type").bind text.decode = some t.kind
  direction : fields.lookup "direction" = some (.int t.direction.code)

/-- Where the kind of a transaction that was taken apart stands. -/
def DecodedFields (fields : List (String × Datum)) (t : DecodedTransaction) : Prop :=
  (fields.lookup "type").bind text.decode = some t.kind

theorem ofCode?_eq_some_iff (n : Int) (d : Direction) :
    Direction.ofCode? n = some d ↔ n = d.code := by
  constructor
  · intro h
    unfold Direction.ofCode? at h
    split_ifs at h with h₀ h₁ h₂ <;> rw [← Option.some.inj h] <;> assumption
  · rintro rfl
    exact ofCode?_code d

theorem transactionFields_encode (t : Transaction) :
    ∃ fields, transaction.encode t = .record fields ∧ TransactionFields fields t :=
  ⟨_, rfl, faithful_bytes.decode t.raw, rfl, rfl⟩

theorem decodedFields_encode (t : DecodedTransaction) :
    ∃ fields, decodedTransaction.encode t = .record fields ∧ DecodedFields fields t :=
  ⟨_, rfl, rfl⟩

theorem decode_direction {d : Datum} {direction : Direction}
    (h : Codec.direction.decode d = some direction) : d = .int direction.code := by
  cases d with
  | int n => rw [(ofCode?_eq_some_iff n direction).mp h]
  | _ => exact absurd h (by simp only [Codec.direction, reduceCtorEq, not_false_eq_true])

/-- A record that has been read has all of its fields, and they make up the value. -/
theorem read_record {c : Codec α} {fields : List (String × Format)} {s : String} {a : α}
    (hc : c.format = .record fields) (h : c.read s = .ok a) :
    ∃ ds, c.format.parse s = .ok (.record ds) ∧ ds.map (·.1) = fields.map (·.1) ∧
      c.decode (.record ds) = some a := by
  rcases bind_ok h with ⟨d, hparse, h⟩
  rcases Format.parse_record (hc ▸ hparse) with ⟨ds, rfl, hnames⟩
  refine ⟨ds, hparse, hnames, ?_⟩
  cases hdecode : c.decode (.record ds) with
  | none =>
      rw [hdecode] at h
      exact absurd h (by simp only [reduceCtorEq, not_false_eq_true])
  | some a' =>
      rw [hdecode] at h
      exact congrArg some (Except.ok.inj h)

-- The names of the fields are known, so there are as many values as names.
theorem transactionFields_read {s : String} {t : Transaction} (h : transaction.read s = .ok t) :
    ∃ fields, transaction.format.parse s = .ok (.record fields) ∧ TransactionFields fields t := by
  rcases read_record rfl h with ⟨ds, hparse, hnames, hdecode⟩
  refine ⟨ds, hparse, ?_⟩
  simp only [List.map_cons, List.map_nil, List.map_eq_cons_iff, List.map_eq_nil_iff] at hnames
  rcases hnames with ⟨⟨_, hash⟩, _, rfl, rfl, ⟨_, raw⟩, _, rfl, rfl, ⟨_, fee⟩, _, rfl, rfl,
    ⟨_, time⟩, _, rfl, rfl, ⟨_, kind⟩, _, rfl, rfl, ⟨_, amount⟩, _, rfl, rfl, ⟨_, status⟩, _, rfl,
    rfl, ⟨_, height⟩, _, rfl, rfl, ⟨_, dir⟩, _, rfl, rfl, ⟨_, debits⟩, _, rfl, rfl,
    ⟨_, credits⟩, _, rfl, rfl, rfl⟩
  simp only [transaction, fieldValues, List.map_cons, List.map_nil, bind, Option.bind_eq_some_iff]
    at hdecode
  rcases hdecode with
    ⟨_, _, _, hraw, _, _, _, _, _, hkind, _, _, _, _, _, _, _, hdir, _, _, _, _, ht⟩
  rw [← Option.some.inj ht]
  exact ⟨hraw, hkind, congrArg some (decode_direction hdir)⟩

theorem decodedFields_read {s : String} {t : DecodedTransaction}
    (h : decodedTransaction.read s = .ok t) :
    ∃ fields, decodedTransaction.format.parse s = .ok (.record fields) ∧
      DecodedFields fields t := by
  rcases read_record rfl h with ⟨ds, hparse, hnames, hdecode⟩
  refine ⟨ds, hparse, ?_⟩
  simp only [List.map_cons, List.map_nil, List.map_eq_cons_iff, List.map_eq_nil_iff] at hnames
  rcases hnames with ⟨⟨_, hash⟩, _, rfl, rfl, ⟨_, kind⟩, _, rfl, rfl, ⟨_, version⟩, _, rfl, rfl,
    ⟨_, lockTime⟩, _, rfl, rfl, ⟨_, expiry⟩, _, rfl, rfl, ⟨_, inputs⟩, _, rfl, rfl,
    ⟨_, outputs⟩, _, rfl, rfl, rfl⟩
  simp only [decodedTransaction, fieldValues, List.map_cons, List.map_nil, bind,
    Option.bind_eq_some_iff] at hdecode
  rcases hdecode with ⟨_, _, _, hkind, _, _, _, _, _, _, _, _, _, _, ht⟩
  rw [← Option.some.inj ht]
  exact hkind

/-- Decoding undoes encoding, for every type on the wire and every value of it: the text
    of the value is read back as the value, on one line and indented. Where two names
    differ, the same name is read that is written, and a direction is the same number
    both ways. -/
theorem decoding_undoes_encoding :
    (transaction.ReadsBack ∧ debit.ReadsBack ∧ credit.ReadsBack ∧ balance.ReadsBack ∧
      account.ReadsBack ∧ accounts.ReadsBack ∧ unsignedTransaction.ReadsBack ∧
      decodedTransaction.ReadsBack ∧ decodedInput.ReadsBack ∧ decodedOutput.ReadsBack ∧
      direction.ReadsBack ∧ phase.ReadsBack ∧ timeEstimate.ReadsBack ∧ progress.ReadsBack) ∧
    ((∀ t, ∃ fields, transaction.encode t = .record fields ∧ TransactionFields fields t) ∧
      ∀ s t, transaction.read s = .ok t → ∃ fields,
        transaction.format.parse s = .ok (.record fields) ∧ TransactionFields fields t) ∧
    ((∀ t, ∃ fields, decodedTransaction.encode t = .record fields ∧ DecodedFields fields t) ∧
      ∀ s t, decodedTransaction.read s = .ok t → ∃ fields,
        decodedTransaction.format.parse s = .ok (.record fields) ∧ DecodedFields fields t) ∧
    ∀ n d, Direction.ofCode? n = some d ↔ n = d.code := by
  refine ⟨?_, ⟨transactionFields_encode, fun _ _ => transactionFields_read⟩,
    ⟨decodedFields_encode, fun _ _ => decodedFields_read⟩, ofCode?_eq_some_iff⟩
  exact ⟨faithful_transaction.readsBack, faithful_debit.readsBack, faithful_credit.readsBack,
    faithful_balance.readsBack, faithful_account.readsBack, faithful_accounts.readsBack,
    faithful_unsignedTransaction.readsBack, faithful_decodedTransaction.readsBack,
    faithful_decodedInput.readsBack, faithful_decodedOutput.readsBack,
    faithful_direction.readsBack, faithful_phase.readsBack, faithful_timeEstimate.readsBack,
    faithful_progress.readsBack⟩

end ChainSync.Wire.Codec
