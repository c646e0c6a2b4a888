import ChainSync.Proofs.Session.Advance
import ChainSync.Proofs.Wire.Scan
import Mathlib.Data.List.Forall2

/-!
# Layouts

What a format makes of its own data, however they are laid out.

Data are printed on one line or indented. Both are layouts, which differ only in
the blanks between the pieces of a value, and reading passes over blanks. So
whatever is said of a format is said of every layout, at every depth, with any
blanks in front and with any text behind that does not go on with a number.

A format accepts a datum if it reads the datum back from all of these texts. The
formats that are made of others accept what is made of what those accept. For a
record this needs that no two fields have the same name, since a field is looked
up by its name as soon as that has been read.

## Main definitions

* `Layout`, `Datum.laidOut`: The text of a datum in a layout.
* `Format.Accepts`: A format reads a datum back.

## Theorems

* `Datum.compactChars_eq`, `Datum.prettyChars_eq`: The two layouts that are used.
* `Datum.laidOut_eq_cons`: How the text of a datum begins.
* `Format.accepts_int`, `Format.accepts_list`, `Format.accepts_record` and the like:
  What each kind of format accepts.
* `Format.Accepts.parse`: A whole text.
-/

namespace ChainSync.Wire

/-- A text of nothing but blanks. -/
abbrev Blanks := { cs : List Char // ∀ c ∈ cs, isBlank c = true }

/-- No blanks at all. -/
def Blanks.none : Blanks := ⟨[], fun _ h => absurd h (List.not_mem_nil)⟩

/-- Where the blanks of a printed value stand, and which. -/
structure Layout where
  /-- What stands before each field or item of a given depth. -/
  breakAt : Nat → Blanks
  /-- What stands behind the colon of a field. -/
  space : Blanks

namespace Layout

/-- Everything on one line. -/
def compact : Layout := { breakAt := fun _ => .none, space := .none }

theorem isBlank_lineBreak (depth : Nat) : ∀ c ∈ lineBreak depth, isBlank c = true := by
  intro c hc
  rcases List.mem_cons.mp hc with rfl | hc
  · rfl
  · rw [List.eq_of_mem_replicate hc]
    rfl

/-- One field or item to a line. -/
def pretty : Layout where
  breakAt depth := ⟨lineBreak depth, isBlank_lineBreak depth⟩
  space := ⟨[' '], List.forall_mem_singleton.mpr rfl⟩

end Layout

mutual

/-- The text of a datum in a layout, at a given depth. -/
def Datum.laidOut (l : Layout) (depth : Nat) : Datum → List Char
  | .null => ['n', 'u', 'l', 'l']
  | .bool true => ['t', 'r', 'u', 'e']
  | .bool false => ['f', 'a', 'l', 's', 'e']
  | .int n => intChars n
  | .text s => quoted s
  | .list [] => ['[', ']']
  | .list (d :: ds) =>
    '[' :: ((l.breakAt (depth + 1)).1 ++ (d.laidOut l (depth + 1)
      ++ (itemsLaidOut l (depth + 1) ds ++ ((l.breakAt depth).1 ++ [']']))))
  | .record [] => ['\x7b', '\x7d']
  | .record ((name, d) :: fields) =>
    '\x7b' :: ((l.breakAt (depth + 1)).1 ++ (quoted name ++ ':' :: (l.space.1
      ++ (d.laidOut l (depth + 1) ++ (fieldsLaidOut l (depth + 1) fields
        ++ ((l.breakAt depth).1 ++ ['\x7d']))))))

/-- The further items of a list, a comma before each. -/
def itemsLaidOut (l : Layout) (depth : Nat) : List Datum → List Char
  | [] => []
  | d :: ds => ',' :: ((l.breakAt depth).1 ++ (d.laidOut l depth ++ itemsLaidOut l depth ds))

/-- The further fields of a record, a comma before each. -/
def fieldsLaidOut (l : Layout) (depth : Nat) : List (String × Datum) → List Char
  | [] => []
  | (name, d) :: fields =>
    ',' :: ((l.breakAt depth).1 ++ (quoted name ++ ':' :: (l.space.1
      ++ (d.laidOut l depth ++ fieldsLaidOut l depth fields))))

end

mutual

/-- On one line, depths do not matter. -/
theorem Datum.compactChars_eq (depth : Nat) : ∀ d : Datum, d.compactChars = d.laidOut .compact depth
  | .null => rfl
  | .bool true => rfl
  | .bool false => rfl
  | .int _ => rfl
  | .text _ => rfl
  | .list [] => rfl
  | .list (d :: ds) => by
      simp [Datum.compactChars, Datum.laidOut, Layout.compact, Blanks.none,
        d.compactChars_eq (depth + 1), compactItems_eq (depth + 1) ds]
  | .record [] => rfl
  | .record ((name, d) :: fields) => by
      simp [Datum.compactChars, Datum.laidOut, Layout.compact, Blanks.none,
        d.compactChars_eq (depth + 1), compactFields_eq (depth + 1) fields]

theorem compactItems_eq (depth : Nat) : ∀ ds, compactItems ds = itemsLaidOut .compact depth ds
  | [] => rfl
  | d :: ds => by
      simp [compactItems, itemsLaidOut, Layout.compact, Blanks.none, d.compactChars_eq depth,
        compactItems_eq depth ds]

theorem compactFields_eq (depth : Nat) :
    ∀ fields, compactFields fields = fieldsLaidOut .compact depth fields
  | [] => rfl
  | (name, d) :: fields => by
      simp [compactFields, fieldsLaidOut, Layout.compact, Blanks.none, d.compactChars_eq depth,
        compactFields_eq depth fields]

end

mutual

/-- The indented form is a layout. -/
theorem Datum.prettyChars_eq (depth : Nat) :
    ∀ d : Datum, d.prettyChars depth = d.laidOut .pretty depth
  | .null => rfl
  | .bool true => rfl
  | .bool false => rfl
  | .int _ => rfl
  | .text _ => rfl
  | .list [] => rfl
  | .list (d :: ds) => by
      simp [Datum.prettyChars, Datum.laidOut, Layout.pretty, d.prettyChars_eq (depth + 1),
        prettyItems_eq (depth + 1) ds]
  | .record [] => rfl
  | .record ((name, d) :: fields) => by
      simp [Datum.prettyChars, Datum.laidOut, Layout.pretty, d.prettyChars_eq (depth + 1),
        prettyFields_eq (depth + 1) fields]

theorem prettyItems_eq (depth : Nat) : ∀ ds, prettyItems depth ds = itemsLaidOut .pretty depth ds
  | [] => rfl
  | d :: ds => by
      simp [prettyItems, itemsLaidOut, Layout.pretty, d.prettyChars_eq depth,
        prettyItems_eq depth ds]

theorem prettyFields_eq (depth : Nat) :
    ∀ fields, prettyFields depth fields = fieldsLaidOut .pretty depth fields
  | [] => rfl
  | (name, d) :: fields => by
      simp [prettyFields, fieldsLaidOut, Layout.pretty, d.prettyChars_eq depth,
        prettyFields_eq depth fields]

end

/-! ## The first character -/

theorem ne_of_isDigit {c d : Char} (hc : Text.isDigit c = true) (hd : Text.isDigit d = false) :
    c ≠ d := by
  rintro rfl
  exact absurd (hc.symm.trans hd) (by decide)

theorem toDigits_eq_cons (n : Nat) :
    ∃ d ds, Nat.toDigits 10 n = d :: ds ∧ Text.isDigit d = true := by
  rcases List.exists_cons_of_ne_nil (Nat.toDigits_ne_nil (b := 10) (n := n)) with ⟨d, ds, h⟩
  exact ⟨d, ds, h, isDigit_toDigits (n := n) (by rw [h]; exact List.mem_cons_self)⟩

/-- Every datum begins with a character that ends a run of blanks, is not the end of a
    list, and is the beginning of a word for a missing value only if it is missing. -/
theorem Datum.laidOut_eq_cons (l : Layout) (depth : Nat) (d : Datum) :
    ∃ c cs, d.laidOut l depth = c :: cs ∧ isBlank c = false ∧ c ≠ ']' ∧ (c = 'n' → d = .null) := by
  cases d with
  | null => exact ⟨_, _, rfl, rfl, by decide, fun _ => rfl⟩
  | bool b => cases b <;> exact ⟨_, _, rfl, rfl, by decide, fun h => absurd h (by decide)⟩
  | int n =>
      rw [laidOut, intChars]
      by_cases hn : n < 0
      · rw [if_pos hn]
        exact ⟨_, _, rfl, rfl, by decide, fun h => absurd h (by decide)⟩
      · rw [if_neg hn]
        rcases toDigits_eq_cons n.natAbs with ⟨c, cs, hcs, hc⟩
        refine ⟨c, cs, hcs, ?_, ne_of_isDigit hc rfl, fun h => absurd h (ne_of_isDigit hc rfl)⟩
        simp [isBlank, ne_of_isDigit hc (d := ' ') rfl, ne_of_isDigit hc (d := '\n') rfl,
          ne_of_isDigit hc (d := '\t') rfl, ne_of_isDigit hc (d := '\r') rfl]
  | text s => exact ⟨_, _, rfl, rfl, by decide, fun h => absurd h (by decide)⟩
  | list ds => cases ds <;> exact ⟨_, _, rfl, rfl, by decide, fun h => absurd h (by decide)⟩
  | record fields =>
      cases fields <;> exact ⟨_, _, rfl, rfl, by decide, fun h => absurd h (by decide)⟩

theorem skipBlanks_append (blanks : Blanks) (cs : List Char) :
    skipBlanks (blanks.1 ++ cs) = skipBlanks cs :=
  List.dropWhile_append_of_pos blanks.2

theorem skipBlanks_cons {c : Char} (hc : isBlank c = false) (cs : List Char) :
    skipBlanks (c :: cs) = c :: cs :=
  List.dropWhile_cons_of_neg (by simp [hc])

theorem ends_append (blanks : Blanks) {rest : List Char} (h : Ends rest) :
    Ends (blanks.1 ++ rest) := by
  rcases blanks with ⟨_ | ⟨c, cs⟩, hblank⟩
  · exact h
  · have hc : isBlank c = true := hblank c List.mem_cons_self
    simp only [isBlank, Bool.or_eq_true, decide_eq_true_eq] at hc
    rcases hc with ((rfl | rfl) | rfl) | rfl <;> exact ends_cons (by decide) _

theorem ends_items (l : Layout) (depth : Nat) (ds : List Datum) (blanks : Blanks)
    (rest : List Char) : Ends (itemsLaidOut l depth ds ++ (blanks.1 ++ ']' :: rest)) := by
  cases ds with
  | nil => exact ends_append blanks (ends_cons (by decide) rest)
  | cons d ds => exact ends_cons (by decide) _

theorem ends_fields (l : Layout) (depth : Nat) (fields : List (String × Datum)) (blanks : Blanks)
    (rest : List Char) : Ends (fieldsLaidOut l depth fields ++ (blanks.1 ++ '\x7d' :: rest)) := by
  cases fields with
  | nil => exact ends_append blanks (ends_cons (by decide) rest)
  | cons d ds => exact ends_cons (by decide) _

namespace Format

/-- A format reads a datum back, however it is laid out and whatever follows. -/
def Accepts (f : Format) (d : Datum) : Prop :=
  ∀ (l : Layout) (depth : Nat) (blanks : Blanks) {rest : List Char}, Ends rest →
    f.read (blanks.1 ++ (d.laidOut l depth ++ rest)) = .ok (d, rest)

/-- Nothing but the value stands in the text. -/
theorem Accepts.parse {f : Format} {d : Datum} (h : f.Accepts d) (l : Layout) (depth : Nat) :
    f.parse (String.ofList (d.laidOut l depth)) = .ok d := by
  have hread := h l depth .none ends_nil
  rw [List.append_nil] at hread
  change f.read (d.laidOut l depth) = _ at hread
  simp only [Format.parse, String.toList_ofList, hread, bind, Except.bind, skipBlanks,
    List.dropWhile_nil, List.isEmpty_nil, if_true, pure, Except.pure]

/-! ## Basic kinds -/

theorem accepts_int {low high n : Int} (hlow : low ≤ n) (hhigh : n ≤ high)
    (hsize : n.natAbs < UInt64.size) : (int low high).Accepts (.int n) := by
  intro l depth blanks rest hrest
  change (int low high).read (blanks.1 ++ (intChars n ++ rest)) = _
  unfold int intChars
  by_cases hn : n < 0
  · have hzero : n.natAbs ≠ 0 := by omega
    have hself : -(n.natAbs : Int) = n := by omega
    simp only [if_pos hn, skipBlanks_append, List.cons_append, skipBlanks_cons (c := '-') rfl,
      readInteger_toDigits true hsize hrest, bind, Except.bind, if_true, if_neg hzero, hself,
      if_pos (And.intro hlow hhigh)]
  · have hself : (n.natAbs : Int) = n := by omega
    rcases toDigits_eq_cons n.natAbs with ⟨c, cs, hcs, hc⟩
    have hread := readInteger_toDigits false hsize hrest
    rcases Datum.laidOut_eq_cons l depth (.int n) with ⟨c', cs', hcs', hblank, _⟩
    obtain ⟨rfl, rfl⟩ : c' = c ∧ cs' = cs := by
      rw [Datum.laidOut, intChars, if_neg hn, hcs, List.cons.injEq] at hcs'
      exact ⟨hcs'.1.symm, hcs'.2.symm⟩
    rw [hcs, List.cons_append] at hread
    simp only [if_neg hn, skipBlanks_append, hcs, List.cons_append, skipBlanks_cons hblank]
    -- Its first character is a digit, and no sign.
    split
    · rename_i heq
      exact absurd (List.cons.inj heq).1 (ne_of_isDigit hc rfl)
    · simp only [List.head?_cons, Option.map_some, hc, Option.getD_some, if_true, hread, bind,
        Except.bind, Bool.false_eq_true, if_false, hself, if_pos (And.intro hlow hhigh)]

theorem accepts_bool (b : Bool) : bool.Accepts (.bool b) := by
  intro l depth blanks rest _
  cases b <;>
    simp only [bool, skipBlanks_append, Datum.laidOut, List.cons_append,
      skipBlanks_cons (c := 't') rfl, skipBlanks_cons (c := 'f') rfl] <;> rfl

theorem accepts_text (s : String) : text.Accepts (.text s) := by
  intro l depth blanks rest _
  have hread := readString_quoted s rest
  simp only [text, skipBlanks_append, Datum.laidOut, quoted, List.cons_append, List.append_assoc,
    List.nil_append, skipBlanks_cons (c := quote) rfl, if_true, hread, bind, Except.bind, pure,
    Except.pure]

theorem accepts_choice {names : List String} {s : String} (h : s ∈ names) :
    (choice names).Accepts (.text s) := by
  intro l depth blanks rest _
  have hread := readString_quoted s rest
  simp only [choice, skipBlanks_append, Datum.laidOut, quoted, List.cons_append,
    List.append_assoc, List.nil_append, skipBlanks_cons (c := quote) rfl]
  -- It begins with a quotation mark, so it is neither empty nor an object.
  split
  · rename_i heq
    exact absurd heq (by simp only [reduceCtorEq, not_false_eq_true])
  · rename_i heq
    exact absurd (List.cons.inj heq).1 (by decide)
  · rename_i heq
    rcases List.cons.inj heq with ⟨rfl, rfl⟩
    simp only [if_true, hread, if_pos h, bind, Except.bind, pure, Except.pure]

theorem accepts_null (inner : Format) : (optional inner).Accepts .null := by
  intro l depth blanks rest _
  simp only [optional, skipBlanks_append, Datum.laidOut, List.cons_append,
    skipBlanks_cons (c := 'n') rfl]
  rfl

/-- A value that is there does not begin as one that is missing. -/
theorem accepts_optional {inner : Format} {d : Datum} (h : inner.Accepts d) (hd : d ≠ .null) :
    (optional inner).Accepts d := by
  intro l depth blanks rest hrest
  rcases d.laidOut_eq_cons l depth with ⟨c, cs, hcs, hblank, _, hnull⟩
  have hread := h l depth .none hrest
  rw [hcs] at hread
  simp only [optional, skipBlanks_append, hcs, List.cons_append, skipBlanks_cons hblank]
  split
  · rename_i heq
    exact absurd (hnull (List.cons.inj heq).1) hd
  · exact hread

/-! ## Lists -/

theorem readItem_end (item : Reader Datum) (first : Bool) (blanks : Blanks) (rest : List Char) :
    readItem item first (blanks.1 ++ ']' :: rest) = .ok (none, ']' :: rest) := by
  simp only [readItem, skipBlanks_append, skipBlanks_cons (c := ']') rfl]
  rfl

/-- Where an item is due there is one, unless the list ends. At the beginning of the
    list it is due at once, later behind a comma. -/
theorem readItem_eq {item : Reader Datum} {cs tail : List Char} {c : Char} {d : Datum}
    {more : List Char} (hskip : skipBlanks cs = c :: tail) (hend : c ≠ ']')
    (hread : item (c :: tail) = .ok (d, more)) :
    readItem item true cs = .ok (some d, more) ∧
      readItem item false (',' :: cs) = .ok (some d, more) := by
  have hcomma : skipBlanks (',' :: cs) = ',' :: cs := skipBlanks_cons rfl cs
  constructor
  · simp [readItem, hskip, hread, bind, Except.bind, pure, Except.pure]
  · simp [readItem, hcomma, hskip, hend, hread, bind, Except.bind, pure, Except.pure]

/-- An accepted item, and how much of the text it takes. -/
theorem readItem_accepts {f : Format} {d : Datum} (h : f.Accepts d) (l : Layout) (depth : Nat)
    (blanks : Blanks) {more : List Char} (hmore : Ends more) :
    readItem f.read true (blanks.1 ++ (d.laidOut l depth ++ more)) = .ok (some d, more) ∧
      readItem f.read false (',' :: (blanks.1 ++ (d.laidOut l depth ++ more))) =
        .ok (some d, more) := by
  rcases d.laidOut_eq_cons l depth with ⟨c, cs, hcs, hblank, hend, _⟩
  have hread := h l depth .none hmore
  change f.read (d.laidOut l depth ++ more) = _ at hread
  rw [hcs, List.cons_append] at hread
  have hskip : skipBlanks (blanks.1 ++ (d.laidOut l depth ++ more)) = c :: (cs ++ more) := by
    rw [skipBlanks_append, hcs, List.cons_append, skipBlanks_cons hblank]
  exact readItem_eq hskip hend hread

theorem length_le_items (l : Layout) (depth : Nat) (ds : List Datum) :
    ds.length ≤ (itemsLaidOut l depth ds).length := by
  induction ds with
  | nil => exact Nat.le_refl _
  | cons d ds ih =>
      simp only [itemsLaidOut, List.length_cons, List.length_append]
      omega

/-- The items behind the first. Every item takes a step, and the end takes another. -/
theorem readItems_next {f : Format} {ds : List Datum} (h : ∀ d ∈ ds, f.Accepts d) (l : Layout)
    (depth : Nat) (blanks : Blanks) (rest : List Char) {steps : Nat} (hsteps : ds.length < steps) :
    readItems f.read steps false (itemsLaidOut l depth ds ++ (blanks.1 ++ ']' :: rest)) =
      .ok (ds, ']' :: rest) := by
  induction ds generalizing steps with
  | nil =>
      rcases Nat.exists_eq_add_one.mpr (Nat.zero_lt_of_lt hsteps) with ⟨steps, rfl⟩
      simp only [readItems, itemsLaidOut, List.nil_append, readItem_end, bind, Except.bind, pure,
        Except.pure]
  | cons d ds ih =>
      rcases Nat.exists_eq_add_one.mpr (Nat.zero_lt_of_lt hsteps) with ⟨steps, rfl⟩
      have hmore := ih (fun d hd => h d (List.mem_cons_of_mem _ hd))
        (Nat.lt_of_succ_lt_succ hsteps)
      have hitem := (readItem_accepts (h d List.mem_cons_self) l depth (l.breakAt depth)
        (ends_items l depth ds blanks rest)).2
      simp only [readItems, itemsLaidOut, List.cons_append, List.append_assoc, hitem, hmore, bind,
        Except.bind, pure, Except.pure]

theorem accepts_list {f : Format} {ds : List Datum} (h : ∀ d ∈ ds, f.Accepts d) :
    (list f).Accepts (.list ds) := by
  intro l depth blanks rest _
  have hend (rest : List Char) : readListEnd (']' :: rest) = .ok rest := rfl
  cases ds with
  | nil =>
      have hread := readItem_end f.read true .none rest
      change readItem f.read true (']' :: rest) = _ at hread
      simp only [list, skipBlanks_append, Datum.laidOut, List.cons_append, List.nil_append,
        skipBlanks_cons (c := '[') rfl, readItems, hread, hend, bind, Except.bind, pure,
        Except.pure]
  | cons d ds =>
      have hitem := (readItem_accepts (h d List.mem_cons_self) l (depth + 1)
        (l.breakAt (depth + 1)) (ends_items l (depth + 1) ds (l.breakAt depth) rest)).1
      have hmore {steps : Nat} (hsteps : ds.length < steps) := readItems_next
        (fun d hd => h d (List.mem_cons_of_mem _ hd)) l (depth + 1) (l.breakAt depth) rest hsteps
      have hlength := length_le_items l (depth + 1) ds
      simp only [list, skipBlanks_append, Datum.laidOut, List.cons_append, List.append_assoc,
        List.nil_append, skipBlanks_cons (c := '[') rfl, readItems, hitem, bind, Except.bind]
      -- As many steps are taken as there are characters, which is enough for the items.
      rw [hmore (by simp only [List.length_append, List.length_cons]; omega)]
      simp only [hend, pure, Except.pure]

/-! ## Records -/

/-- A name and a value that stand under one name each are found. -/
theorem lookup_of_mem {β : Type} {entries : List (String × β)} {name : String} {b : β}
    (hnames : (entries.map (·.1)).Nodup) (h : (name, b) ∈ entries) :
    entries.lookup name = some b := by
  induction entries with
  | nil => exact absurd h List.not_mem_nil
  | cons entry entries ih =>
      rw [List.map_cons, List.nodup_cons] at hnames
      rcases List.mem_cons.mp h with rfl | h
      · exact List.lookup_cons_self
      · have hne : name ≠ entry.1 := by
          rintro rfl
          exact hnames.1 (List.mem_map.mpr ⟨_, h, rfl⟩)
        rw [List.lookup_cons, beq_eq_false_iff_ne.mpr hne]
        exact ih hnames.2 h

theorem lookup_eq_none {β : Type} {entries : List (String × β)} {name : String}
    (h : name ∉ entries.map (·.1)) : entries.lookup name = none := by
  rw [List.lookup_eq_none_iff]
  intro entry hentry
  exact bne_iff_ne.mpr fun hname => h (hname ▸ List.mem_map_of_mem hentry)

/-- A field whose name comes next is read and added to those that have been found. -/
theorem readEntries_step {fields : List (String × Format)} {first : Bool}
    {found : List (String × Datum)} {name : String} {f : Format} {d : Datum} {l : Layout}
    {depth : Nat} {cs more : List Char}
    (hkey : readKey first cs = .ok (some name, ':' :: (l.space.1 ++ (d.laidOut l depth ++ more))))
    (hfield : fields.lookup name = some f) (hd : f.Accepts d) (hnew : found.lookup name = none)
    (hmore : Ends more) (steps : Nat) :
    readEntries fields (steps + 1) first found cs =
      readEntries fields steps false (found ++ [(name, d)]) more := by
  have hcolon (cs : List Char) : readColon (':' :: cs) = .ok cs := rfl
  simp only [readEntries, hkey, hfield, hnew, hcolon, hd l depth l.space hmore, bind, Except.bind,
    Option.isSome_none, Bool.false_eq_true, if_false]

/-- A name stands at the beginning of the object, or behind a comma. -/
theorem readKey_quoted (blanks : Blanks) (name : String) (rest : List Char) :
    readKey true (blanks.1 ++ (quoted name ++ rest)) = .ok (some name, rest) ∧
      readKey false (',' :: (blanks.1 ++ (quoted name ++ rest))) = .ok (some name, rest) := by
  have hread := readString_quoted name rest
  have hskip : skipBlanks (blanks.1 ++ (quoted name ++ rest)) =
      quote :: (escapeChars name.toList ++ quote :: rest) := by
    simp only [skipBlanks_append, quoted, List.cons_append, List.append_assoc, List.nil_append,
      skipBlanks_cons (c := quote) rfl]
  have hcomma (cs : List Char) : skipBlanks (',' :: cs) = ',' :: cs := skipBlanks_cons rfl cs
  -- What opens a name does not close the object.
  have hopen : quote ≠ '\x7d' := by decide
  constructor
  · simp [readKey, hskip, hread, bind, Except.bind, pure, Except.pure]
  · simp [readKey, hcomma, hskip, hread, bind, Except.bind, pure, Except.pure]

theorem readKey_end (first : Bool) (blanks : Blanks) (rest : List Char) :
    readKey first (blanks.1 ++ '\x7d' :: rest) = .ok (none, rest) := by
  simp only [readKey, skipBlanks_append, skipBlanks_cons (c := '\x7d') rfl]
  rfl

theorem length_le_fields (l : Layout) (depth : Nat) (ds : List (String × Datum)) :
    ds.length ≤ (fieldsLaidOut l depth ds).length := by
  induction ds with
  | nil => exact Nat.le_refl _
  | cons d ds ih =>
      simp only [fieldsLaidOut, List.length_cons, List.length_append]
      omega

/-- The fields behind those that have been found, which all have other names. -/
theorem readEntries_next {fields : List (String × Format)} {found ds : List (String × Datum)}
    (hnames : ((found ++ ds).map (·.1)).Nodup)
    (hfields : ∀ p ∈ ds, ∃ f, fields.lookup p.1 = some f ∧ f.Accepts p.2) (l : Layout)
    (depth : Nat) (blanks : Blanks) (rest : List Char) {steps : Nat} (hsteps : ds.length < steps) :
    readEntries fields steps false found
        (fieldsLaidOut l depth ds ++ (blanks.1 ++ '\x7d' :: rest)) = .ok (found ++ ds, rest) := by
  induction ds generalizing found steps with
  | nil =>
      rcases Nat.exists_eq_add_one.mpr (Nat.zero_lt_of_lt hsteps) with ⟨steps, rfl⟩
      simp only [readEntries, fieldsLaidOut, List.nil_append, readKey_end, bind, Except.bind, pure,
        Except.pure, List.append_nil]
  | cons p ds ih =>
      rcases Nat.exists_eq_add_one.mpr (Nat.zero_lt_of_lt hsteps) with ⟨steps, rfl⟩
      rcases hfields p List.mem_cons_self with ⟨f, hfield, haccepts⟩
      -- The name is new, since no two of them are the same.
      have hnew : found.lookup p.1 = none := by
        refine lookup_eq_none fun hmem => ?_
        rw [List.map_append, List.nodup_append] at hnames
        exact hnames.2.2 _ hmem _ List.mem_cons_self rfl
      have hkey := (readKey_quoted (l.breakAt depth) p.1 (':' :: (l.space.1 ++ (p.2.laidOut l depth
        ++ (fieldsLaidOut l depth ds ++ (blanks.1 ++ '\x7d' :: rest)))))).2
      have hstep := readEntries_step hkey hfield haccepts hnew
        (ends_fields l depth ds blanks rest) steps
      have hnames' : ((found ++ [p] ++ ds).map (·.1)).Nodup := by simpa using hnames
      have hmore := ih hnames' (fun q hq => hfields q (List.mem_cons_of_mem _ hq))
        (Nat.lt_of_succ_lt_succ hsteps)
      rw [List.append_assoc, List.singleton_append] at hmore
      rw [← hmore, ← hstep]
      simp only [fieldsLaidOut, List.cons_append, List.append_assoc]

/-- Every field is there, so none counts as missing. -/
theorem arrange_eq {found ds : List (String × Datum)} {fields : List (String × Format)}
    (hnames : fields.map (·.1) = ds.map (·.1))
    (hfound : ∀ p ∈ ds, found.lookup p.1 = some p.2) : arrange found fields = .ok ds := by
  induction fields generalizing ds with
  | nil =>
      rw [List.map_nil, eq_comm, List.map_eq_nil_iff] at hnames
      rw [hnames]
      rfl
  | cons field fields ih =>
      cases ds with
      | nil => exact absurd hnames (by simp only [List.map_cons, List.map_nil, reduceCtorEq,
          not_false_eq_true])
      | cons p ds =>
          rw [List.map_cons, List.map_cons, List.cons.injEq] at hnames
          rcases hnames with ⟨hname, hrest⟩
          have hp := hfound p List.mem_cons_self
          have hmore := ih hrest fun q hq => hfound q (List.mem_cons_of_mem _ hq)
          simp only [arrange, hname, hp, hmore, bind, Except.bind, pure, Except.pure]

/-- Every field is looked up under its name, and finds its own format. -/
theorem lookup_of_forall₂ {fields : List (String × Format)} {ds : List (String × Datum)}
    (hnames : (fields.map (·.1)).Nodup)
    (h : List.Forall₂ (fun field d => field.1 = d.1 ∧ field.2.Accepts d.2) fields ds) :
    ∀ p ∈ ds, ∃ f, fields.lookup p.1 = some f ∧ f.Accepts p.2 := by
  intro p hp
  rcases List.forall₂_iff_get.mp h with ⟨hlength, hget⟩
  rcases List.getElem_of_mem hp with ⟨i, hi, rfl⟩
  rcases hget i (hlength ▸ hi) hi with ⟨hname, haccepts⟩
  exact ⟨_, lookup_of_mem hnames (hname ▸ List.get_mem fields ⟨i, hlength ▸ hi⟩), haccepts⟩

/-- The fields of a record, each accepted by the format of its name. -/
theorem accepts_record {fields : List (String × Format)} {ds : List (String × Datum)}
    (hnames : (fields.map (·.1)).Nodup)
    (h : List.Forall₂ (fun field d => field.1 = d.1 ∧ field.2.Accepts d.2) fields ds) :
    (record fields).Accepts (.record ds) := by
  have hsame : fields.map (·.1) = ds.map (·.1) :=
    List.forall₂_eq_eq_eq ▸ List.forall₂_map_left_iff.mpr (List.forall₂_map_right_iff.mpr
      (h.imp fun _ _ hd => hd.1))
  have hdistinct : (ds.map (·.1)).Nodup := hsame ▸ hnames
  have hfields := lookup_of_forall₂ hnames h
  have harrange : arrange ds fields = .ok ds :=
    arrange_eq hsame fun p hp => lookup_of_mem hdistinct hp
  intro l depth blanks rest _
  -- The first field stands alone, and those behind it follow a comma each.
  cases ds with
  | nil =>
      have hend := readKey_end true .none rest
      change readKey true ('\x7d' :: rest) = _ at hend
      simp only [record, skipBlanks_append, Datum.laidOut, List.cons_append, List.nil_append,
        skipBlanks_cons (c := '\x7b') rfl, readEntries, hend, harrange, bind, Except.bind, pure,
        Except.pure]
  | cons p ds =>
      rcases hfields p List.mem_cons_self with ⟨f, hfield, haccepts⟩
      have hkey := (readKey_quoted (l.breakAt (depth + 1)) p.1 (':' :: (l.space.1
        ++ (p.2.laidOut l (depth + 1) ++ (fieldsLaidOut l (depth + 1) ds
          ++ ((l.breakAt depth).1 ++ '\x7d' :: rest)))))).1
      have hstep {steps : Nat} := readEntries_step hkey hfield haccepts List.lookup_nil
        (ends_fields l (depth + 1) ds (l.breakAt depth) rest) steps
      have hnames' : (([p] ++ ds).map (·.1)).Nodup := hdistinct
      have hmore {steps : Nat} (hsteps : ds.length < steps) := readEntries_next hnames'
        (fun q hq => hfields q (List.mem_cons_of_mem _ hq)) l (depth + 1) (l.breakAt depth) rest
        hsteps
      have hlength := length_le_fields l (depth + 1) ds
      simp only [record, skipBlanks_append, Datum.laidOut, List.cons_append, List.append_assoc,
        List.nil_append, skipBlanks_cons (c := '\x7b') rfl, bind, Except.bind]
      rw [hstep, List.nil_append, hmore (by
        simp only [List.length_append, List.length_cons]
        omega)]
      simp only [List.singleton_append, harrange, pure, Except.pure]

/-! ## What a record is read as -/

theorem arrange_names {found : List (String × Datum)} {fields : List (String × Format)}
    {ds : List (String × Datum)} (h : arrange found fields = .ok ds) :
    ds.map (·.1) = fields.map (·.1) := by
  induction fields generalizing ds with
  | nil =>
      obtain rfl : [] = ds := Except.ok.inj h
      rfl
  | cons field fields ih =>
      have hrest {d : Datum} (h : (do return (field.1, d) :: (← arrange found fields) :
          Except Failure (List (String × Datum))) = .ok ds) :
          ds.map (·.1) = (field :: fields).map (·.1) := by
        rcases bind_ok h with ⟨rest, hrest, h⟩
        obtain rfl : (field.1, d) :: rest = ds := Except.ok.inj h
        rw [List.map_cons, List.map_cons, ih hrest]
      unfold arrange at h
      cases hfound : found.lookup field.1 with
      | some d =>
          simp only [hfound] at h
          exact hrest h
      | none =>
          simp only [hfound] at h
          split_ifs at h
          exact hrest h

theorem readInOrder_names {fields : List (String × Format)} {first : Bool} {cs rest : List Char}
    {ds : List (String × Datum)} (h : readInOrder fields first cs = .ok (ds, rest)) :
    ds.map (·.1) = fields.map (·.1) := by
  induction fields generalizing ds first cs rest with
  | nil =>
      obtain rfl : [] = ds := (Prod.mk.inj (Except.ok.inj h)).1
      rfl
  | cons field fields ih =>
      unfold readInOrder at h
      rcases bind_ok h with ⟨⟨item, cs'⟩, _, h⟩
      cases item with
      | none => exact absurd h (by simp only [reduceCtorEq, not_false_eq_true])
      | some d =>
          rcases bind_ok h with ⟨⟨more, _⟩, hmore, h⟩
          obtain rfl : (field.1, d) :: more = ds := (Prod.mk.inj (Except.ok.inj h)).1
          rw [List.map_cons, List.map_cons, ih hmore]

/-- Whatever order its fields stood in, and whichever were missing: a record that has
    been read has all fields, in the order of declaration. -/
theorem parse_record {fields : List (String × Format)} {s : String} {d : Datum}
    (h : (record fields).parse s = .ok d) :
    ∃ ds, d = .record ds ∧ ds.map (·.1) = fields.map (·.1) := by
  rcases bind_ok h with ⟨⟨d', rest⟩, hread, h⟩
  obtain rfl : d' = d := by
    simp only [] at h
    split_ifs at h
    exact Except.ok.inj h
  simp only [record] at hread
  split at hread
  · rcases bind_ok hread with ⟨⟨found, _⟩, _, hread⟩
    rcases bind_ok hread with ⟨ds, harrange, hread⟩
    obtain rfl : .record ds = d' := (Prod.mk.inj (Except.ok.inj hread)).1
    exact ⟨ds, rfl, arrange_names harrange⟩
  · rcases bind_ok hread with ⟨⟨ds, _⟩, hread', hread⟩
    rcases bind_ok hread with ⟨_, _, hread⟩
    obtain rfl : .record ds = d' := (Prod.mk.inj (Except.ok.inj hread)).1
    exact ⟨ds, rfl, readInOrder_names hread'⟩
  · exact absurd hread (by simp only [reduceCtorEq, not_false_eq_true])

end Format

end ChainSync.Wire
