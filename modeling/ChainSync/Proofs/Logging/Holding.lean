import ChainSync.Proofs.Logging.Ages
import ChainSync.Proofs.Logging.Entries

/-!
# Archives in a Directory

The archives of a directory as a list, youngest first.

What is listed in a directory has no order of its own. The archives in it have one, by
their seconds and numbers, and as no two have the same name they make up one list:
`Directory.Holds`. Sorting them by name gives that list back, and removing those that
are too many leaves the beginning of it.

## Main definitions

* `Archive.archives`: The names of all archives, in no order.
* `Run`, `Run.Follows`: Runs by the clock on the wall, one after the other.
* `Archived`: What the log file of a run becomes.
* `Directory.Holds`: The archives of a directory, youngest first.

## Theorems

* `Directory.Holds.oldestFirst_eq`: Archives sorted by name.
* `Directory.Holds.prune`: Archives that are too many go.
* `Directory.Holds.rename`: The log file of the last run is one more archive.
-/

namespace ChainSync

open Archive

namespace Archive

/-- The names of all archives, as they are listed. -/
def archives (d : Directory) : List String := (d.map (·.1)).filter isArchive

theorem oldestFirst_perm (d : Directory) : (oldestFirst d).Perm (archives d) :=
  List.mergeSort_perm _ _

theorem oldestFirst_sorted (d : Directory) :
    (oldestFirst d).Pairwise fun a b => notYounger a b = true :=
  List.pairwise_mergeSort notYounger_trans notYounger_total _

end Archive

/-- The log file of a run. -/
structure Run where
  /-- The second that the clock on the wall showed at its last change. -/
  second : Int
  /-- The second of its last change. -/
  modified : Int
  text : String
deriving DecidableEq

namespace Run

/-- A run by its log file. -/
def ofFile (zone : Zone) (text : String) (modified : Int) : Run :=
  { second := zone.wallSecond modified, modified, text }

/-- The clock on the wall did not show an earlier second than for any run before. -/
def Follows (run : Run) (runs : List Run) : Prop := ∀ r ∈ runs, r.second ≤ run.second

end Run

/-- A log file that has become an archive. -/
structure Archived where
  run : Run
  number : Nat
deriving DecidableEq

namespace Archived

def name (a : Archived) : String := nameOf (stampText a.run.second) a.number

def entry (a : Archived) : String × Node := (a.name, .file a.run.text a.run.modified)

/-- Second and number. -/
def key (a : Archived) : Int × Nat := (a.run.second, a.number)

/-- Archives in order. -/
def Younger (a b : Archived) : Prop :=
  b.run.second < a.run.second ∨ b.run.second = a.run.second ∧ b.number < a.number

/-- The name of an archive tells its order. -/
structure Named (a : Archived) : Prop where
  year : HasPlainYear a.run.second
  number : a.number ≤ lastNumber

variable {a b : Archived}

theorem isArchive_name (a : Archived) : isArchive a.name = true := isArchive_nameOf _ _

theorem notYounger_name (ha : a.Named) (hb : b.Named) :
    notYounger a.name b.name = true ↔
      a.run.second < b.run.second ∨ a.run.second = b.run.second ∧ a.number ≤ b.number :=
  notYounger_nameOf ha.year hb.year ha.number hb.number

/-- A name belongs to one second and number. -/
theorem eq_of_name_eq (ha : a.Named) (hb : b.Named) (h : a.name = b.name) :
    a.run.second = b.run.second ∧ a.number = b.number :=
  eq_of_key_nameOf_eq ha.year hb.year ha.number hb.number (congrArg Archive.key h)

theorem notYounger_name_of_younger (ha : a.Named) (hb : b.Named) (h : a.Younger b) :
    notYounger b.name a.name = true := by
  rw [notYounger_name hb ha]
  unfold Younger at h
  omega

theorem name_ne (ha : a.Named) (hb : b.Named) (h : a.Younger b) : a.name ≠ b.name := by
  intro heq
  have hsame := eq_of_name_eq ha hb heq
  unfold Younger at h
  omega

end Archived

/-- The archives of a directory, youngest first. -/
structure Directory.Holds (d : Directory) (archives : List Archived) : Prop where
  unique : d.Unique
  entries : (d.filter (isArchive ·.1)).Perm (archives.map Archived.entry)
  ordered : archives.Pairwise Archived.Younger
  named : ∀ a ∈ archives, a.Named

namespace Directory.Holds

variable {d : Directory} {archives : List Archived}

/-- The log file of a run and one archive. -/
theorem holds_single {a : Archived} (hnamed : a.Named) (node : Node) :
    Directory.Holds [(activeName, node), a.entry] [a] := by
  have hactive : activeName ≠ a.name := fun h =>
    absurd (isArchive_activeName.symm.trans (h ▸ a.isArchive_name)) Bool.false_ne_true
  refine ⟨?_, ?_, List.pairwise_singleton _ _, List.forall_mem_singleton.mpr hnamed⟩
  · exact List.nodup_cons.mpr
      ⟨fun hin => hactive (List.mem_singleton.mp hin), List.pairwise_singleton _ _⟩
  · have hname : isArchive a.entry.1 = true := a.isArchive_name
    simp [isArchive_activeName, hname]

theorem mem_iff (h : d.Holds archives) {e : String × Node} :
    e ∈ d ∧ isArchive e.1 = true ↔ ∃ a ∈ archives, a.entry = e := by
  rw [← List.mem_map, ← h.entries.mem_iff, List.mem_filter]

/-- Archives are there to be seen, so whatever has their name is. -/
theorem reaches_eq_has (h : d.Holds archives) {name : String} (hname : isArchive name = true) :
    d.reaches name = d.has name := by
  rw [Bool.eq_iff_iff]
  refine ⟨has_of_reaches, fun hhas => ?_⟩
  rcases List.mem_map.mp (has_iff.mp hhas) with ⟨e, he, rfl⟩
  rcases h.mem_iff.mp ⟨he, hname⟩ with ⟨a, _, rfl⟩
  exact reaches_of_file (get?_of_mem h.unique he)

/-- A name is taken if there is an archive of its second and number. -/
theorem has_nameOf_iff (h : d.Holds archives) {t : Int} {n : Nat} (ht : HasPlainYear t)
    (hn : n ≤ lastNumber) :
    d.has (nameOf (stampText t) n) = true ↔ (t, n) ∈ archives.map Archived.key := by
  let named : Archived := ⟨⟨t, 0, ""⟩, n⟩
  have hnamed : named.Named := ⟨ht, hn⟩
  rw [has_iff, List.mem_map, List.mem_map]
  constructor
  · rintro ⟨e, he, hname⟩
    have harchive : isArchive e.1 = true := hname ▸ isArchive_nameOf _ _
    rcases h.mem_iff.mp ⟨he, harchive⟩ with ⟨a, ha, rfl⟩
    rcases Archived.eq_of_name_eq (h.named a ha) hnamed hname with ⟨hsecond, hnumber⟩
    exact ⟨a, ha, Prod.ext hsecond hnumber⟩
  · rintro ⟨a, ha, hkey⟩
    rcases Prod.mk.inj hkey with ⟨rfl, rfl⟩
    exact ⟨a.entry, (h.mem_iff.mpr ⟨a, ha, rfl⟩).1, rfl⟩

theorem get?_name (h : d.Holds archives) {a : Archived} (ha : a ∈ archives) :
    d.get? a.name = some (.file a.run.text a.run.modified) :=
  get?_of_mem h.unique (h.mem_iff.mpr ⟨a, ha, rfl⟩).1

/-- Sorting the names of the archives gives the list back. -/
theorem oldestFirst_eq (h : d.Holds archives) :
    oldestFirst d = (archives.map Archived.name).reverse := by
  have hperm : (oldestFirst d).Perm (archives.map Archived.name).reverse := by
    have hnames := h.entries.map (·.1)
    rw [List.map_map] at hnames
    refine (oldestFirst_perm d).trans ?_
    rw [Archive.archives, List.filter_map]
    exact hnames.trans (List.reverse_perm _).symm
  -- There is one sorted list of the same names, and this is one.
  have hsorted : (archives.map Archived.name).reverse.Pairwise
      fun a b => notYounger a b = true := by
    rw [List.pairwise_reverse, List.pairwise_map]
    exact h.ordered.imp_of_mem fun ha hb hab =>
      Archived.notYounger_name_of_younger (h.named _ ha) (h.named _ hb) hab
  have hmem : ∀ name ∈ oldestFirst d, ∃ a ∈ archives, a.name = name := fun name hname => by
    exact List.mem_map.mp (List.mem_reverse.mp (hperm.mem_iff.mp hname))
  refine hperm.eq_of_pairwise (fun x y hx hy hxy hyx => ?_) (oldestFirst_sorted d) hsorted
  rcases hmem x hx with ⟨a, ha, rfl⟩
  rcases List.mem_map.mp (List.mem_reverse.mp hy) with ⟨b, hb, rfl⟩
  rw [Archived.notYounger_name (h.named a ha) (h.named b hb)] at hxy
  rw [Archived.notYounger_name (h.named b hb) (h.named a ha)] at hyx
  -- Names that are not younger than each other are the same.
  have hsecond : a.run.second = b.run.second := by omega
  have hnumber : a.number = b.number := by omega
  rw [Archived.name, Archived.name, hsecond, hnumber]

theorem excess_eq (h : d.Holds archives) (keep : Nat) :
    excess d keep = ((archives.drop keep).map Archived.name).reverse := by
  simp only [excess, h.oldestFirst_eq, List.length_reverse, List.length_map, List.take_reverse,
    List.map_drop]
  congr 1
  by_cases hkeep : keep ≤ archives.length
  · rw [Nat.sub_sub_self hkeep]
  · rw [List.drop_of_length_le (by simp; omega), List.drop_of_length_le (by simp; omega)]

/-! ## Changes -/

/-- Archives that are too many go, and nothing stays that should have gone. -/
theorem prune (h : d.Holds archives) (keep : Nat) :
    (Archive.prune d keep).1.Holds (archives.take keep) ∧ (Archive.prune d keep).2 = [] := by
  have hexcess : ∀ name, name ∈ excess d keep ↔ ∃ a ∈ archives.drop keep, a.name = name :=
    fun name => by rw [h.excess_eq keep, List.mem_reverse, List.mem_map]
  -- What is kept is younger than what goes, so no name is on both sides.
  have hapart : ∀ a ∈ archives.take keep, ∀ b ∈ archives.drop keep, a.Younger b := by
    have hordered := h.ordered
    rw [← List.take_append_drop keep archives, List.pairwise_append] at hordered
    exact hordered.2.2
  unfold Archive.prune
  generalize excess d keep = names at hexcess ⊢
  refine ⟨⟨h.unique.filter _, ?_, ?_, ?_⟩, ?_⟩
  · have hkept : ∀ e ∈ (archives.take keep).map Archived.entry,
        decide (e.1 ∉ names ∨ e.2.isDirectory = true) = true := fun e he => by
      rcases List.mem_map.mp he with ⟨a, ha, rfl⟩
      refine decide_eq_true (.inl fun hin => ?_)
      rcases (hexcess _).mp hin with ⟨b, hb, hname⟩
      exact Archived.name_ne (h.named a (List.mem_of_mem_take ha))
        (h.named b (List.mem_of_mem_drop hb)) (hapart a ha b hb) hname.symm
    have hgone : ∀ e ∈ (archives.drop keep).map Archived.entry,
        ¬ decide (e.1 ∉ names ∨ e.2.isDirectory = true) = true := fun e he => by
      rcases List.mem_map.mp he with ⟨a, ha, rfl⟩
      have hin : a.name ∈ names := (hexcess _).mpr ⟨a, ha, rfl⟩
      simp [Archived.entry, hin, Node.isDirectory]
    have hentries := h.entries.filter
      fun e => decide (e.1 ∉ names ∨ e.2.isDirectory = true)
    rw [← List.take_append_drop keep archives, List.map_append, List.filter_append,
      List.filter_eq_self.mpr hkept, List.filter_eq_nil_iff.mpr hgone, List.append_nil,
      List.filter_filter] at hentries
    rw [List.filter_filter]
    refine List.Perm.trans (List.Perm.of_eq ?_) hentries
    exact List.filter_congr fun e _ => Bool.and_comm _ _
  · exact h.ordered.sublist (List.take_sublist _ _)
  · exact fun a ha => h.named a (List.mem_of_mem_take ha)
  · -- What should have gone is a file, and could be removed.
    refine List.filter_eq_nil_iff.mpr fun name hname => ?_
    rcases (hexcess name).mp hname with ⟨a, ha, rfl⟩
    simp [Directory.hasDirectory, h.get?_name (List.mem_of_mem_drop ha), Node.isDirectory]

/-- The log file of the last run gets the name of an archive. -/
theorem rename (h : d.Holds archives) {a : Archived} (hrun : d.get? activeName =
      some (.file a.run.text a.run.modified)) (hnamed : a.Named) (hfree : d.has a.name = false)
    {archives' : List Archived} (hperm : archives'.Perm (a :: archives))
    (hordered : archives'.Pairwise Archived.Younger) :
    (d.rename activeName a.name).Holds archives' := by
  refine ⟨h.unique.rename hrun hfree, ?_, hordered, fun b hb => ?_⟩
  · rcases rename_eq h.unique hrun a.name with ⟨d₁, d₂, heq, hrename⟩
    have hentries := h.entries
    rw [heq, List.filter_append,
      List.filter_cons_of_neg (by simp [isArchive_activeName])] at hentries
    have hname : isArchive (a.name, Node.file a.run.text a.run.modified).1 = true :=
      a.isArchive_name
    rw [hrename, List.filter_append, List.filter_cons_of_pos (by exact hname)]
    refine List.perm_middle.trans ((hentries.cons _).trans ?_)
    exact (hperm.map Archived.entry).symm
  · rcases List.mem_cons.mp (hperm.mem_iff.mp hb) with rfl | hb
    · exact hnamed
    · exact h.named b hb

theorem put_activeName (h : d.Holds archives) (node : Node) :
    (d.put activeName node).Holds archives := by
  refine ⟨h.unique.put _ _, ?_, h.ordered, h.named⟩
  rw [filter_put isArchive_activeName]
  exact h.entries

end Directory.Holds

end ChainSync
