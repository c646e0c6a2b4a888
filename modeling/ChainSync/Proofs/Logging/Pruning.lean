import ChainSync.Proofs.Logging.Holding
import ChainSync.Proofs.Logging.Storing

/-!
# Pruning Archives

Which archives go when there are too many, in any directory.

`Directory.Holds` speaks of directories in which every archive comes from a run. Here a
directory may hold what it likes under such names: files that nobody wrote, names without a
second or a number, directories. Their keys may then be the same, and which one of them goes
is decided by the order in which they are listed. But whatever is listed, as many go as are
too many, and none that goes is younger than one that stays.

A directory cannot be removed. It counts as too many all the same and stays, and nothing
else stays that should go. A link can be removed, whatever it leads to. If something stays,
that is told of, and the file of the next run is begun all the same.

If all names are ones that a log file can get, then their keys tell them apart, and the
order of listing makes no difference.

## Theorems

* `Archive.excess_spec`: What is too many.
* `Archive.get?_prune`: What is found afterwards.
* `Archive.excess_perm`: The order of listing.
* `Archive.pruning_removes_the_oldest`: All of it.
-/

namespace ChainSync

open Directory

namespace Archive

variable {d d' : Directory} {keep : Nat}

theorem nodup_archives (hunique : d.Unique) : (archives d).Nodup :=
  List.Nodup.sublist List.filter_sublist hunique

/-! ## What is too many -/

/-- The oldest ones are too many, each of them once. -/
theorem excess_spec (hunique : d.Unique) (keep : Nat) :
    (excess d keep).length = (archives d).length - keep ∧ (excess d keep).Nodup ∧
      (∀ name ∈ excess d keep, name ∈ archives d) ∧
      ∀ a ∈ excess d keep, ∀ b ∈ archives d, b ∉ excess d keep →
        (key a).1 < (key b).1 ∨ (key a).1 = (key b).1 ∧ (key a).2 ≤ (key b).2 := by
  have hperm := oldestFirst_perm d
  have hnodup : (oldestFirst d).Nodup := hperm.nodup_iff.mpr (nodup_archives hunique)
  have hsorted := oldestFirst_sorted d
  unfold excess
  refine ⟨?_, hnodup.sublist (List.take_sublist _ _), fun name hname => ?_,
    fun a ha b hb hnot => ?_⟩
  · rw [List.length_take, hperm.length_eq]
    omega
  · exact hperm.mem_iff.mp (List.mem_of_mem_take hname)
  · -- What stays comes behind what goes in the order of age.
    have hb : b ∈ (oldestFirst d).drop ((oldestFirst d).length - keep) := by
      have hmem := hperm.mem_iff.mpr hb
      rw [← List.take_append_drop ((oldestFirst d).length - keep) (oldestFirst d)] at hmem
      exact (List.mem_append.mp hmem).resolve_left hnot
    rw [← List.take_append_drop ((oldestFirst d).length - keep) (oldestFirst d),
      List.pairwise_append] at hsorted
    exact (notYounger_iff a b).mp (hsorted.2.2 a ha b hb)

/-- With no more archives than are kept, there is nothing to do. -/
theorem prune_of_le (h : (archives d).length ≤ keep) : prune d keep = (d, []) := by
  have hnone : excess d keep = [] := by
    have hlength : (oldestFirst d).length - keep = 0 := by
      rw [(oldestFirst_perm d).length_eq, Nat.sub_eq_zero_of_le h]
    simp only [excess, hlength, List.take_zero]
  unfold prune
  rw [hnone]
  simp

/-! ## What is left -/

/-- Files that are too many are gone, and everything else is as before. -/
theorem get?_prune (hunique : d.Unique) (keep : Nat) (name : String) :
    (prune d keep).1.get? name =
      (d.get? name).filter fun node => name ∉ excess d keep ∨ node.isDirectory :=
  get?_filter hunique _ name

/-! ## The order of listing -/

/-- A name that a log file can get. -/
def Nameable (name : String) : Prop :=
  ∃ t number, number ≤ lastNumber ∧ name = nameOf (stampText t) number

/-- The key tells such names apart. -/
theorem Nameable.eq_of_key_eq {a b : String} (ha : Nameable a) (hb : Nameable b)
    (h : key a = key b) : a = b := by
  rcases ha with ⟨t, m, hm, rfl⟩
  rcases hb with ⟨u, n, hn, rfl⟩
  rw [key_nameOf_stampText t hm, key_nameOf_stampText u hn] at h
  rcases Prod.mk.inj h with ⟨hstamp, rfl⟩
  rw [hstamp]

/-- The order in which such names are listed does not matter. -/
theorem excess_perm (hnameable : ∀ name ∈ archives d, Nameable name) (h : d'.Perm d) (keep : Nat) :
    excess d' keep = excess d keep := by
  have hnames : (archives d').Perm (archives d) := (h.map Prod.fst).filter isArchive
  have hperm : (oldestFirst d').Perm (oldestFirst d) :=
    (oldestFirst_perm d').trans (hnames.trans (oldestFirst_perm d).symm)
  have hnameable' {name : String} (hname : name ∈ oldestFirst d) : Nameable name :=
    hnameable name ((oldestFirst_perm d).mem_iff.mp hname)
  -- There is one sorted list of names that their keys tell apart.
  have heq : oldestFirst d' = oldestFirst d := by
    refine hperm.eq_of_pairwise (fun a b ha hb hab hba => ?_) (oldestFirst_sorted d')
      (oldestFirst_sorted d)
    exact (hnameable' (hperm.mem_iff.mp ha)).eq_of_key_eq (hnameable' hb)
      (key_eq_of_notYounger hab hba)
  unfold excess
  rw [heq]

/-! ## All of it -/

/-- What goes and what stays when there are more archives than are kept. -/
structure Pruned (d : Directory) (keep : Nat) : Prop where
  /-- As many are selected as are too many, and each of them once. -/
  length : (excess d keep).length = (archives d).length - keep
  nodup : (excess d keep).Nodup
  archive : ∀ name ∈ excess d keep, name ∈ archives d
  /-- None that is selected is younger than one that is not. -/
  oldest : ∀ a ∈ excess d keep, ∀ b ∈ archives d, b ∉ excess d keep →
    (key a).1 < (key b).1 ∨ (key a).1 = (key b).1 ∧ (key a).2 ≤ (key b).2
  /-- What is selected is gone, a file or a link, unless it is a directory. -/
  gone : ∀ name ∈ excess d keep, ∀ node, d.get? name = some node → node.isDirectory = false →
    (prune d keep).1.get? name = none
  /-- A selected directory stays, and so does everything that is not selected. -/
  stays : ∀ name, name ∉ excess d keep ∨ d.hasDirectory name = true →
    (prune d keep).1.get? name = d.get? name
  active : (prune d keep).1.get? activeName = d.get? activeName
  /-- The directories are told of. -/
  stuck : (prune d keep).2 = (excess d keep).filter d.hasDirectory

theorem pruned (hunique : d.Unique) (keep : Nat) : Pruned d keep := by
  rcases excess_spec hunique keep with ⟨hlength, hnodup, harchive, holdest⟩
  have hstays (name : String) (h : name ∉ excess d keep ∨ d.hasDirectory name = true) :
      (prune d keep).1.get? name = d.get? name := by
    rw [get?_prune hunique]
    cases hnode : d.get? name with
    | none => rfl
    | some node =>
        rw [hasDirectory, hnode] at h
        exact if_pos (decide_eq_true h)
  refine ⟨hlength, hnodup, harchive, holdest, fun name hname node hentry hnode => ?_, hstays,
    hstays activeName (.inl fun hactive => ?_), rfl⟩
  · rw [get?_prune hunique, hentry]
    simp [hname, hnode]
  · have hname := (List.mem_filter.mp (harchive _ hactive)).2
    exact absurd (isArchive_activeName.symm.trans hname) Bool.false_ne_true

/-- Where the file of the next run can be begun, archives that stay are no reason to fail. -/
theorem sweepBy_of_unseen {sys : System} (hunique : d.Unique)
    (hlisted : sys.unlisted d = none) (hbegun : sys.refused (prune d keep).1 = none)
    (hnone : d.reach? activeName = none) (now : Int) :
    ∃ node, node.followed = some (.file "" now) ∧ sweepBy sys d keep now =
      { answer := .ok (), directory := (prune d keep).1.put activeName node
        stuck := (prune d keep).2 } := by
  have hunseen : (prune d keep).1.reach? activeName = none := by
    rw [reach?, (pruned hunique keep).active, ← reach?, hnone]
  rcases create_of_unseen hunseen now with ⟨node, hcreate, hnode⟩
  refine ⟨node, hnode, ?_⟩
  simp only [sweepBy_of_listed hlisted, beginBy, hbegun, hcreate]

/-- In any directory, as many archives are selected as are too many, and none if there are
    not. They are the oldest ones; all of them are gone afterwards but the directories, which
    are no reason to fail, and everything else is as before. The order of listing matters only
    if there are names that no log file can get. -/
theorem pruning_removes_the_oldest (hunique : d.Unique) (keep : Nat) :
    ((archives d).length ≤ keep → prune d keep = (d, [])) ∧
    (keep < (archives d).length → Pruned d keep) ∧
    (∀ sys now, sys.unlisted d = none → sys.refused (prune d keep).1 = none →
      d.reach? activeName = none → ∃ node, node.followed = some (.file "" now) ∧
        sweepBy sys d keep now =
          { answer := .ok (), directory := (prune d keep).1.put activeName node
            stuck := (prune d keep).2 }) ∧
    ((∀ name ∈ archives d, Nameable name) → ∀ d' : Directory, d'.Perm d →
      excess d' keep = excess d keep) :=
  ⟨prune_of_le, fun _ => pruned hunique keep,
    fun _ now hlisted hbegun hnone => sweepBy_of_unseen hunique hlisted hbegun hnone now,
    fun hnameable _ hperm => excess_perm hnameable hperm keep⟩

/-- A file and a directory with names of archives, where none is kept. -/
theorem directory_among_archives_stays :
    let name (number : Nat) : String := nameOf (stampText 1700000000) number
    let d : Directory :=
      [(activeName, .file "C" 0), (name 0, .directory [] 0), (name 1, .file "B" 0)]
    (d.Unique ∧ 0 < (archives d).length ∧ ∀ name ∈ archives d, Nameable name) ∧
    (prune d 0).1.get? (name 0) = some (.directory [] 0) ∧ (prune d 0).1.get? (name 1) = none ∧
    (prune d 0).1.get? activeName = some (.file "C" 0) ∧ excess d.reverse 0 = excess d 0 := by
  intro name d
  have hunique : d.Unique := by
    unfold Directory.Unique
    decide +kernel
  have harchives : archives d = [name 0, name 1] := by
    simp [archives, d, name, isArchive_nameOf, isArchive_activeName]
  have hnameable : ∀ a ∈ archives d, Nameable a := by
    rw [harchives]
    refine List.forall_mem_cons.mpr ⟨⟨_, 0, by decide, rfl⟩, List.forall_mem_singleton.mpr ?_⟩
    exact ⟨_, 1, by decide, rfl⟩
  have hmany : 0 < (archives d).length := by
    rw [harchives]
    exact Nat.succ_pos 1
  rcases pruning_removes_the_oldest hunique 0 with ⟨_, hpruned, _, horder⟩
  have hexcess : name 1 ∈ excess d 0 := by
    rw [excess, Nat.sub_zero, List.take_length, (oldestFirst_perm d).mem_iff, harchives]
    exact List.mem_cons_of_mem _ (List.mem_singleton.mpr rfl)
  have hfound {a : String} {node : Node} (h : (a, node) ∈ d) : d.get? a = some node :=
    get?_of_mem hunique h
  refine ⟨⟨hunique, hmany, hnameable⟩, ?_, ?_, ?_, horder hnameable _ (List.reverse_perm d)⟩
  · have hdirectory : d.get? (name 0) = some (.directory [] 0) := hfound (by simp [d])
    rw [(hpruned hmany).stays _ (.inr (by rw [hasDirectory, hdirectory]; rfl)), hdirectory]
  · exact (hpruned hmany).gone _ hexcess (.file "B" 0) (hfound (by simp [d])) rfl
  · rw [(hpruned hmany).active]
    exact hfound (by simp [d])

end Archive

end ChainSync
