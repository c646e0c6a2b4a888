import ChainSync.Logging.Directory

/-!
# Entries of a Directory

What the changes of a directory do to its entries.

A directory is a list, and nothing in that list keeps two entries from having the same
name. `Directory.Unique` says that no two have. It is kept by everything that is done
to a directory here, and with it an entry is found by its name.

A renamed entry stays where it is in the list, so what is said of the others needs no
more than a look at the list before it and after it. If it takes the place of another
entry, that one is removed first.

A link is followed only by those who look something up. A directory that is seen through
links is changed behind them, so it is seen through them afterwards as well.

## Main definitions

* `Directory.Unique`: No two entries have the same name.

## Theorems

* `Directory.get?_of_mem`, `Directory.mem_of_get?`: An entry by its name.
* `Directory.get?_perm`, `Directory.get?_filter`: Entries in another order, and some of them.
* `Directory.rename_eq`, `Directory.get?_rename`, `Directory.get?_move`: An entry gets
  another name.
* `Directory.filter_put`: An entry that is put does not touch the others.
* `Directory.create_of_unseen`: A file is begun where nothing is seen.
* `Directory.get?At_modifyAt`: A directory below that has been changed.
-/

namespace ChainSync

namespace Directory

variable {d : Directory} {name : String} {node : Node}

/-- No two entries have the same name. -/
def Unique (d : Directory) : Prop := (d.map (·.1)).Nodup

theorem has_iff : d.has name = true ↔ name ∈ d.map (·.1) := by
  simp only [has, List.any_eq_true, decide_eq_true_eq, List.mem_map]

theorem has_eq_false_iff : d.has name = false ↔ name ∉ d.map (·.1) := by
  rw [← has_iff, Bool.not_eq_true]

theorem mem_of_get? (h : d.get? name = some node) : (name, node) ∈ d := by
  rcases List.lookup_eq_some_iff.mp h with ⟨d₁, d₂, heq, _⟩
  rw [heq]
  exact List.mem_append_right _ List.mem_cons_self

theorem get?_of_mem (hu : d.Unique) (h : (name, node) ∈ d) : d.get? name = some node := by
  rcases List.append_of_mem h with ⟨d₁, d₂, heq⟩
  refine List.lookup_eq_some_iff.mpr ⟨d₁, d₂, heq, fun p hp => ?_⟩
  rw [heq, Unique, List.map_append, List.nodup_append] at hu
  have hne := hu.2.2 p.1 (List.mem_map_of_mem hp) name List.mem_cons_self
  simpa using hne.symm

/-- An entry is found by its name exactly if it is there. -/
theorem get?_eq_some_iff (hu : d.Unique) : d.get? name = some node ↔ (name, node) ∈ d :=
  ⟨mem_of_get?, get?_of_mem hu⟩

theorem has_of_get? (h : d.get? name = some node) : d.has name = true :=
  has_iff.mpr (List.mem_map_of_mem (f := (·.1)) (mem_of_get? h))

theorem get?_eq_none_of_has (h : d.has name = false) : d.get? name = none := by
  refine Option.eq_none_iff_forall_ne_some.mpr fun node hnode => ?_
  exact absurd (h.symm.trans (has_of_get? hnode)) Bool.false_ne_true

/-- What is seen under a name is seen through its entry. -/
theorem reach?_eq_some_iff : d.reach? name = some node ↔
    ∃ entry, d.get? name = some entry ∧ entry.followed = some node := Option.bind_eq_some_iff

theorem reach?_of_file {text : String} {t : Int} (h : d.get? name = some (.file text t)) :
    d.reach? name = some (.file text t) := by
  rw [reach?, h]
  rfl

theorem reaches_of_file {text : String} {t : Int} (h : d.get? name = some (.file text t)) :
    d.reaches name = true := by
  rw [reaches, reach?_of_file h]
  rfl

theorem has_of_reaches (h : d.reaches name = true) : d.has name = true := by
  rcases Option.isSome_iff_exists.mp h with ⟨node, hnode⟩
  rcases reach?_eq_some_iff.mp hnode with ⟨entry, hentry, _⟩
  exact has_of_get? hentry

/-! ## Order -/

theorem Unique.perm {d' : Directory} (hu : d.Unique) (h : d'.Perm d) : d'.Unique :=
  (h.map Prod.fst).nodup_iff.mpr hu

/-- The order in which entries are listed does not matter when they are found. -/
theorem get?_perm {d' : Directory} (hu : d.Unique) (h : d'.Perm d) (name : String) :
    d'.get? name = d.get? name := by
  refine Option.ext fun node => ?_
  rw [get?_eq_some_iff hu, get?_eq_some_iff (hu.perm h), h.mem_iff]

/-! ## Renaming -/

/-- An entry gets another name and stays where it is. -/
theorem rename_eq (hu : d.Unique) (h : d.get? name = some node) (target : String) :
    ∃ d₁ d₂, d = d₁ ++ (name, node) :: d₂ ∧ d.rename name target = d₁ ++ (target, node) :: d₂ := by
  rcases List.append_of_mem (mem_of_get? h) with ⟨d₁, d₂, heq⟩
  refine ⟨d₁, d₂, heq, ?_⟩
  rw [heq, Unique, List.map_append, List.map_cons, List.nodup_append, List.nodup_cons] at hu
  rcases hu with ⟨_, ⟨hafter, _⟩, hbefore⟩
  have hsame : ∀ l : Directory, (∀ e ∈ l, e.1 ≠ name) →
      l.map (fun e => if e.1 = name then (target, e.2) else e) = l := fun l hl => by
    refine (List.map_congr_left fun e he => ?_).trans (List.map_id' l)
    rw [if_neg (hl e he)]
  rw [heq, rename, List.map_append, List.map_cons, if_pos rfl, hsame d₁, hsame d₂]
  · exact fun e he hname => hafter (hname ▸ List.mem_map_of_mem (f := (·.1)) he)
  · exact fun e he => hbefore e.1 (List.mem_map_of_mem he) name List.mem_cons_self

theorem Unique.rename (hu : d.Unique) (h : d.get? name = some node) {target : String}
    (htarget : d.has target = false) : (d.rename name target).Unique := by
  rcases rename_eq hu h target with ⟨d₁, d₂, heq, hrename⟩
  rw [has_eq_false_iff, heq] at htarget
  rw [heq] at hu
  simp only [Unique, hrename, List.map_append, List.map_cons, List.perm_middle.nodup_iff,
    List.nodup_cons, List.mem_append, List.mem_cons, not_or] at hu htarget ⊢
  exact ⟨⟨htarget.1, htarget.2.2⟩, hu.2⟩

/-- What is found after an entry has got another name: that entry under its new name, and
    all others as before. -/
theorem get?_rename (hu : d.Unique) (h : d.get? name = some node) {target : String}
    (htarget : d.has target = false) :
    (d.rename name target).get? target = some node ∧ (d.rename name target).get? name = none ∧
      ∀ other, other ≠ name → other ≠ target →
        (d.rename name target).get? other = d.get? other := by
  have hu' := hu.rename h htarget
  have hne : name ≠ target := fun heq =>
    absurd (htarget.symm.trans (has_of_get? (heq ▸ h))) Bool.false_ne_true
  rcases rename_eq hu h target with ⟨d₁, d₂, heq, hrename⟩
  refine ⟨?_, ?_, fun other hname hother => ?_⟩
  · rw [get?_eq_some_iff hu', hrename]
    exact List.mem_append_right _ List.mem_cons_self
  · refine get?_eq_none_of_has (has_eq_false_iff.mpr ?_)
    -- The old name has been used once.
    rw [heq, Unique, List.map_append, List.map_cons, List.perm_middle.nodup_iff,
      List.nodup_cons, List.mem_append, not_or] at hu
    rw [hrename, List.map_append, List.map_cons, List.mem_append, List.mem_cons]
    rintro (hbefore | hsame | hafter)
    · exact hu.1.1 hbefore
    · exact hne hsame
    · exact hu.1.2 hafter
  · refine Option.ext fun node' => ?_
    rw [get?_eq_some_iff hu', get?_eq_some_iff hu, hrename, heq]
    simp [hname, hother]

theorem Unique.filter (hu : d.Unique) (p : String × Node → Bool) : Unique (d.filter p) :=
  List.Nodup.sublist (List.filter_sublist.map _) hu

/-- What is found among those entries that are kept. -/
theorem get?_filter (hu : d.Unique) (p : String × Node → Bool) (name : String) :
    Directory.get? (d.filter p) name = (d.get? name).filter fun node => p (name, node) := by
  refine Option.ext fun node => ?_
  rw [get?_eq_some_iff (hu.filter p), List.mem_filter, Option.filter_eq_some_iff,
    get?_eq_some_iff hu]

/-! ## Moving -/

theorem remove_of_not_has (h : d.has name = false) : d.remove name = d := by
  refine List.filter_eq_self.mpr fun e he => decide_eq_true fun heq => ?_
  exact has_eq_false_iff.mp h (heq ▸ List.mem_map_of_mem he)

theorem move_of_not_has {target : String} (h : d.has target = false) (source : String) :
    d.move source target = d.rename source target := by
  rw [move, remove_of_not_has h]

/-- What is found after an entry has taken the place of another one, or of none: that entry
    under its new name, and all others as before. -/
theorem get?_move (hu : d.Unique) (h : d.get? name = some node) {target : String}
    (hne : name ≠ target) :
    (d.move name target).Unique ∧ (d.move name target).get? target = some node ∧
      (d.move name target).get? name = none ∧
      ∀ other, other ≠ name → other ≠ target →
        (d.move name target).get? other = d.get? other := by
  have hu' : (d.remove target).Unique := hu.filter _
  have hkept (other : String) (hother : other ≠ target) :
      (d.remove target).get? other = d.get? other := by
    rw [remove, get?_filter hu]
    cases d.get? other with
    | none => rfl
    | some node => exact if_pos (decide_eq_true hother)
  have hgone : (d.remove target).has target = false := by
    rw [has_eq_false_iff]
    simp [remove]
  have hsource : (d.remove target).get? name = some node := (hkept name hne).trans h
  rcases get?_rename hu' hsource hgone with ⟨htarget, hnone, hothers⟩
  exact ⟨hu'.rename hsource hgone, htarget, hnone, fun other hname hother =>
    (hothers other hname hother).trans (hkept other hother)⟩

/-! ## Putting -/

theorem get?_put_self (d : Directory) (name : String) (node : Node) :
    (d.put name node).get? name = some node := by
  unfold put
  split
  · next h =>
    rw [has_iff] at h
    -- The entry is replaced where it stands.
    induction d with
    | nil => exact absurd h (by simp)
    | cons e d ih =>
        rw [List.map_cons, get?, List.lookup_cons]
        by_cases he : e.1 = name
        · simp [he]
        · have hd : name ∈ d.map (·.1) := by
            rcases List.mem_cons.mp h with heq | hmem
            · exact absurd heq.symm he
            · exact hmem
          have hne : (name == e.1) = false := by simpa using Ne.symm he
          simp only [if_neg he, hne]
          exact ih hd
  · next h =>
    -- A new entry comes last, so no other one may hide it.
    have hnone : d.lookup name = none := by
      refine List.lookup_eq_none_iff.mpr fun p hp => ?_
      have hne : p.1 ≠ name := fun heq =>
        h (has_iff.mpr (heq ▸ List.mem_map_of_mem hp))
      simpa using hne.symm
    simp [get?, List.lookup_append, hnone]

theorem get?_put_of_ne {other : String} (h : other ≠ name) (d : Directory) (node : Node) :
    (d.put name node).get? other = d.get? other := by
  have hne : (other == name) = false := by simpa using h
  unfold put
  split
  · next hin =>
    clear hin
    induction d with
    | nil => rfl
    | cons e d ih =>
        simp only [get?] at ih ⊢
        rw [List.map_cons, List.lookup_cons, List.lookup_cons, ih]
        by_cases he : e.1 = name
        · simp [he, hne]
        · simp only [if_neg he]
  · simp [get?, List.lookup_append, List.lookup_cons, hne]

theorem Unique.put (hu : d.Unique) (name : String) (node : Node) : (d.put name node).Unique := by
  unfold Directory.put
  split
  · have hnames : (d.map fun e => if e.1 = name then (name, node) else e).map (·.1) =
        d.map (·.1) := by
      rw [List.map_map]
      refine List.map_congr_left fun e _ => ?_
      by_cases he : e.1 = name
      · simp [he]
      · simp [he]
    rw [Unique, hnames]
    exact hu
  · next h =>
    rw [has_iff] at h
    simp only [Unique, List.map_append, List.map_cons, List.map_nil]
    exact List.nodup_append.mpr ⟨hu, List.pairwise_singleton _ _, fun a ha b hb heq =>
      h (List.mem_singleton.mp hb ▸ heq ▸ ha)⟩

/-- An entry that is put does not touch entries of other names. -/
theorem filter_put {p : String → Bool} (hp : p name = false) (d : Directory) (node : Node) :
    (d.put name node).filter (p ·.1) = d.filter (p ·.1) := by
  unfold put
  split
  · next h =>
    clear h
    induction d with
    | nil => rfl
    | cons e d ih =>
        rw [List.map_cons, List.filter_cons, List.filter_cons, ih]
        by_cases he : e.1 = name
        · simp [he, hp]
        · simp [he]
  · simp [hp]

/-- A file can be begun where nothing is seen: nothing is there, or a dead link, which then
    leads to the file. -/
theorem create_of_unseen (h : d.reach? name = none) (now : Int) :
    ∃ node, d.create name now = .ok (d.put name node) ∧
      node.followed = some (.file "" now) := by
  have hbegun (node : Node) (hnone : node.followed = none) :
      ∃ node', node.begun now = .ok node' ∧ node'.followed = some (.file "" now) := by
    induction node using Node.followed.induct with
    | case1 target ih =>
        rcases ih hnone with ⟨node', hbegun, hfollowed⟩
        exact ⟨.link node', by rw [Node.begun, hbegun]; rfl, hfollowed⟩
    | case2 => exact ⟨_, rfl, rfl⟩
    | case3 node hlink hdead =>
        cases node with
        | file text t => exact absurd hnone (by simp [Node.followed])
        | directory entries t => exact absurd hnone (by simp [Node.followed])
        | link target => exact absurd rfl (hlink target)
        | deadLink => exact absurd rfl hdead
  rw [create]
  cases hentry : d.get? name with
  | none => exact ⟨_, rfl, rfl⟩
  | some entry =>
      rw [reach?, hentry] at h
      rcases hbegun entry h with ⟨node, hnode, hfollowed⟩
      exact ⟨node, by simp only [hnode, Except.map], hfollowed⟩

/-! ## Below -/

/-- Entries are changed behind the links that lead to them. -/
theorem followed_modifyEntries {entries : List (String × Node)} {t : Int}
    (f : List (String × Node) → List (String × Node)) {node : Node}
    (h : node.followed = some (.directory entries t)) :
    (node.modifyEntries f).followed = some (.directory (f entries) t) := by
  induction node using Node.followed.induct with
  | case1 target ih => exact ih h
  | case2 => exact absurd h (by simp [Node.followed])
  | case3 node hlink hdead =>
      cases node with
      | file text u => exact absurd h (by simp [Node.followed])
      | directory entries' u =>
          rcases Node.directory.inj (Option.some.inj h) with ⟨rfl, rfl⟩
          rfl
      | link target => exact absurd rfl (hlink target)
      | deadLink => exact absurd rfl hdead

/-- Going down takes a directory that is seen under the first name. -/
theorem get?At_cons_eq_some_iff {root : Directory} {rest : List String} :
    root.get?At (name :: rest) = some d ↔
      ∃ entries t, root.reach? name = some (.directory entries t) ∧
        Directory.get?At rest entries = some d := by
  rw [get?At]
  cases root.reach? name with
  | none => simp
  | some node => cases node <;> simp

/-- What is seen under a name whose entries are changed. -/
theorem reach?_modifyAt_cons {root : Directory} {entries : List (String × Node)} {t : Int}
    (h : root.reach? name = some (.directory entries t)) (f : Directory → Directory)
    (rest : List String) :
    (root.modifyAt f (name :: rest)).reach? name =
        some (.directory (Directory.modifyAt f rest entries) t) ∧
      ∀ other, other ≠ name →
        (root.modifyAt f (name :: rest)).reach? other = root.reach? other := by
  rcases reach?_eq_some_iff.mp h with ⟨entry, hentry, hfollowed⟩
  simp only [modifyAt, hentry]
  refine ⟨?_, fun other hother => ?_⟩
  · rw [reach?, get?_put_self, Option.bind_some, followed_modifyEntries _ hfollowed]
  · rw [reach?, get?_put_of_ne hother, reach?]

/-- A directory below that has been changed is found where it was. -/
theorem get?At_modifyAt {place : List String} {root : Directory} (h : root.get?At place = some d)
    (f : Directory → Directory) : (root.modifyAt f place).get?At place = some (f d) := by
  induction place generalizing root with
  | nil =>
      injection h with h
      rw [← h]
      rfl
  | cons name rest ih =>
      rcases get?At_cons_eq_some_iff.mp h with ⟨entries, t, hseen, hrest⟩
      exact get?At_cons_eq_some_iff.mpr ⟨_, t, (reach?_modifyAt_cons hseen f rest).1, ih hrest⟩

end Directory

end ChainSync
