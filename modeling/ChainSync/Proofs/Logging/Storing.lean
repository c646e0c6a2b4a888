import Mathlib
import ChainSync.Proofs.Logging.Names
import ChainSync.Proofs.Logging.Places

/-!
# Storing a Log File

How the log file of the last run becomes an archive, and what if it does not.

A second has a thousand names for archives, and the log file gets the first of them under
which nothing is seen. So nothing that can be seen is overwritten, whatever else is in the
directory. There are two ways for this to go wrong: something is seen under every name, or
the file system refuses. Both end the opening of the log files before anything is removed
or begun, so that nothing has changed.

What comes afterwards may go wrong as well. The path may lead nowhere now, as the empty
path does, or one through the entry that has become an archive. The directory may not be
listed, and the file of the next run may be refused. The log file of the last run is an
archive by then.

Of the file system no more is needed than what it does when it agrees. An entry that gets
a name under which nothing is seen is moved, and nothing else is touched
(`Renaming.Sound`). The order in which entries are listed is its own affair.

## Main definitions

* `Archive.FirstFree`: The first number that is free.
* `Archive.Renaming.Sound`: Renaming that touches nothing else.
* `Archive.Moved`: A log file that has become an archive.
* `Archive.Continued`: What comes after that.

## Theorems

* `Archive.storeBy_cases`: What comes of a log file.
* `Archive.archiving_loses_nothing`: The same for the opening of the log files.
* `Archive.dead_link_is_replaced`: What is not seen, and a path that is not listed.
-/

namespace ChainSync

open Directory

namespace Archive

variable {sys : System} {d d' : Directory} {stamp : String} {number : Nat} {node : Node}

/-! ## The first free number -/

/-- The first number under whose name nothing is seen in a second, if there is one. -/
structure FirstFree (d : Directory) (stamp : String) (number : Nat) : Prop where
  number_le : number ≤ lastNumber
  free : d.reaches (nameOf stamp number) = false
  taken : ∀ m < number, d.reaches (nameOf stamp m) = true

theorem FirstFree.find?_candidates (h : FirstFree d stamp number) :
    (candidates stamp).find? (fun name => !d.reaches name) = some (nameOf stamp number) := by
  rw [candidates, List.find?_map]
  refine Option.map_eq_some_iff.mpr ⟨number, List.find?_range_eq_some.mpr ⟨?_, ?_, ?_⟩, rfl⟩
  · simp [h.free]
  · exact List.mem_range.mpr (Nat.lt_succ_of_le h.number_le)
  · exact fun m hm => by simp [h.taken m hm]

/-- Only if all names are taken there is none that is free. -/
theorem firstFree_or_taken (d : Directory) (stamp : String) :
    (∃ number, FirstFree d stamp number) ∨
      ∀ n ≤ lastNumber, d.reaches (nameOf stamp n) = true := by
  by_cases hall : ∀ n ≤ lastNumber, d.reaches (nameOf stamp n) = true
  · exact .inr hall
  · have hfree : ∃ n, n ≤ lastNumber ∧ d.reaches (nameOf stamp n) = false := by
      simpa using hall
    -- The least of all free numbers.
    refine .inl ⟨Nat.find hfree, (Nat.find_spec hfree).1, (Nat.find_spec hfree).2, fun m hm => ?_⟩
    have hle : m ≤ lastNumber := Nat.le_trans (Nat.le_of_lt hm) (Nat.find_spec hfree).1
    rw [← Bool.not_eq_false]
    exact fun hfalse => Nat.find_min hfree hm ⟨hle, hfalse⟩

theorem FirstFree.not_all (h : FirstFree d stamp number) :
    ¬∀ n ≤ lastNumber, d.reaches (nameOf stamp n) = true := fun hall =>
  absurd (h.free.symm.trans (hall number h.number_le)) Bool.false_ne_true

theorem FirstFree.unique {n : Nat} (h : FirstFree d stamp number) (h' : FirstFree d stamp n) :
    number = n := by
  rcases Nat.lt_trichotomy number n with hlt | heq | hgt
  · exact absurd (h.free.symm.trans (h'.taken number hlt)) Bool.false_ne_true
  · exact heq
  · exact absurd (h'.free.symm.trans (h.taken n hgt)) Bool.false_ne_true

/-! ## One log file -/

theorem storeBy_of_none (h : d.reach? activeName = none) : storeBy sys d = .ok d := by
  rw [storeBy, h]

theorem storeBy_of_first (hrun : d.reach? activeName = some node)
    (h : FirstFree d (sys.zone.stamp node.modified) number) :
    storeBy sys d = (sys.rename d activeName
      (nameOf (sys.zone.stamp node.modified) number)).mapError .notRenamed := by
  simp only [storeBy, hrun, h.find?_candidates]

theorem storeBy_of_taken (hrun : d.reach? activeName = some node)
    (h : ∀ n ≤ lastNumber, d.reaches (nameOf (sys.zone.stamp node.modified) n) = true) :
    storeBy sys d = .error (.noFreeName (sys.zone.stamp node.modified)) := by
  have hnone : (candidates (sys.zone.stamp node.modified)).find?
      (fun name => !d.reaches name) = none := by
    refine List.find?_eq_none.mpr fun name hname => ?_
    rcases List.mem_map.mp hname with ⟨n, hn, rfl⟩
    have htaken := h n (Nat.le_of_lt_succ (List.mem_range.mp hn))
    simp only [htaken, Bool.not_true, Bool.false_eq_true, not_false_eq_true]
  simp only [storeBy, hrun, hnone]

/-- Renaming that moves an entry to a name under which nothing is seen, and touches nothing
    else. -/
def Renaming.Sound (rename : Renaming) : Prop :=
  ∀ {d d' : Directory} {source target : String}, d.Unique → d.has source = true →
    d.reaches target = false → rename d source target = .ok d' → d'.Perm (d.move source target)

theorem Renaming.sound_plain : Renaming.plain.Sound := by
  intro d d' source target _ _ _ h
  unfold Renaming.plain at h
  split at h
  · exact absurd h (by simp)
  · rw [← Except.ok.inj h]

/-- What is no directory can be renamed. -/
theorem Renaming.plain_of_not_directory {source : String} (h : d.hasDirectory source = false)
    (target : String) : Renaming.plain d source target = .ok (d.move source target) := by
  simp only [Renaming.plain, h, Bool.false_and, Bool.false_eq_true, if_false]

/-- A plain log file moves to the first free number. -/
theorem storeBy_of_file (hplain : sys.rename = .plain) {text : String} {t : Int}
    (hrun : d.get? activeName = some (.file text t))
    (h : FirstFree d (sys.zone.stamp t) number) :
    storeBy sys d = .ok (d.move activeName (nameOf (sys.zone.stamp t) number)) := by
  have hdirectory : d.hasDirectory activeName = false := by
    rw [hasDirectory, hrun]
    rfl
  rw [storeBy_of_first (reach?_of_file hrun) h, hplain,
    Renaming.plain_of_not_directory hdirectory]
  rfl

/-- A log file that has become an archive of a name, where nothing else has changed. -/
structure Moved (d d' : Directory) (name : String) : Prop where
  unique : d'.Unique
  archived : d'.get? name = d.get? activeName
  gone : d'.get? activeName = none
  others : ∀ other, other ≠ activeName → other ≠ name → d'.get? other = d.get? other

theorem activeName_ne_nameOf (stamp : String) (number : Nat) :
    activeName ≠ nameOf stamp number := fun h =>
  absurd (isArchive_activeName.symm.trans (h ▸ isArchive_nameOf stamp number)) Bool.false_ne_true

theorem Renaming.Sound.moved {rename : Renaming} (hrename : rename.Sound) (hunique : d.Unique)
    (hrun : d.reach? activeName = some node)
    (hfree : d.reaches (nameOf stamp number) = false)
    (h : rename d activeName (nameOf stamp number) = .ok d') :
    Moved d d' (nameOf stamp number) := by
  rcases reach?_eq_some_iff.mp hrun with ⟨entry, hentry, _⟩
  have hperm := hrename hunique (has_of_get? hentry) hfree h
  rcases get?_move hunique hentry (activeName_ne_nameOf stamp number) with
    ⟨hunique', harchived, hgone, hothers⟩
  refine ⟨hunique'.perm hperm, ?_, ?_, fun other hother hname => ?_⟩
  · rw [get?_perm hunique' hperm, harchived, hentry]
  · rw [get?_perm hunique' hperm, hgone]
  · rw [get?_perm hunique' hperm, hothers other hother hname]

/-- A log file becomes an archive under the first free number, or all names are taken, or the
    renaming goes wrong. -/
theorem storeBy_cases (hrename : sys.rename.Sound) (hunique : d.Unique)
    (hrun : d.reach? activeName = some node) :
    let stamp := sys.zone.stamp node.modified
    (∃ number d', FirstFree d stamp number ∧
      sys.rename d activeName (nameOf stamp number) = .ok d' ∧
      storeBy sys d = .ok d' ∧ Moved d d' (nameOf stamp number)) ∨
    ((∀ n ≤ lastNumber, d.reaches (nameOf stamp n) = true) ∧
      storeBy sys d = .error (.noFreeName stamp)) ∨
    ∃ number message, FirstFree d stamp number ∧
      sys.rename d activeName (nameOf stamp number) = .error message ∧
      storeBy sys d = .error (.notRenamed message) := by
  intro stamp
  rcases firstFree_or_taken d stamp with ⟨number, hfirst⟩ | hall
  · have hstore := storeBy_of_first hrun hfirst
    cases hanswer : sys.rename d activeName (nameOf stamp number) with
    | ok d' =>
        rw [hanswer] at hstore
        exact .inl ⟨number, d', hfirst, hanswer, hstore,
          hrename.moved hunique hrun hfirst.free hanswer⟩
    | error message =>
        rw [hanswer] at hstore
        exact .inr (.inr ⟨number, message, hfirst, hanswer, hstore⟩)
  · exact .inr (.inl ⟨hall, storeBy_of_taken hrun hall⟩)

/-! ## Opening the log files -/

/-- What has been listed is pruned before the file of the next run is begun. -/
theorem sweepBy_of_listed (h : sys.unlisted d = none) (keep : Nat) (now : Int) :
    sweepBy sys d keep now = match beginBy sys (prune d keep).1 now with
      | .error e =>
        { answer := .error (.notBegun e), directory := (prune d keep).1
          stuck := (prune d keep).2 }
      | .ok d' => { directory := d', stuck := (prune d keep).2 } := by
  cases hbegun : beginBy sys (prune d keep).1 now with
  | error e => simp only [sweepBy, h, hbegun]
  | ok d' => simp only [sweepBy, h, hbegun]

/-- What the opening of the log files comes to once the log file of the last run is an archive,
    in the tree that there is then. -/
structure Continued (sys : System) (path : String) (root : Directory) (keep : Nat) (now : Int)
    (opened : Except LoggingError Unit × Directory × List Line) : Prop where
  /-- Archives are removed and the file of the next run is begun. -/
  begun : ∀ place d d', root.directoryAt path = .ok (place, d) → sys.unlisted d = none →
    beginBy sys (prune d keep).1 now = .ok d' →
    opened = (.ok (), root.modifyAt (fun _ => d') place, (prune d keep).2.map (stuckLine path))
  /-- Where the path leads to no directory any more, nothing is done. -/
  lost : ∀ e, root.directoryAt path = .error e →
    opened = (.error (.rotationFailed (.unreadable e)), root, [])
  /-- If there is no list of the archives, none is removed and no file is begun. -/
  unlisted : ∀ place d e, root.directoryAt path = .ok (place, d) → sys.unlisted d = some e →
    opened = (.error (.rotationFailed (.unreadable e)), root.modifyAt (fun _ => d) place, [])
  /-- If no file is begun, archives have been removed all the same. -/
  refused : ∀ place d e, root.directoryAt path = .ok (place, d) → sys.unlisted d = none →
    beginBy sys (prune d keep).1 now = .error e →
    opened = (.error (.directoryCreation e), root.modifyAt (fun _ => (prune d keep).1) place,
      (prune d keep).2.map (stuckLine path))

theorem continued_sweepAt (sys : System) (path : String) (root : Directory) (keep : Nat)
    (now : Int) : Continued sys path root keep now (sweepAt sys path keep root now) where
  begun := fun place d d' hplace hlisted hbegun => by
    simp only [sweepAt, hplace, sweepBy_of_listed hlisted, hbegun]
    rfl
  lost := fun e hlost => by
    simp only [sweepAt, hlost]
  unlisted := fun place d e hplace hunlisted => by
    simp only [sweepAt, hplace, sweepBy, hunlisted]
    rfl
  refused := fun place d e hplace hlisted hrefused => by
    simp only [sweepAt, hplace, sweepBy_of_listed hlisted, hrefused]
    rfl

/-- If no directory has become an archive, all directories are where they were. -/
theorem Moved.reach?_directory {name : String} (h : Moved d d' name)
    (hrun : d.reach? activeName = some node) (hnode : node.isDirectory = false)
    (hfree : d.reaches name = false) (other : String) (entries : List (String × Node)) (t : Int)
    (hseen : d.reach? other = some (.directory entries t)) :
    d'.reach? other = some (.directory entries t) := by
  have hactive : other ≠ activeName := by
    rintro rfl
    rw [Option.some.inj (hrun.symm.trans hseen)] at hnode
    exact absurd hnode (by simp [Node.isDirectory])
  have hname : other ≠ name := by
    rintro rfl
    rw [reaches, hseen] at hfree
    exact absurd hfree (by simp)
  rw [reach?, h.others other hactive hname, ← reach?, hseen]

/-- Archiving loses nothing that can be seen. Without a log file it changes nothing. A log file
    becomes the archive of its second, by the clock on the wall, with the first number that is
    free, and no other entry changes before archives are pruned and the next log file is begun;
    or the opening of the log files fails with nothing changed at all. That is so exactly if all
    numbers are taken or the renaming goes wrong. Where it fails later the log file is an archive
    already. -/
theorem archiving_loses_nothing (hrename : sys.rename.Sound) {files : LogFiles} {base : String}
    {root d : Directory} {place : List String}
    (hplace : root.baseOf (joinPath base files.dir) = .ok place)
    (hd : root.get?At place = some d) (hunique : d.Unique) (now : Int) :
    let opened := openLogFilesBy sys files base root now
    let path := joinPath base files.dir
    let stored (d' : Directory) : Directory := root.modifyAt (fun _ => d') place
    (d.reach? activeName = none → storeBy sys d = .ok d ∧
      Continued sys path (stored d) files.maxFiles now opened) ∧
    ∀ node, d.reach? activeName = some node →
      let stamp := sys.zone.stamp node.modified
      ((∃ number d', FirstFree d stamp number ∧ storeBy sys d = .ok d' ∧
          Moved d d' (nameOf stamp number) ∧
          (node.isDirectory = false → path ≠ "" →
            (stored d').directoryAt path = .ok (place, d')) ∧
          Continued sys path (stored d') files.maxFiles now opened) ∨
        ∃ e, storeBy sys d = .error e ∧ opened = (.error (.rotationFailed e), root, [])) ∧
      ((∃ e, storeBy sys d = .error e) ↔
        (∀ n ≤ lastNumber, d.reaches (nameOf stamp n) = true) ∨
          ∃ number message, FirstFree d stamp number ∧
            sys.rename d activeName (nameOf stamp number) = .error message) := by
  intro opened path stored
  have hopened := openLogFilesBy_of_baseOf sys hplace hd now
  have hstored {d' : Directory} (h : storeBy sys d = .ok d') :
      Continued sys path (stored d') files.maxFiles now opened := by
    have hsweep := continued_sweepAt sys path (stored d') files.maxFiles now
    rw [h] at hopened
    exact (show opened = _ from hopened) ▸ hsweep
  have hfailed {e : Error} (h : storeBy sys d = .error e) :
      opened = (.error (.rotationFailed e), root, []) := by
    rw [h] at hopened
    exact hopened
  refine ⟨fun hnone => ⟨storeBy_of_none hnone, hstored (storeBy_of_none hnone)⟩, ?_⟩
  intro node hrun stamp
  rcases storeBy_cases hrename hunique hrun with
    ⟨number, d', hfirst, hanswer, hstore, hmoved⟩ | ⟨hall, hstore⟩ |
    ⟨number, message, hfirst, hanswer, hstore⟩
  · refine ⟨.inl ⟨number, d', hfirst, hstore, hmoved, fun hnode hpath => ?_, hstored hstore⟩,
      ?_, ?_⟩
    · have hbase : root.locate path = .ok place := by
        rw [← hplace, baseOf, if_neg hpath]
      exact directoryAt_modifyAt (directoryAt_eq_ok_iff.mpr ⟨hbase, hd⟩)
        (hmoved.reach?_directory hrun hnode hfirst.free)
    · rintro ⟨e, herror⟩
      exact absurd (hstore.symm.trans herror) (by simp)
    · -- There is one first free number, and its name has been given.
      rintro (hall | ⟨n, message, hfirst', hanswer'⟩)
      · exact absurd hall hfirst.not_all
      · rw [← hfirst.unique hfirst', hanswer] at hanswer'
        exact absurd hanswer' (by simp)
  · exact ⟨.inr ⟨_, hstore, hfailed hstore⟩, fun _ => .inl hall, fun _ => ⟨_, hstore⟩⟩
  · exact ⟨.inr ⟨_, hstore, hfailed hstore⟩, fun _ => .inr ⟨number, message, hfirst, hanswer⟩,
      fun _ => ⟨_, hstore⟩⟩

/-- A log file of a second that has an archive, where it may be renamed and where it may not. -/
theorem second_log_of_a_second_is_not_lost :
    let t : Int := 1700000000
    let files : LogFiles := { dir := "l", maxFiles := 1 }
    let d : Directory := [(activeName, .file "B" t), (nameOf (stampText t) 0, .file "A" t)]
    let root : Directory := [("l", .directory d 0)]
    let refusing : System := { rename := fun _ _ _ => .error "Permission denied (os error 13)" }
    (root.baseOf (joinPath "" files.dir) = .ok ["l"] ∧ root.get?At ["l"] = some d ∧ d.Unique ∧
      Renaming.plain.Sound ∧ refusing.rename.Sound) ∧
    (∃ d', storeBy {} d = .ok d' ∧ Moved d d' (nameOf (stampText t) 1)) ∧
    ∃ e, openLogFilesBy refusing files "" root 0 = (.error (.rotationFailed e), root, []) := by
  intro t files d root refusing
  have hplace : root.baseOf (joinPath "" files.dir) = .ok ["l"] := by
    have hsteps : pathSteps "l" = [.into "l"] := by
      rw [pathSteps_eq]
      decide
    refine baseOf_of_locate ?_
    change root.locate "l" = _
    rw [Directory.locate, show checkPath "l" = .ok () from rfl, hsteps]
    rfl
  have hunique : d.Unique := by
    refine List.nodup_cons.mpr ⟨fun hin => ?_, List.pairwise_singleton _ _⟩
    exact absurd (List.mem_singleton.mp hin) (activeName_ne_nameOf _ _)
  have hrefusing : refusing.rename.Sound := fun _ _ _ h => absurd h (by simp [refusing])
  have hfirst : FirstFree d (stampText t) 1 := by
    refine ⟨by decide, by decide +kernel, fun m hm => ?_⟩
    rw [Nat.lt_one_iff.mp hm]
    exact reaches_of_file
      (get?_of_mem hunique (List.mem_cons_of_mem _ (List.mem_singleton.mpr rfl)))
  refine ⟨⟨hplace, rfl, hunique, Renaming.sound_plain, hrefusing⟩, ?_, ?_⟩
  · have hsound : (System.rename {}).Sound := Renaming.sound_plain
    rcases (archiving_loses_nothing hsound hplace rfl hunique 0).2 _ rfl with
      ⟨⟨number, d', hnumber, hstore, hmoved, _, _⟩ | ⟨e, hstore, _⟩, hiff⟩
    · exact ⟨d', hstore, hnumber.unique hfirst ▸ hmoved⟩
    · rcases hiff.mp ⟨_, hstore⟩ with hall | ⟨_, _, _, hanswer⟩
      · exact absurd hall hfirst.not_all
      · rw [show (System.rename {}) = Renaming.plain from rfl,
          Renaming.plain_of_not_directory rfl] at hanswer
        exact absurd hanswer (by simp)
  · rcases (archiving_loses_nothing hrefusing hplace rfl hunique 0).2 _ rfl with
      ⟨⟨_, _, _, hstore, _⟩ | ⟨e, _, hfailed⟩, hiff⟩
    · rcases hiff.mpr (.inr ⟨1, _, hfirst, rfl⟩) with ⟨e, herror⟩
      exact absurd (hstore.symm.trans herror) (by simp)
    · exact ⟨e, hfailed⟩

/-- Where the first name is free, that is the name of the archive. -/
theorem storeBy_plain (hunique : d.Unique) (hseen : d.reach? activeName = some node)
    (hfree : d.reaches (nameOf (stampText node.modified) 0) = false)
    (hplain : Renaming.plain d activeName (nameOf (stampText node.modified) 0) = .ok d') :
    storeBy {} d = .ok d' ∧ Moved d d' (nameOf (stampText node.modified) 0) := by
  refine ⟨?_, Renaming.sound_plain.moved hunique hseen hfree hplain⟩
  have hfirst : FirstFree d (stampText node.modified) 0 :=
    ⟨Nat.zero_le _, hfree, fun m hm => absurd hm (Nat.not_lt_zero m)⟩
  rw [← Zone.stamp_utc] at hfirst hplain
  have hstore : storeBy {} d = (Renaming.plain d activeName
      (nameOf (Zone.utc.stamp node.modified) 0)).mapError .notRenamed :=
    storeBy_of_first hseen hfirst
  rw [hstore, hplain]
  rfl

/-- A log file that is a directory becomes an archive, and a path through it and back leads
    nowhere then. -/
theorem openLogFilesBy_through (t : Int) :
    let root : Directory := [(activeName, .directory [] t)]
    let name := nameOf (stampText t) 0
    ∃ root', openLogFilesBy {} { dir := "run.log/..", maxFiles := 1 } "" root 0 =
        (.error (.rotationFailed (.unreadable .notFound)), root', []) ∧
      Moved root root' name := by
  intro root name
  have hhas : root.has name = false := by
    rw [has_eq_false_iff]
    exact fun hin => activeName_ne_nameOf _ _ (List.mem_singleton.mp hin).symm
  have hfree : root.reaches name = false := by
    rw [reaches, reach?, get?_eq_none_of_has hhas]
    rfl
  have hplain : Renaming.plain root activeName name = .ok (root.move activeName name) := by
    rw [Renaming.plain, hhas, Bool.and_false, if_neg Bool.false_ne_true]
  have hunique : root.Unique := List.pairwise_singleton _ activeName
  rcases storeBy_plain hunique rfl hfree hplain with ⟨hstore, hmoved⟩
  have hlocate (root : Directory) :
      root.locate "run.log/.." = root.follow [] [.into activeName, .up] := by
    have hsteps : pathSteps "run.log/.." = [.into activeName, .up] := by
      rw [pathSteps_eq]
      decide
    rw [locate, show checkPath "run.log/.." = .ok () from rfl, hsteps]
    rfl
  have hshort : ¬longestName < activeName.utf8ByteSize := by decide
  have hseen : root.reaches activeName = true := by
    rw [reaches, reach?, show root.get? activeName = some (.directory [] t) from rfl]
    rfl
  have hplace : root.baseOf "run.log/.." = .ok [] := by
    refine baseOf_of_locate ((hlocate root).trans ?_)
    simp only [follow, get?At, hshort, hseen, if_true, if_false]
    rfl
  have hlost : (root.move activeName name).directoryAt "run.log/.." = .error .notFound := by
    have hunseen : (root.move activeName name).reaches activeName = false := by
      rw [reaches, reach?, hmoved.gone]
      rfl
    rw [directoryAt, hlocate]
    simp only [follow, get?At, hshort, hunseen, if_false]
    rfl
  have hopened : openLogFilesBy {} { dir := "run.log/..", maxFiles := 1 } "" root 0 = _ :=
    openLogFilesBy_of_baseOf {} hplace rfl 0
  rw [hstore] at hopened
  exact ⟨_, hopened.trans ((continued_sweepAt {} _ _ 1 0).lost _ hlost), hmoved⟩

/-- A dead link with the name of the archive is no reason for a number, and it is replaced. And
    where the log file of the last run is a directory that the path goes through, it is an
    archive when the path turns out to lead nowhere. -/
theorem dead_link_is_replaced :
    let t : Int := 1700000000
    let name : String := nameOf (stampText t) 0
    let d : Directory := [(activeName, .file "B" t), (name, .deadLink)]
    let root : Directory := [(activeName, .directory [] t)]
    (d.get? name = some .deadLink ∧
      ∃ d', storeBy {} d = .ok d' ∧ d'.get? name = some (.file "B" t)) ∧
    ∃ root', openLogFilesBy {} { dir := "run.log/..", maxFiles := 1 } "" root 0 =
        (.error (.rotationFailed (.unreadable .notFound)), root', []) ∧
      root'.get? activeName = none ∧ root'.get? name = some (.directory [] t) := by
  intro t name d root
  have hunique : d.Unique := by
    refine List.nodup_cons.mpr ⟨fun hin => ?_, List.pairwise_singleton _ _⟩
    exact absurd (List.mem_singleton.mp hin) (activeName_ne_nameOf _ _)
  have hlink : d.get? name = some .deadLink :=
    get?_of_mem hunique (List.mem_cons_of_mem _ (List.mem_singleton.mpr rfl))
  have hrun : d.get? activeName = some (.file "B" t) := List.lookup_cons_self
  have hfree : d.reaches name = false := by
    rw [reaches, reach?, hlink]
    rfl
  have hdirectory : d.hasDirectory activeName = false := by
    rw [hasDirectory, hrun]
    rfl
  have hplain := Renaming.plain_of_not_directory hdirectory name
  rcases storeBy_plain hunique (reach?_of_file hrun) hfree hplain with ⟨hstore, hmoved⟩
  rcases openLogFilesBy_through t with ⟨root', hopened, hmoved'⟩
  exact ⟨⟨hlink, _, hstore, hmoved.archived.trans hrun⟩, root', hopened, hmoved'.gone,
    hmoved'.archived⟩

end Archive

end ChainSync
