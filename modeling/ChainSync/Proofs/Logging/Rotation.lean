import Mathlib
import ChainSync.Proofs.Logging.Lasting
import ChainSync.Proofs.Logging.Pruning

/-!
# Rotation

What many rotations leave in the directory for log files.

A directory without archives is where it starts. Then log files are rotated again and
again, and in between whatever is not an archive may change, above all the log file that
the next run writes. `Rotations` keeps track of the runs whose log files were rotated.

Each rotation adds one archive and removes what is too much. If its second had not more
runs than are kept, the new archive is the youngest one and stays, and if there is one
too many the oldest goes. If it had more, then its archives fill the directory, and all
numbers but zero are taken by younger ones; the new archive gets zero and is the one to
go. Both cases leave the youngest of the runs that last, and that is the invariant.

Seconds are those that the clock on the wall shows, and that clock may be set back. A log
file can then be newer than all archives and become the oldest of them, so it goes. That
is left out by asking that runs follow each other on the wall, as they do wherever clocks
are never set back.

## Main definitions

* `Archive.Rotated`: One rotation of a directory.
* `Zone.NeverSetBack`: A clock that shows no second after a later one.
* `Rotations`: Directories after any number of rotations, with the runs.

## Theorems

* `Directory.Holds.rotate`: One rotation.
* `Directory.Holds.rotate_of_earlier`, `Directory.Holds.rotate_after_set_back`: One after
  the clock was set back.
* `Rotations.holds`: All of them.
* `Rotations.newest_lasting_runs_are_kept`: What is found in the directory, and what the
  next rotation does.
-/

namespace ChainSync

open Archive

/-! ## One rotation -/

/-- The log file of the last run has been stored, what was too much is gone and the file of
    the next run is begun. All directories are where they were when it was stored. -/
structure Archive.Rotated (zone : Zone) (d : Directory) (keep : Nat) (now : Int)
    (stored d' : Directory) : Prop where
  kept : storeBy { zone } d = .ok stored
  swept : sweepBy { zone } stored keep now = { directory := d' }
  standing : ∀ name entries t, d.reach? name = some (.directory entries t) →
    stored.reach? name = some (.directory entries t)

namespace Directory.Holds

variable {d : Directory} {archives : List Archived} {keep : Nat} {run : Run}
  {runs : List Run}

/-- What is too much goes, and the file of the next run is begun. -/
theorem sweep (h : d.Holds archives) (hnone : d.reach? activeName = none) (zone : Zone)
    (keep : Nat) (now : Int) : ∃ d', sweepBy { zone } d keep now = { directory := d' } ∧
      d'.Holds (archives.take keep) := by
  have hlisted : ({ zone } : System).unlisted d = none := rfl
  rcases h.prune keep with ⟨hpruned, hstuck⟩
  rcases sweepBy_of_unseen h.unique hlisted rfl hnone now with ⟨node, _, hswept⟩
  rw [hstuck] at hswept
  exact ⟨_, hswept, hpruned.put_activeName node⟩

variable {zone : Zone}

/-- A rotation adds an archive under the first number that is free, wherever that comes
    among the others, and leaves the youngest of them all. -/
theorem rotate_adding {archives' : List Archived} {a : Archived} (h : d.Holds archives)
    (hrun : d.get? activeName = some (.file a.run.text a.run.modified))
    (hsecond : a.run.second = zone.wallSecond a.run.modified) (hnamed : a.Named)
    (hfree : a.key ∉ archives.map Archived.key)
    (htaken : ∀ n < a.number, (a.run.second, n) ∈ archives.map Archived.key)
    (hperm : archives'.Perm (a :: archives)) (hsorted : archives'.Pairwise Archived.Younger)
    (keep : Nat) (now : Int) :
    (candidates (stampText a.run.second)).find? (fun name => !d.reaches name) = some a.name ∧
      ∃ stored d', Rotated zone d keep now stored d' ∧ d'.Holds (archives'.take keep) := by
  have hstamp : zone.stamp a.run.modified = stampText a.run.second := by
    rw [Zone.stamp, hsecond]
  have hseen {n : Nat} : d.reaches (nameOf (stampText a.run.second) n) =
      d.has (nameOf (stampText a.run.second) n) := h.reaches_eq_has (isArchive_nameOf _ _)
  have hunused : d.has a.name = false := by
    rw [← Bool.not_eq_true]
    exact fun hhas => hfree ((h.has_nameOf_iff hnamed.year hnamed.number).mp hhas)
  have hfirst : FirstFree d (stampText a.run.second) a.number := by
    refine ⟨hnamed.number, hseen.trans hunused, fun n hn => hseen.trans ?_⟩
    have hle : n ≤ lastNumber := Nat.le_trans (Nat.le_of_lt hn) hnamed.number
    exact (h.has_nameOf_iff hnamed.year hle).mpr (htaken n hn)
  have hmoved : Moved d (d.rename activeName a.name) a.name := by
    rcases get?_rename h.unique hrun hunused with ⟨harchived, hgone, hothers⟩
    exact ⟨h.unique.rename hrun hunused, harchived.trans hrun.symm, hgone, hothers⟩
  have hstored : storeBy { zone } d = .ok (d.rename activeName a.name) := by
    have hstore : storeBy { zone } d =
        .ok (d.move activeName (nameOf (zone.stamp a.run.modified) a.number)) :=
      storeBy_of_file rfl hrun (by rw [hstamp]; exact hfirst)
    rw [hstore, hstamp, ← Archived.name, move_of_not_has hunused]
  have hnone : (d.rename activeName a.name).reach? activeName = none := by
    rw [reach?, hmoved.gone, Option.bind_none]
  rcases (h.rename hrun hnamed hunused hperm hsorted).sweep hnone zone keep now with
    ⟨d', hswept, hholds⟩
  exact ⟨hfirst.find?_candidates, _, d',
    ⟨hstored, hswept, hmoved.reach?_directory (reach?_of_file hrun) rfl hfirst.free⟩, hholds⟩

/-- With few runs in its second the new archive is the youngest one, and stays. -/
theorem rotate_of_few {a : Archived} (h : d.Holds ((numbered keep runs).take keep))
    (hkeep : 1 ≤ keep) (hordered : InOrder runs) (hlater : a.run.Follows runs)
    (hrun : d.get? activeName = some (.file a.run.text a.run.modified))
    (hsecond : a.run.second = zone.wallSecond a.run.modified) (hnamed : a.Named)
    (hfew : runsIn a.run.second runs ≤ keep) (hnumber : a.number = runsIn a.run.second runs)
    (now : Int) :
    (candidates (stampText a.run.second)).find? (fun name => !d.reaches name) = some a.name ∧
      ∃ stored d', Rotated zone d keep now stored d' ∧
        d'.Holds ((numbered keep (a.run :: runs)).take keep) ∧ d'.has a.name = true := by
  have hnumbered : numbered keep (a.run :: runs) = a :: numbered keep runs := by
    rw [numbered, if_pos hfew, ← hnumber]
  have hsorted : (a :: numbered keep runs).Pairwise Archived.Younger :=
    hnumbered ▸ ordered_numbered (inOrder_cons.mpr ⟨hlater, hordered⟩)
  have hsub : (a :: (numbered keep runs).take keep).Sublist (a :: numbered keep runs) :=
    (List.take_sublist _ _).cons_cons a
  obtain ⟨n, rfl⟩ : ∃ n, keep = n + 1 := ⟨keep - 1, by omega⟩
  -- The archive that was the oldest one goes.
  have htake : (a :: (numbered (n + 1) runs).take (n + 1)).take (n + 1) =
      a :: (numbered (n + 1) runs).take n := by
    rw [List.take_succ_cons, List.take_take, Nat.min_eq_left (Nat.le_succ n)]
  have htaken := mem_taken_of_few hordered hlater hfew
  have hfree : a.key ∉ ((numbered (n + 1) runs).take (n + 1)).map Archived.key := fun hin =>
    Nat.lt_irrefl _ (hnumber ▸ (htaken a.number).mp hin)
  rcases h.rotate_adding hrun hsecond hnamed hfree (fun n hn => (htaken n).mpr (hnumber ▸ hn))
    (.refl _) (hsorted.sublist hsub) (n + 1) now with ⟨hfind, stored, d', hrotated, hholds⟩
  rw [htake] at hholds
  refine ⟨hfind, stored, d', hrotated, ?_, ?_⟩
  · rw [hnumbered, List.take_succ_cons]
    exact hholds
  · exact has_iff.mpr (List.mem_map_of_mem (f := (·.1))
      (mem_of_get? (hholds.get?_name List.mem_cons_self)))

/-- Where all archives are younger and there are as many as are kept, the new one goes. -/
theorem rotate_oldest {a : Archived} (h : d.Holds archives) (hlength : archives.length = keep)
    (hyounger : ∀ b ∈ archives, b.Younger a)
    (hrun : d.get? activeName = some (.file a.run.text a.run.modified))
    (hsecond : a.run.second = zone.wallSecond a.run.modified) (hnamed : a.Named)
    (hnumber : a.number = 0) (now : Int) :
    (candidates (stampText a.run.second)).find? (fun name => !d.reaches name) = some a.name ∧
      ∃ stored d', Rotated zone d keep now stored d' ∧ d'.Holds archives ∧
        d'.has a.name = false := by
  have hfree : a.key ∉ archives.map Archived.key := fun hin => by
    rcases List.mem_map.mp hin with ⟨b, hb, hkey⟩
    rcases Prod.mk.inj hkey with ⟨hsame, hnumber'⟩
    have hage := hyounger b hb
    unfold Archived.Younger at hage
    omega
  have hsorted : (archives ++ [a]).Pairwise Archived.Younger :=
    List.pairwise_append.mpr ⟨h.ordered, List.pairwise_singleton _ _, fun b hb c hc =>
      List.mem_singleton.mp hc ▸ hyounger b hb⟩
  rcases h.rotate_adding hrun hsecond hnamed hfree
    (fun n hn => absurd (hnumber ▸ hn) (Nat.not_lt_zero n))
    (List.perm_append_singleton a _) hsorted keep now with ⟨hfind, stored, d', hrotated, hholds⟩
  rw [List.take_left' hlength] at hholds
  refine ⟨hfind, stored, d', hrotated, hholds, ?_⟩
  rw [← Bool.not_eq_true]
  exact fun hhas => hfree ((hholds.has_nameOf_iff hnamed.year hnamed.number).mp hhas)

/-- With more runs in its second it is the oldest one, and goes. -/
theorem rotate_of_many {a : Archived} (h : d.Holds ((numbered keep runs).take keep))
    (hordered : InOrder runs) (hlater : a.run.Follows runs)
    (hrun : d.get? activeName = some (.file a.run.text a.run.modified))
    (hsecond : a.run.second = zone.wallSecond a.run.modified) (hnamed : a.Named)
    (hmany : keep < runsIn a.run.second runs) (hnumber : a.number = 0) (now : Int) :
    (candidates (stampText a.run.second)).find? (fun name => !d.reaches name) = some a.name ∧
      ∃ stored d', Rotated zone d keep now stored d' ∧
        d'.Holds ((numbered keep (a.run :: runs)).take keep) ∧ d'.has a.name = false := by
  have hnumbered : numbered keep (a.run :: runs) = numbered keep runs := by
    rw [numbered, if_neg (Nat.not_le_of_lt hmany)]
  have htaken := taken_of_many hordered hlater hmany
  have hlength : ((numbered keep runs).take keep).length = keep := by
    have hlen := congrArg List.length htaken
    simpa using hlen
  rw [hnumbered]
  refine h.rotate_oldest hlength (fun b hb => ?_) hrun hsecond hnamed hnumber now
  -- All that are there are of the same second, and have greater numbers.
  have hkey : b.key ∈ ((numbered keep runs).take keep).map Archived.key :=
    List.mem_map_of_mem hb
  rw [htaken] at hkey
  rcases List.mem_map.mp hkey with ⟨m, hm, hkey⟩
  rcases Prod.mk.inj hkey with ⟨hsame, hm'⟩
  have hpos : 0 < m := by
    rcases List.mem_map.mp (List.mem_reverse.mp hm) with ⟨j, _, rfl⟩
    exact Nat.succ_pos j
  exact .inr ⟨hsame, by omega⟩

/-- A log file of a second before those of all archives is the one to go, although it is the
    newest. -/
theorem rotate_of_earlier (h : d.Holds archives) (hlength : archives.length = keep)
    {text : String} {modified : Int}
    (hearlier : ∀ b ∈ archives, zone.wallSecond modified < b.run.second)
    (hrun : d.get? activeName = some (.file text modified))
    (hyear : HasPlainYear (zone.wallSecond modified)) (now : Int) :
    ∃ stored d', Rotated zone d keep now stored d' ∧ d'.Holds archives ∧
      d'.has (nameOf (zone.stamp modified) 0) = false := by
  let a : Archived := ⟨.ofFile zone text modified, 0⟩
  exact (h.rotate_oldest (a := a) hlength (fun b hb => .inl (hearlier b hb)) hrun rfl
    ⟨hyear, Nat.zero_le _⟩ rfl now).2

/-- Clocks are set back by an hour after the log file of the only archive was changed, and the
    next log file is changed forty minutes later: it goes. -/
theorem rotate_after_set_back :
    let zone : Zone := fun t => if t < 1699164000 then -14400 else -18000
    let a : Archived := ⟨.ofFile zone "A" 1699162200, 0⟩
    let d : Directory := [(activeName, .file "B" 1699164600), a.entry]
    d.Holds [a] ∧ ∃ stored d', Rotated zone d 1 0 stored d' ∧ d'.Holds [a] := by
  intro zone a d
  have hholds : d.Holds [a] := holds_single ⟨by decide, Nat.zero_le _⟩ _
  have hearlier : ∀ b ∈ [a], zone.wallSecond 1699164600 < b.run.second :=
    List.forall_mem_singleton.mpr (by decide)
  rcases hholds.rotate_of_earlier rfl hearlier List.lookup_cons_self (by decide) 0 with
    ⟨stored, d', hrotated, hafter, _⟩
  exact ⟨hholds, stored, d', hrotated, hafter⟩

/-- A rotation leaves the youngest of the runs that last, and the archive it has added
    is still there if there were not too many runs in its second. -/
theorem rotate (h : d.Holds ((numbered keep runs).take keep)) (hkeep : 1 ≤ keep)
    (hordered : InOrder runs) (hlater : run.Follows runs)
    (hsecond : run.second = zone.wallSecond run.modified) (hyear : HasPlainYear run.second)
    (hrun : d.get? activeName = some (.file run.text run.modified))
    (hfree : ∃ name ∈ candidates (stampText run.second), d.reaches name = false) (now : Int) :
    ∃ name stored d',
      (candidates (stampText run.second)).find? (fun name => !d.reaches name) = some name ∧
      Rotated zone d keep now stored d' ∧
      d'.Holds ((numbered keep (run :: runs)).take keep) ∧
      (d'.has name = true ↔ runsIn run.second runs ≤ keep) := by
  by_cases hfew : runsIn run.second runs ≤ keep
  · have hnumber : runsIn run.second runs ≤ lastNumber := by
      rcases hfree with ⟨name, hname, hfree⟩
      rcases List.mem_map.mp hname with ⟨n, hn, rfl⟩
      have hn : n ≤ lastNumber := Nat.le_of_lt_succ (List.mem_range.mp hn)
      refine Nat.le_trans (Nat.le_of_not_lt fun hlt => ?_) hn
      have hin := (mem_taken_of_few hordered hlater hfew n).mpr hlt
      rw [← h.has_nameOf_iff hyear hn, ← h.reaches_eq_has (isArchive_nameOf _ _), hfree] at hin
      exact absurd hin (by decide)
    let a : Archived := ⟨run, runsIn run.second runs⟩
    rcases rotate_of_few (a := a) h hkeep hordered hlater hrun hsecond ⟨hyear, hnumber⟩ hfew rfl
      now with ⟨hfind, stored, d', hrotated, hholds, hhas⟩
    exact ⟨a.name, stored, d', hfind, hrotated, hholds, fun _ => hfew, fun _ => hhas⟩
  · let a : Archived := ⟨run, 0⟩
    rcases rotate_of_many (a := a) h hordered hlater hrun hsecond ⟨hyear, Nat.zero_le _⟩
      (Nat.lt_of_not_le hfew) rfl now with ⟨hfind, stored, d', hrotated, hholds, hhas⟩
    refine ⟨a.name, stored, d', hfind, hrotated, hholds, fun hin => ?_, fun h => absurd h hfew⟩
    exact absurd (hhas.symm.trans hin) (by decide)

/-- As long as no more archives are kept than a second has names, one is free. -/
theorem exists_free_name (h : d.Holds ((numbered keep runs).take keep))
    (hkeep : keep ≤ lastNumber) (hordered : InOrder runs) (hlater : run.Follows runs)
    (hyear : HasPlainYear run.second) :
    ∃ name ∈ candidates (stampText run.second), d.reaches name = false := by
  have hname {n : Nat} (hn : n ≤ lastNumber)
      (hnot : (run.second, n) ∉ ((numbered keep runs).take keep).map Archived.key) :
      ∃ name ∈ candidates (stampText run.second), d.reaches name = false := by
    refine ⟨nameOf (stampText run.second) n,
      List.mem_map_of_mem (List.mem_range.mpr (Nat.lt_succ_of_le hn)), ?_⟩
    rw [h.reaches_eq_has (isArchive_nameOf _ _), ← Bool.not_eq_true]
    exact fun hhas => hnot ((h.has_nameOf_iff hyear hn).mp hhas)
  by_cases hfew : runsIn run.second runs ≤ keep
  · refine hname (Nat.le_trans hfew hkeep) fun hin => ?_
    exact Nat.lt_irrefl _ ((mem_taken_of_few hordered hlater hfew _).mp hin)
  · refine hname (Nat.zero_le _) ?_
    rw [taken_of_many hordered hlater (Nat.lt_of_not_le hfew)]
    simp

end Directory.Holds

/-! ## Any number of rotations -/

/-- The clock on the wall shows no earlier second later on. -/
def Zone.NeverSetBack (zone : Zone) : Prop := Monotone zone.wallSecond

theorem Zone.neverSetBack_utc : Zone.utc.NeverSetBack := fun _ _ h => Int.add_le_add_right h 0

/-- A directory for log files after any number of rotations, with the runs whose log
    files were rotated, the newest first. The log file of a run is not older than those
    before it, by the clock on the wall, and there is a free name for its archive. -/
inductive Rotations (zone : Zone) (files : LogFiles) (base : String) :
    Directory → List Run → Prop where
  /-- There is no archive at first. -/
  | start {d : Directory} (hunique : d.Unique) (hnone : ∀ e ∈ d, isArchive e.1 = false) :
    Rotations zone files base d []
  /-- Everything but the archives may change at any time. -/
  | change {d d' : Directory} {runs : List Run} (h : Rotations zone files base d runs)
    (hunique : d'.Unique)
    (hsame : (d'.filter (isArchive ·.1)).Perm (d.filter (isArchive ·.1))) :
    Rotations zone files base d' runs
  /-- The log file of a run is rotated. -/
  | rotated {d d' root : Directory} {runs : List Run} {text : String} {modified : Int}
    {place : List String} {now : Int} (h : Rotations zone files base d runs)
    (hplace : root.locate (joinPath base files.dir) = .ok place)
    (hd : root.get?At place = some d)
    (hrun : d.get? activeName = some (.file text modified))
    (hyear : HasPlainYear (zone.wallSecond modified))
    (hlater : (Run.ofFile zone text modified).Follows runs)
    (hfree : ∃ name ∈ candidates (zone.stamp modified), d.reaches name = false)
    (hd' : (openLogFilesBy { zone } files base root now).2.1.get?At place = some d') :
    Rotations zone files base d' (.ofFile zone text modified :: runs)
  /-- There is no log file to be rotated. -/
  | opened {d d' root : Directory} {runs : List Run} {place : List String} {now : Int}
    (h : Rotations zone files base d runs)
    (hplace : root.locate (joinPath base files.dir) = .ok place)
    (hd : root.get?At place = some d) (hnone : d.reach? activeName = none)
    (hd' : (openLogFilesBy { zone } files base root now).2.1.get?At place = some d') :
    Rotations zone files base d' runs

namespace Rotations

variable {zone : Zone} {files : LogFiles} {base : String} {d d' root : Directory}
  {runs : List Run} {place : List String}

/-- A rotation of the entries is one of the directory for log files. -/
theorem openLogFilesBy_of_rotated (hplace : root.locate (joinPath base files.dir) = .ok place)
    (hd : root.get?At place = some d) {now : Int} {stored : Directory}
    (h : Rotated zone d files.maxFiles now stored d') :
    ∃ root', openLogFilesBy { zone } files base root now = (.ok (), root', []) ∧
      root'.get?At place = some d' := by
  have hopened := openLogFilesBy_of_baseOf { zone } (Directory.baseOf_of_locate hplace) hd now
  rw [h.kept] at hopened
  have hthere := Directory.directoryAt_modifyAt
    (Directory.directoryAt_eq_ok_iff.mpr ⟨hplace, hd⟩) h.standing
  let root' := (root.modifyAt (fun _ => stored) place).modifyAt (fun _ => d') place
  refine ⟨root', hopened.trans ?_, Directory.get?At_modifyAt (Directory.get?At_modifyAt hd _) _⟩
  simp only [sweepAt, hthere, h.swept]
  rfl

/-- All runs are by the same clock on the wall. -/
theorem second_eq (h : Rotations zone files base d runs) :
    ∀ r ∈ runs, r.second = zone.wallSecond r.modified := by
  induction h with
  | start => exact fun r hr => absurd hr List.not_mem_nil
  | change _ _ _ ih => exact ih
  | rotated _ _ _ _ _ _ _ _ ih => exact List.forall_mem_cons.mpr ⟨rfl, ih⟩
  | opened _ _ _ _ _ ih => exact ih

/-- Where clocks are never set back, a newer log file is one of a run that follows. -/
theorem follows (h : Rotations zone files base d runs) (hzone : zone.NeverSetBack)
    {modified : Int} (hlater : ∀ r ∈ runs, r.modified ≤ modified) (text : String) :
    (Run.ofFile zone text modified).Follows runs := fun r hr => by
  rw [h.second_eq r hr]
  exact hzone (hlater r hr)

/-- The runs are in order, and the directory holds the youngest of those that last. -/
theorem holds (h : Rotations zone files base d runs) (hkeep : 1 ≤ files.maxFiles) :
    InOrder runs ∧ d.Holds ((numbered files.maxFiles runs).take files.maxFiles) := by
  induction h with
  | start hunique hnone =>
      refine ⟨List.Pairwise.nil, hunique, ?_, ?_, ?_⟩
      · rw [List.filter_eq_nil_iff.mpr fun e he => by simp [hnone e he]]
        simp [numbered]
      · simp [numbered]
      · simp [numbered]
  | change _ hunique hsame ih =>
      rcases ih with ⟨hordered, hholds⟩
      exact ⟨hordered, hunique, hsame.trans hholds.entries, hholds.ordered, hholds.named⟩
  | @rotated d d' root runs text modified place now _ hplace hd hrun hyear hlater hfree hd' ih =>
      rcases ih with ⟨hordered, hholds⟩
      let run := Run.ofFile zone text modified
      rcases hholds.rotate hkeep hordered hlater rfl hyear hrun hfree now with
        ⟨name, stored, d'', _, hrotated, hnew, _⟩
      rcases openLogFilesBy_of_rotated hplace hd hrotated with ⟨root', hopen, hget⟩
      rw [hopen, hget] at hd'
      injection hd' with hd'
      exact ⟨inOrder_cons.mpr ⟨hlater, hordered⟩, hd' ▸ hnew⟩
  | @opened d d' root runs place now _ hplace hd hnone hd' ih =>
      rcases ih with ⟨hordered, hholds⟩
      rcases hholds.sweep hnone zone files.maxFiles now with ⟨d'', hswept, hnew⟩
      rcases openLogFilesBy_of_rotated hplace hd
        ⟨storeBy_of_none hnone, hswept, fun _ _ _ hseen => hseen⟩ with ⟨root', hopen, hget⟩
      rw [hopen, hget] at hd'
      injection hd' with hd'
      rw [List.take_take, Nat.min_self] at hnew
      exact ⟨hordered, hd' ▸ hnew⟩

/-- The archives of a directory, youngest first, are the log files of the youngest of the
    runs that last. These are simply the youngest runs as long as no second has more than
    one run above those that are kept. The log file of the next run is archived under the
    first free name of its second, and that archive is still there afterwards exactly if
    there were no more runs in that second before it than are kept. Seconds are those on the
    wall, where the log file must not be older than those before it; that is so for every
    newer log file if clocks are never set back. -/
theorem newest_lasting_runs_are_kept (h : Rotations zone files base d runs)
    (hkeep : 1 ≤ files.maxFiles) :
    let keep := files.maxFiles
    (oldestFirst d).reverse.map d.get? =
        ((lasting keep runs).take keep).map (fun run => some (.file run.text run.modified)) ∧
    (lasting keep runs = runs ↔ ∀ t, runsIn t runs ≤ keep + 1) ∧
    ∀ (text : String) (modified : Int),
      let run := Run.ofFile zone text modified
      (zone.NeverSetBack → (∀ r ∈ runs, r.modified ≤ modified) → run.Follows runs) ∧
      ∀ (root : Directory) (place : List String) (now : Int),
        root.locate (joinPath base files.dir) = .ok place → root.get?At place = some d →
        d.get? activeName = some (.file text modified) → HasPlainYear run.second →
        run.Follows runs →
        (∃ name ∈ candidates (stampText run.second), d.reaches name = false) →
        ∃ root' d' name, openLogFilesBy { zone } files base root now = (.ok (), root', []) ∧
          root'.get?At place = some d' ∧
          (candidates (stampText run.second)).find? (fun name => !d.reaches name) = some name ∧
          (d'.has name = true ↔ runsIn run.second runs ≤ keep) := by
  intro keep
  rcases h.holds hkeep with ⟨hordered, hholds⟩
  refine ⟨?_, lasting_eq_iff, fun text modified => ?_⟩
  · rw [hholds.oldestFirst_eq, List.reverse_reverse, List.map_map, ← map_run_numbered,
      ← List.map_take, List.map_map]
    exact List.map_congr_left fun a ha => hholds.get?_name ha
  · intro run
    refine ⟨fun hzone hlater => h.follows hzone hlater text, ?_⟩
    intro root place now hplace hd hrun hyear hlater hfree
    rcases hholds.rotate hkeep hordered hlater rfl hyear hrun hfree now with
      ⟨name, stored, d', hfind, hrotated, _, hhas⟩
    rcases openLogFilesBy_of_rotated hplace hd hrotated with ⟨root', hopen, hget⟩
    exact ⟨root', d', name, hopen, hget, hfind, hhas⟩

/-- Three runs in one second where one archive is kept: the last one does not stay. -/
theorem third_run_of_a_second_is_lost :
    let files : LogFiles := { dir := "l", maxFiles := 1 }
    let run (text : String) : Run := .ofFile .utc text 1700000000
    1 ≤ files.maxFiles ∧ ∃ d, Rotations .utc files "" d [run "C", run "B", run "A"] ∧
      (oldestFirst d).reverse.map d.get? = [some (.file "B" 1700000000)] := by
  intro files run
  have hkeep : 1 ≤ files.maxFiles := Nat.le_refl 1
  have hyear : HasPlainYear (Zone.utc.wallSecond 1700000000) := by decide
  have hplace (d : Directory) :
      Directory.locate [("l", .directory d 0)] (joinPath "" files.dir) = .ok ["l"] := by
    have hsteps : pathSteps "l" = [.into "l"] := by
      rw [pathSteps_eq]
      decide
    rw [show joinPath "" files.dir = "l" from rfl, Directory.locate,
      show checkPath "l" = .ok () from rfl, hsteps]
    rfl
  have hnext (d : Directory) (runs : List Run) (text : String)
      (h : Rotations .utc files "" d runs) (hsame : ∀ r ∈ runs, r.modified ≤ 1700000000) :
      ∃ d', Rotations .utc files "" d' (run text :: runs) := by
    let d₁ : Directory := d.put activeName (.file text 1700000000)
    let root : Directory := [("l", .directory d₁ 0)]
    have hbegun : Rotations .utc files "" d₁ runs := by
      refine h.change ((h.holds hkeep).2.unique.put _ _) ?_
      rw [Directory.filter_put isArchive_activeName]
    have hrun : d₁.get? activeName = some (.file text 1700000000) :=
      Directory.get?_put_self _ _ _
    rcases (newest_lasting_runs_are_kept hbegun hkeep).2.2 text 1700000000 with ⟨hfollows, hrotate⟩
    have hlater := hfollows Zone.neverSetBack_utc hsame
    rcases hbegun.holds hkeep with ⟨hordered, hholds⟩
    have hfree : ∃ name ∈ candidates (stampText (run text).second), d₁.reaches name = false :=
      hholds.exists_free_name (by decide) hordered hlater hyear
    rcases hrotate root ["l"] 0 (hplace d₁) rfl hrun hyear hlater hfree with
      ⟨root', d', _, hopen, hd', _⟩
    exact ⟨d', .rotated hbegun (hplace d₁) rfl hrun hyear hlater hfree (by rw [hopen]; exact hd')⟩
  rcases hnext [] [] "A" (.start List.nodup_nil (by simp)) (by simp) with ⟨d₁, h₁⟩
  rcases hnext d₁ _ "B" h₁ (by simp [run, Run.ofFile]) with ⟨d₂, h₂⟩
  rcases hnext d₂ _ "C" h₂ (by simp [run, Run.ofFile]) with ⟨d₃, h₃⟩
  exact ⟨hkeep, d₃, h₃, (newest_lasting_runs_are_kept h₃ hkeep).1⟩

end Rotations

end ChainSync
