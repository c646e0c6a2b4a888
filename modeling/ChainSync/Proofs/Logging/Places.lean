import Mathlib.Data.String.Basic
import ChainSync.Logging.Setup
import ChainSync.Proofs.Logging.Entries

/-!
# The Directory for Log Files

Log files in a directory that is there already.

Making a directory and all those on the way to it changes nothing if it is there: the
last step of its path leads to something that has the name already, and everything
before that step is there as well, or the path would have led nowhere. So all that is
left of getting the log files ready is that they are rotated in their directory.

That takes two looks at the path, and the log file of the last run has got another name in
between. A path needs directories only, so it leads where it did if the same directories
are there: unless it is a directory that has got another name.

## Theorems

* `Directory.follow_append`: A path that leads somewhere does so by its beginning.
* `Directory.makePath_of_locate`: Making a directory that is there.
* `Directory.directoryAt_modifyAt`: A path after a change that keeps all directories.
* `openLogFilesBy_of_baseOf`: Rotating log files in a directory that is there.
-/

namespace ChainSync

/-- The steps of a path, split where its characters are. -/
theorem pathSteps_eq (path : String) :
    pathSteps path =
      (((path.toList.splitOnP (· = '/')).map String.ofList).filter (· ≠ "")).map fun part =>
        if part = "." then .stay else if part = ".." then .up else .into part := by
  rw [pathSteps, String.splitToList_of_valid]

namespace Directory

variable {root : Directory} {path : String} {steps : List PathStep} {place : List String}

/-- Steps that lead somewhere take all of a path by its first part. -/
theorem follow_append {start : List String} {first rest : List PathStep}
    (h : root.follow start (first ++ rest) = .ok place) :
    ∃ way, root.follow start first = .ok way ∧ root.follow way rest = .ok place := by
  induction first generalizing start with
  | nil => exact ⟨start, by rw [follow], h⟩
  | cons step first ih =>
      rw [List.cons_append, follow] at h
      cases hd : root.get?At start with
      | none => simp [hd] at h
      | some d =>
          rw [hd] at h
          cases step with
          | stay =>
              rcases ih h with ⟨way, hway, hrest⟩
              exact ⟨way, by rw [follow, hd]; exact hway, hrest⟩
          | up =>
              rcases ih h with ⟨way, hway, hrest⟩
              exact ⟨way, by rw [follow, hd]; exact hway, hrest⟩
          -- A step into a directory needs a short name that is there.
          | into name =>
              simp only [] at h
              split at h
              · exact absurd h (by simp)
              · next hshort =>
                split at h
                · next hseen =>
                  rcases ih h with ⟨way, hway, hrest⟩
                  refine ⟨way, ?_, hrest⟩
                  rw [follow, hd]
                  simp only [hshort, hseen, if_true, if_false]
                  exact hway
                · exact absurd h (by simp)

/-- What holds the end of a path lies where the steps before it lead. -/
theorem holder_append {first : List PathStep} {way : List String}
    (h : root.follow [] first = .ok way) {d : Directory} (hd : root.get?At way = some d)
    (last : PathStep) :
    root.holder (first ++ [last]) =
      if let .into name := last then
        if longestName < name.utf8ByteSize then .error .nameTooLong else .ok (way, d, name)
      else .error .alreadyExists := by
  rw [holder, List.dropLast_concat, List.getLast?_concat, h]
  simp only [bind, Except.bind, hd]
  cases last <;> rfl

/-- Nothing can be made where something is. -/
theorem makeOne_of_follow (h : root.follow [] steps = .ok place) (now : Int) :
    root.makeOne now steps = .error .alreadyExists := by
  rcases List.eq_nil_or_concat steps with rfl | ⟨first, last, rfl⟩
  · rfl
  rw [List.concat_eq_append] at h ⊢
  rcases follow_append h with ⟨way, hway, hlast⟩
  rw [follow] at hlast
  cases hd : root.get?At way with
  | none => simp [hd] at hlast
  | some d =>
      rw [hd] at hlast
      rw [makeOne, holder_append hway hd]
      cases last with
      | stay => rfl
      | up => rfl
      | into name =>
          simp only [] at hlast ⊢
          split at hlast
          · exact absurd hlast (by simp)
          · next hshort =>
            split at hlast
            · next hseen =>
              rw [if_neg hshort]
              change (if d.has name = true then _ else _) = _
              rw [if_pos (has_of_reaches hseen)]
            · exact absurd hlast (by simp)

theorem makePath_of_locate {d : Directory} (h : root.locate path = .ok place)
    (hd : root.get?At place = some d) (now : Int) : root.makePath path now = (.ok (), root) := by
  rw [locate] at h
  cases hcheck : checkPath path with
  | error e =>
      rw [hcheck] at h
      exact absurd h (by simp [bind, Except.bind])
  | ok u =>
      rw [hcheck] at h
      change (if path = "" then _ else _) = _ at h
      split at h
      · exact absurd h (by simp)
      · next hpath =>
        have hmake := makeOne_of_follow h now
        have hthere : root.isDirectoryAt (pathSteps path) = true := by
          simp only [isDirectoryAt, h, hd, Option.isSome_some]
        simp only [makePath, hcheck, if_neg hpath, makeAll, ensureOne, hmake, hthere, if_true]

theorem locate_ne_empty (h : root.locate path = .ok place) : path ≠ "" := by
  rintro rfl
  exact absurd h (by simp [locate, checkPath, bind, Except.bind])

theorem baseOf_of_locate (h : root.locate path = .ok place) : root.baseOf path = .ok place := by
  rw [baseOf, if_neg (locate_ne_empty h), h]

/-- Nothing needs to be made for a path behind which names are looked up. -/
theorem makePath_of_baseOf {d : Directory} (h : root.baseOf path = .ok place)
    (hd : root.get?At place = some d) (now : Int) : root.makePath path now = (.ok (), root) := by
  rw [baseOf] at h
  split at h
  · next hempty =>
    rw [hempty]
    rfl
  · exact makePath_of_locate h hd now

/-! ## The path after a change -/

theorem directoryAt_eq_ok_iff {d : Directory} :
    root.directoryAt path = .ok (place, d) ↔
      root.locate path = .ok place ∧ root.get?At place = some d := by
  rw [directoryAt]
  cases root.locate path with
  | error e => simp [bind, Except.bind]
  | ok way =>
      simp only [bind, Except.bind, Except.ok.injEq]
      cases hway : root.get?At way with
      | none =>
          refine ⟨fun h => absurd h (by simp), fun h => ?_⟩
          rw [h.1] at hway
          exact absurd (hway.symm.trans h.2) (by simp)
      | some d' =>
          constructor
          · intro h
            rcases Prod.mk.inj (Except.ok.inj h) with ⟨rfl, rfl⟩
            exact ⟨rfl, hway⟩
          · rintro ⟨rfl, hd⟩
            rw [← Option.some.inj (hway.symm.trans hd)]
            rfl

/-- Wherever there is a directory, there is one in another tree as well. -/
def Standing (root root' : Directory) : Prop :=
  ∀ place, (root.get?At place).isSome → (root'.get?At place).isSome

/-- Steps to a directory are taken from one. -/
theorem isSome_of_follow {start : List String} (h : root.follow start steps = .ok place)
    (hd : (root.get?At place).isSome) : (root.get?At start).isSome := by
  cases steps with
  | nil =>
      rw [follow] at h
      exact Except.ok.inj h ▸ hd
  | cons step rest =>
      rw [follow] at h
      cases hstart : root.get?At start with
      | none => simp [hstart] at h
      | some d => rfl

/-- A name on the way to a directory is seen where there is a directory behind it. -/
theorem reaches_of_get?At {d : Directory} {way : List String} {name : String}
    (hd : root.get?At way = some d) (h : (root.get?At (way ++ [name])).isSome) :
    d.reaches name = true := by
  rcases Option.isSome_iff_exists.mp h with ⟨d', hd'⟩
  induction way generalizing root with
  | nil =>
      rw [← Option.some.inj hd]
      rcases get?At_cons_eq_some_iff.mp hd' with ⟨entries, t, hseen, _⟩
      exact Option.isSome_iff_exists.mpr ⟨_, hseen⟩
  | cons first rest ih =>
      rcases get?At_cons_eq_some_iff.mp hd with ⟨entries, t, hseen, hrest⟩
      rcases get?At_cons_eq_some_iff.mp hd' with ⟨entries', t', hseen', hrest'⟩
      rcases Node.directory.inj (Option.some.inj (hseen.symm.trans hseen')) with ⟨rfl, rfl⟩
      exact ih hrest (Option.isSome_iff_exists.mpr ⟨_, hrest'⟩) hrest'

/-- Steps to a directory lead there as long as all directories stand. -/
theorem Standing.follow {root' : Directory} (h : Standing root root') {start : List String}
    (hfollow : root.follow start steps = .ok place) (hd : (root.get?At place).isSome) :
    root'.follow start steps = .ok place := by
  induction steps generalizing start with
  | nil => exact hfollow
  | cons step rest ih =>
      rcases Option.isSome_iff_exists.mp (h start (isSome_of_follow hfollow hd)) with ⟨d', hd'⟩
      rw [Directory.follow] at hfollow ⊢
      cases hstart : root.get?At start with
      | none => simp [hstart] at hfollow
      | some d =>
          simp only [hstart] at hfollow
          simp only [hd']
          cases step with
          | stay => exact ih hfollow
          | up => exact ih hfollow
          -- The name must be seen in the other tree, too.
          | into name =>
              simp only [] at hfollow ⊢
              split at hfollow
              · exact absurd hfollow (by simp)
              · next hshort =>
                split at hfollow
                · have hnext := h _ (isSome_of_follow hfollow hd)
                  rw [if_neg hshort, if_pos (reaches_of_get?At hd' hnext)]
                  exact ih hfollow
                · exact absurd hfollow (by simp)

/-- All directories stand if the entries of one of them change but for directories. -/
theorem standing_modifyAt {d d' : Directory} (hd : root.get?At place = some d)
    (hsame : ∀ name entries t, d.reach? name = some (.directory entries t) →
      d'.reach? name = some (.directory entries t)) :
    Standing root (root.modifyAt (fun _ => d') place) := by
  simp only [Standing, Option.isSome_iff_exists]
  induction place generalizing root with
  | nil =>
      rintro (_ | ⟨name, more⟩) ⟨e, he⟩
      · exact ⟨d', rfl⟩
      · rw [← Option.some.inj hd] at hsame
        rcases get?At_cons_eq_some_iff.mp he with ⟨entries, t, hseen, hmore⟩
        exact ⟨e, get?At_cons_eq_some_iff.mpr ⟨entries, t, hsame name entries t hseen, hmore⟩⟩
  | cons first rest ih =>
      rcases get?At_cons_eq_some_iff.mp hd with ⟨entries, t, hfirst, hrest⟩
      rcases reach?_modifyAt_cons hfirst (fun _ => d') rest with ⟨hchanged, hothers⟩
      rintro (_ | ⟨name, more⟩) ⟨e, he⟩
      · exact ⟨_, rfl⟩
      · rcases get?At_cons_eq_some_iff.mp he with ⟨entries', t', hseen, hmore⟩
        by_cases hname : name = first
        · rw [hname, hfirst] at hseen
          rcases Node.directory.inj (Option.some.inj hseen) with ⟨rfl, rfl⟩
          rcases ih hrest more ⟨e, hmore⟩ with ⟨e', he'⟩
          exact ⟨e', get?At_cons_eq_some_iff.mpr ⟨_, t, hname ▸ hchanged, he'⟩⟩
        · exact ⟨e, get?At_cons_eq_some_iff.mpr
            ⟨entries', t', (hothers name hname).trans hseen, hmore⟩⟩

/-- A path leads to a directory in which everything but directories may have changed. -/
theorem directoryAt_modifyAt {d d' : Directory} (h : root.directoryAt path = .ok (place, d))
    (hsame : ∀ name entries t, d.reach? name = some (.directory entries t) →
      d'.reach? name = some (.directory entries t)) :
    (root.modifyAt (fun _ => d') place).directoryAt path = .ok (place, d') := by
  rcases directoryAt_eq_ok_iff.mp h with ⟨hplace, hd⟩
  refine directoryAt_eq_ok_iff.mpr ⟨?_, get?At_modifyAt hd _⟩
  rw [locate] at hplace ⊢
  cases hcheck : checkPath path with
  | error e =>
      rw [hcheck] at hplace
      exact absurd hplace (by simp [bind, Except.bind])
  | ok u =>
      rw [hcheck] at hplace
      change (if path = "" then _ else _) = _ at hplace
      change (if path = "" then _ else _) = _
      split at hplace
      · exact absurd hplace (by simp)
      · next hpath =>
        rw [if_neg hpath]
        exact (standing_modifyAt hd hsame).follow hplace (Option.isSome_iff_exists.mpr ⟨d, hd⟩)

end Directory

/-- Without a directory for them there are no log files. -/
theorem openLogFilesBy_of_makePath (sys : Archive.System) {files : LogFiles} {base : String}
    {root root' : Directory} {now : Int} {e : FileError}
    (h : root.makePath (joinPath base files.dir) now = (.error e, root')) :
    openLogFilesBy sys files base root now = (.error (.directoryCreation e), root', []) := by
  simp only [openLogFilesBy, h]

open Directory in
/-- In a directory that is there the log file of the last run is stored first. Only if that
    does not fail the path is looked up again, for everything else. -/
theorem openLogFilesBy_of_baseOf (sys : Archive.System) {files : LogFiles} {base : String}
    {root d : Directory} {place : List String}
    (hplace : root.baseOf (joinPath base files.dir) = .ok place)
    (hd : root.get?At place = some d) (now : Int) :
    openLogFilesBy sys files base root now =
      match Archive.storeBy sys d with
      | .error e => (.error (.rotationFailed e), root, [])
      | .ok d' => sweepAt sys (joinPath base files.dir) files.maxFiles
          (root.modifyAt (fun _ => d') place) now := by
  have hpath := makePath_of_baseOf hplace hd now
  simp only [openLogFilesBy, hpath, storeAt, hplace, hd]
  cases Archive.storeBy sys d with
  | error e => rfl
  | ok d' => rfl

end ChainSync
