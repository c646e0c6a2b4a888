import ChainSync.Proofs.Logging.Holding

/-!
# Runs that Last

Which log files become archives that stay, and under which numbers.

One might expect the newest ones, as many as are kept. Within one second that is not so.
An archive gets the first number that is free, and as soon as there are more runs in a
second than are kept, the number that is free is the one the oldest of them had. From
then on each further run of that second gets it, counts as the oldest archive of all,
and goes at once. The runs that came before them stay.

So all that counts is how many earlier runs of the same second there were. The lists of
runs here have the newest first.

## Main definitions

* `InOrder`: Runs one after the other.
* `lasting`: The runs whose archives only go when newer ones take their place.
* `numbered`: These runs with their numbers.

## Theorems

* `lasting_eq_iff`: When all runs last.
* `ordered_numbered`: Numbers are in the order of the runs.
* `mem_taken_of_few`, `taken_of_many`: The numbers of a second that are taken.
-/

namespace ChainSync

open Archive

/-- For no run the clock on the wall showed an earlier second than for those before it. -/
def InOrder (runs : List Run) : Prop :=
  runs.Pairwise fun later earlier => earlier.second ≤ later.second

/-- How many runs there were in a second. -/
def runsIn (t : Int) (runs : List Run) : Nat := runs.countP (·.second = t)

/-- The runs whose archives stay until newer ones take their place; not among them are
    those before which there were more runs in the same second than are kept. -/
def lasting (keep : Nat) : List Run → List Run
  | [] => []
  | run :: earlier =>
    if runsIn run.second earlier ≤ keep then run :: lasting keep earlier else lasting keep earlier

/-- The runs that last, with the numbers of their archives. -/
def numbered (keep : Nat) : List Run → List Archived
  | [] => []
  | run :: earlier =>
    if runsIn run.second earlier ≤ keep then
      ⟨run, runsIn run.second earlier⟩ :: numbered keep earlier
    else numbered keep earlier

variable {keep : Nat} {runs : List Run}

theorem inOrder_cons {run : Run} :
    InOrder (run :: runs) ↔ run.Follows runs ∧ InOrder runs :=
  List.pairwise_cons

theorem runsIn_cons (t : Int) (run : Run) (runs : List Run) :
    runsIn t (run :: runs) = runsIn t runs + if run.second = t then 1 else 0 := by
  simp [runsIn, List.countP_cons]

/-! ## Runs -/

theorem length_lasting_le (keep : Nat) (runs : List Run) :
    (lasting keep runs).length ≤ runs.length := by
  induction runs with
  | nil => exact Nat.le_refl 0
  | cons run earlier ih =>
      rw [lasting]
      split
      · exact Nat.succ_le_succ ih
      · exact Nat.le_succ_of_le ih

/-- All runs last if there are not too many in any second, and only then. -/
theorem lasting_eq_iff :
    lasting keep runs = runs ↔ ∀ t, runsIn t runs ≤ keep + 1 := by
  induction runs with
  | nil => simp [lasting, runsIn]
  | cons run earlier ih =>
      rw [lasting]
      constructor
      · intro h t
        split at h
        · next hfew =>
          have hearlier := ih.mp (List.cons.inj h).2 t
          rw [runsIn_cons]
          split
          · next heq =>
            rw [← heq]
            exact Nat.succ_le_succ hfew
          · exact hearlier
        · -- A run that does not last makes the list shorter.
          have hlength := length_lasting_le keep earlier
          rw [h] at hlength
          exact absurd hlength (Nat.not_succ_le_self _)
      · intro h
        have hearlier : ∀ t, runsIn t earlier ≤ keep + 1 := fun t =>
          Nat.le_trans (by rw [runsIn_cons]; exact Nat.le_add_right _ _) (h t)
        have hfew := h run.second
        rw [runsIn_cons, if_pos rfl] at hfew
        rw [if_pos (Nat.le_of_succ_le_succ hfew), ih.mpr hearlier]

theorem map_run_numbered : (numbered keep runs).map (·.run) = lasting keep runs := by
  induction runs with
  | nil => rfl
  | cons run earlier ih =>
      rw [numbered, lasting]
      split
      · rw [List.map_cons, ih]
      · exact ih

/-! ## Numbers -/

/-- A number counts the earlier runs of its second. -/
theorem mem_numbered {a : Archived} (h : a ∈ numbered keep runs) :
    a.run ∈ runs ∧ a.number < runsIn a.run.second runs := by
  induction runs with
  | nil => exact absurd h List.not_mem_nil
  | cons run earlier ih =>
      have hold (h : a ∈ numbered keep earlier) :
          a.run ∈ run :: earlier ∧ a.number < runsIn a.run.second (run :: earlier) := by
        rw [runsIn_cons]
        exact ⟨List.mem_cons_of_mem _ (ih h).1, Nat.lt_of_lt_of_le (ih h).2 (Nat.le_add_right _ _)⟩
      rw [numbered] at h
      split at h
      · rcases List.mem_cons.mp h with rfl | h
        · simp [runsIn_cons]
        · exact hold h
      · exact hold h

/-- Of two runs the newer one has the younger archive. -/
theorem ordered_numbered (h : InOrder runs) :
    (numbered keep runs).Pairwise Archived.Younger := by
  induction runs with
  | nil => exact .nil
  | cons run earlier ih =>
      rw [inOrder_cons] at h
      rw [numbered]
      split
      · refine List.pairwise_cons.mpr ⟨fun a ha => ?_, ih h.2⟩
        rcases mem_numbered ha with ⟨hmem, hnumber⟩
        rcases Int.lt_or_eq_of_le (h.1 a.run hmem) with hlt | heq
        · exact .inl hlt
        · exact .inr ⟨heq, heq ▸ hnumber⟩
      · exact ih h.2

/-- The archives of the last second come first, their numbers counting down. -/
theorem numbered_eq_append (keep : Nat) (h : InOrder runs) {t : Int}
    (ht : ∀ run ∈ runs, run.second ≤ t) :
    ∃ older, (numbered keep runs).map Archived.key =
        (List.range (min (runsIn t runs) (keep + 1))).reverse.map (t, ·) ++ older ∧
      ∀ p ∈ older, p.1 < t := by
  induction runs with
  | nil => exact ⟨[], rfl, fun p hp => absurd hp List.not_mem_nil⟩
  | cons run earlier ih =>
      rw [inOrder_cons] at h
      rcases Int.lt_or_eq_of_le (ht run List.mem_cons_self) with hlt | rfl
      · -- There has been no run in that second yet.
        have hbefore : ∀ r ∈ run :: earlier, r.second < t := fun r hr => by
          rcases List.mem_cons.mp hr with rfl | hr
          · exact hlt
          · exact Int.lt_of_le_of_lt (h.1 r hr) hlt
        have hnone : runsIn t (run :: earlier) = 0 :=
          List.countP_eq_zero.mpr fun r hr => by simpa using Int.ne_of_lt (hbefore r hr)
        refine ⟨_, by rw [hnone]; rfl, fun p hp => ?_⟩
        rcases List.mem_map.mp hp with ⟨a, ha, rfl⟩
        exact hbefore a.run (mem_numbered ha).1
      · -- One run more in the last second takes the next number, if there is one left.
        rcases ih h.2 h.1 with ⟨older, heq, hlt⟩
        refine ⟨older, ?_, hlt⟩
        rw [numbered, runsIn_cons, if_pos rfl]
        split
        · next hfew =>
          rw [Nat.min_eq_left (Nat.le_succ_of_le hfew)] at heq
          rw [Nat.min_eq_left (Nat.succ_le_succ hfew), List.range_succ, List.reverse_append,
            List.map_cons, heq]
          rfl
        · next hmany =>
          have hover : keep + 1 ≤ runsIn run.second earlier := Nat.lt_of_not_le hmany
          rw [heq, Nat.min_eq_right hover, Nat.min_eq_right (Nat.le_succ_of_le hover)]

/-- Up to as many runs in the last second as are kept, their numbers are taken from
    zero on. -/
theorem mem_taken_of_few (h : InOrder runs) {t : Int}
    (ht : ∀ run ∈ runs, run.second ≤ t) (hfew : runsIn t runs ≤ keep) (n : Nat) :
    (t, n) ∈ ((numbered keep runs).take keep).map Archived.key ↔ n < runsIn t runs := by
  rcases numbered_eq_append keep h ht with ⟨older, heq, hlt⟩
  rw [Nat.min_eq_left (Nat.le_succ_of_le hfew)] at heq
  rw [List.map_take, heq, List.take_append, List.take_of_length_le (by simpa using hfew),
    List.mem_append]
  constructor
  · rintro (hmem | hmem)
    · simpa using hmem
    · exact absurd (hlt _ (List.mem_of_mem_take hmem)) (Int.lt_irrefl t)
  · exact fun hn => .inl (by simpa using hn)

/-- With more runs than that, only the number zero is free again. -/
theorem taken_of_many (h : InOrder runs) {t : Int}
    (ht : ∀ run ∈ runs, run.second ≤ t) (hmany : keep < runsIn t runs) :
    ((numbered keep runs).take keep).map Archived.key =
      ((List.range keep).map Nat.succ).reverse.map (t, ·) := by
  rcases numbered_eq_append keep h ht with ⟨older, heq, _⟩
  rw [Nat.min_eq_right hmany, List.range_succ_eq_map, List.reverse_cons, List.map_append,
    List.append_assoc] at heq
  rw [List.map_take, heq, List.take_left' (by simp)]

end ChainSync
