import ChainSync.Proofs.Address.Offsets

/-!
# Joining Hosts and Ports

What comes apart again after it has been joined.

Joining and splitting do not go by the same sign. Joining asks whether there is a colon
in the host. Splitting looks up the last colon and, if there is a bracket in front, the
first closing one, and says nothing of colons in the host before it has found its end.
That the two agree is therefore a matter of what must not stand in a host or a port, and
the grammar has the answer: brackets in neither, and no colon in a port. Splitting returns
no other pairs, so any other pair that is joined is refused, or comes apart in another
place.

An address says a little more than its parts. A host without a colon may be in brackets,
and joining leaves them out.

## Theorems

* `Forms.free_host`, `Forms.join_eq`: Joining the parts of an address.
* `forms_join`: The parts of what has been joined.
* `split_join`, `free_of_split`: The two directions.
* `split_undoes_join`: Which pairs come apart again.
-/

namespace ChainSync.Address

variable {address host port s : String}

/-- Whether a text is without certain characters is found out one by one. -/
theorem free_of_all {cs : List Char} (h : cs.all (fun c => decide (c ∉ s.toList)) = true) :
    Free cs s :=
  fun c hc => of_decide_eq_true (List.all_eq_true.mp h c hc)

theorem Forms.free_host (h : Forms host port address) : Free ['[', ']'] host := by
  rcases h.1 with ⟨_, hhost⟩ | ⟨_, hhost⟩
  · exact (free_cons_iff.mp hhost).2
  · exact hhost

/-- What has been joined of a host and a port has these two parts. -/
theorem forms_join (hhost : Free ['[', ']'] host) (hport : Free [':', '[', ']'] port) :
    Forms host port (join host port) := by
  refine ⟨?_, hport⟩
  by_cases hcolon : ':' ∈ host.toList
  · rw [join, if_pos hcolon]
    exact .inr ⟨rfl, hhost⟩
  · rw [join, if_neg hcolon]
    exact .inl ⟨rfl, free_cons_iff.mpr ⟨hcolon, hhost⟩⟩

/-- The parts of an address are joined to the same address, but for brackets
    around a host without a colon. -/
theorem Forms.join_eq (h : Forms host port address) :
    join host port = address ∨
      address = "[" ++ host ++ "]:" ++ port ∧ ':' ∉ host.toList := by
  by_cases hcolon : ':' ∈ host.toList
  · rcases h.1 with ⟨_, hhost⟩ | ⟨haddress, _⟩
    · exact absurd hcolon (free_cons_iff.mp hhost).1
    · rw [join, if_pos hcolon]
      exact .inl haddress.symm
  · rcases h.1 with ⟨haddress, _⟩ | ⟨haddress, _⟩
    · rw [join, if_neg hcolon]
      exact .inl haddress.symm
    · exact .inr ⟨haddress, hcolon⟩

theorem free_of_split (h : split address = .ok ⟨host, port⟩) :
    Free ['[', ']'] host ∧ Free [':', '[', ']'] port := by
  have hforms := split_ok_iff.mp h
  exact ⟨hforms.free_host, hforms.2⟩

theorem split_join (hhost : Free ['[', ']'] host) (hport : Free [':', '[', ']'] port) :
    split (join host port) = .ok ⟨host, port⟩ :=
  split_ok_iff.mpr (forms_join hhost hport)

theorem splitAtOffsets_ok_iff {parts : HostPort} :
    splitAtOffsets address = some (.ok parts) ↔ split address = .ok parts := by
  rw [splitAtOffsets_eq, Option.some.injEq]

/-- A host and a port that have been joined come apart again if and only if there is no
    bracket in either and no colon in the port. All parts of addresses are like that. So
    the parts of an address, joined again, have the same parts; and they are the same
    address, but for brackets around a host without a colon. -/
theorem split_undoes_join (host port : String) :
    (splitAtOffsets (join host port) = some (.ok ⟨host, port⟩) ↔
      Free ['[', ']'] host ∧ Free [':', '[', ']'] port) ∧
    ∀ address, splitAtOffsets address = some (.ok ⟨host, port⟩) →
      (Free ['[', ']'] host ∧ Free [':', '[', ']'] port) ∧
      splitAtOffsets (join host port) = some (.ok ⟨host, port⟩) ∧
      (join host port = address ∨ address = "[" ++ host ++ "]:" ++ port ∧ ':' ∉ host.toList) := by
  simp only [splitAtOffsets_ok_iff]
  refine ⟨⟨free_of_split, fun hfree => split_join hfree.1 hfree.2⟩, fun address h => ?_⟩
  have hfree := free_of_split h
  exact ⟨hfree, split_join hfree.1 hfree.2, (split_ok_iff.mp h).join_eq⟩

/-- A host that needs its brackets, one that does not, and one that has been given them
    beforehand. -/
theorem split_undoes_join_brackets :
    splitAtOffsets (join "fe80::1%eth0" "9108") = some (.ok ⟨"fe80::1%eth0", "9108"⟩) ∧
      splitAtOffsets "[host]:" = some (.ok ⟨"host", ""⟩) ∧
      splitAtOffsets (join "host" "") = some (.ok ⟨"host", ""⟩) ∧ join "host" "" ≠ "[host]:" ∧
      splitAtOffsets (join "[::1]" "80") ≠ some (.ok ⟨"[::1]", "80"⟩) := by
  have hneeded := (split_undoes_join "fe80::1%eth0" "9108").1.mpr
    ⟨free_of_all (by decide), free_of_all (by decide)⟩
  have hsplit : splitAtOffsets "[host]:" = some (.ok ⟨"host", ""⟩) :=
    splitAtOffsets_ok_iff.mpr rfl
  have hagain := ((split_undoes_join "host" "").2 "[host]:" hsplit).2.1
  refine ⟨hneeded, hsplit, hagain, by decide, fun hgiven => ?_⟩
  have hopen := (free_cons_iff.mp ((split_undoes_join "[::1]" "80").1.mp hgiven).1).1
  exact hopen (by decide)

end ChainSync.Address
