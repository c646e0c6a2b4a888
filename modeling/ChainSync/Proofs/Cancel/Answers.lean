import ChainSync.Proofs.Cancel.Reasons

/-!
# Answers of Handles

What a handle answers, and whether its answers agree.

A handle keeps two things, a token that may be cancelled and a reason that may be set.
Whoever cancels the handle changes both, the reason first. But the token is also given
away, to work that wants to look whether it has to stop, and whoever has got it may
cancel it as well. That leaves the reason alone.

So a handle with a reason is cancelled, and one whose token nobody has cancelled has a
reason if it is cancelled (`Recorded.cancelled_iff`). Only for a handle whose token was
cancelled before anything else was do the two not agree, and it stays so until somebody
cancels the handle itself: it says that it is cancelled, but knows of no reason and no
error, and a request to cancel it is answered as if it were the first one.

## Theorems

* `Coordinator.cancel_fst`: What a request to cancel is answered.
* `Coordinator.Recorded.cancelled_iff`: Which handles are cancelled.
* `Coordinator.answers_agree_unless_token_cancelled`: All answers of a handle.
-/

namespace ChainSync

namespace Coordinator

variable {c : Coordinator} {past : List Step} {ds : List Derivation}

/-- A request to cancel a handle is successful exactly if the handle has no reason. -/
theorem cancel_fst {id : Nat} {h : Handle} (hh : c.handle? id = some h) :
    (c.cancel id).1 = true ↔ h.reason = none := by
  rw [cancel, cancelWith_fst, reason?, reason?, handle?_cancelWith, hh]
  simp only [Option.map_some, Option.bind_some, if_true]
  refine ⟨And.left, fun hnone => ⟨hnone, ?_⟩⟩
  rw [hnone, Option.none_or]

/-- A handle is cancelled if it has a reason, or if somebody has cancelled its token. -/
theorem Recorded.cancelled_iff (hr : Recorded past c ds) {d : Derivation} (hd : d ∈ ds)
    {h : Handle} (hh : c.handle? d.id = some h) :
    c.isTokenCancelled d.token = true ↔
      h.reason.isSome = true ∨ .op (.cancelToken d.token) ∈ past := by
  have hl := hr.tended.lineage
  constructor
  · intro hcancelled
    cases hreason : h.reason with
    | some reason => exact .inl rfl
    | none =>
        -- Without a reason only the token itself can have been cancelled.
        have hstruck := (hl.isTokenCancelled hd).mp hcancelled
        exact .inr (hr.tended.accounted.bare d hd h hh hreason hstruck)
  · rintro (hreason | hstruck)
    · rcases hl.handle? hd with ⟨h', hh', htoken⟩
      obtain rfl := Option.some.inj (hh.symm.trans hh')
      exact htoken ▸ (hr.sound.held d.id h hh).reason hreason
    · exact hr.struck d.token hstruck

/-- What a handle answers in any state of an orderly run, whatever its clones and its
    tokens have been used for. The reason and the error are there together, and a
    request to cancel it is successful exactly if they are not. The handle also counts as
    cancelled if its token was. So its answers agree, unless somebody has cancelled its
    token and it has no reason yet. -/
theorem answers_agree_unless_token_cancelled (past : List Step) (ho : Orderly {} past) :
    let c := steps {} past
    ∀ d ∈ derivations {} past, ∃ answer, c.state? d.id = some answer ∧
      answer.cancelled = c.isCancelled d.id ∧ answer.reason = c.reason? d.id ∧
      answer.error.isSome = answer.reason.isSome ∧
      ((c.cancel d.id).1 = true ↔ answer.reason = none) ∧
      (answer.cancelled = true ↔
        answer.reason.isSome = true ∨ .op (.cancelToken d.token) ∈ past) ∧
      ((answer.cancelled = answer.reason.isSome ∧ (c.cancel d.id).1 = !answer.cancelled) ↔
        ¬(answer.reason = none ∧ .op (.cancelToken d.token) ∈ past)) := by
  intro c d hd
  have hr : Recorded past c (derivations {} past) := recorded past ho
  have hl := hr.tended.lineage
  rcases hl.handle? hd with ⟨h, hh, htoken⟩
  have hcancelled := hr.cancelled_iff hd hh
  have hcancel := cancel_fst hh
  refine ⟨⟨d.id, c.isTokenCancelled d.token, h.reason⟩, ?_, (hl.isCancelled hd).symm, ?_, ?_,
    hcancel, hcancelled, ?_⟩
  · rw [state?, hh, Option.map_some, htoken]
  · rw [reason?, hh, Option.bind_some]
  · exact Option.isSome_map
  · -- With a reason all is settled; without one it is the token that decides.
    dsimp only
    cases hreason : h.reason with
    | some reason =>
        have hnow : c.isTokenCancelled d.token = true :=
          hcancelled.mpr (.inl (by rw [hreason]; rfl))
        have hlate : (c.cancel d.id).1 = false := by
          rw [Bool.eq_false_iff, ne_eq, hcancel, hreason]
          exact fun h => absurd h (by simp)
        simp [hnow, hlate]
    | none =>
        have hfirst : (c.cancel d.id).1 = true := hcancel.mpr hreason
        rw [hreason, Option.isSome_none] at hcancelled
        have htold : c.isTokenCancelled d.token = true ↔ .op (.cancelToken d.token) ∈ past :=
          hcancelled.trans (or_iff_right Bool.false_ne_true)
        rw [hfirst, ← htold]
        cases c.isTokenCancelled d.token <;> simp

/-- A handle whose token was cancelled says so, but has no reason, and a request to
    cancel it is successful. -/
theorem token_cancelled_without_reason :
    let past : List Step := [.op (.makeToken none), .op (.derive 0 none), .op (.cancelToken 1)]
    let c := steps {} past
    Orderly {} past ∧ ∃ answer, c.state? 1 = some answer ∧ answer.cancelled = true ∧
      answer.reason = none ∧ answer.error.isSome = false ∧ (c.cancel 1).1 = true := by
  intro past c
  have ho : Orderly {} past := by decide
  have hds : derivations {} past = [⟨1, 1, 0, none, 0⟩] := by decide
  have hreason : c.reason? 1 = none := by decide
  rcases answers_agree_unless_token_cancelled past ho ⟨1, 1, 0, none, 0⟩
      (hds ▸ List.mem_singleton.mpr rfl) with
    ⟨answer, hstate, _, hsame, herror, hcancel, hcancelled, _⟩
  have hnone : answer.reason = none := hsame.trans hreason
  refine ⟨ho, answer, hstate, hcancelled.mpr (.inr ?_), hnone, ?_, hcancel.mpr hnone⟩
  · exact List.mem_cons_of_mem _ (List.mem_cons_of_mem _ List.mem_cons_self)
  · rw [herror, hnone]
    rfl

end Coordinator

end ChainSync
