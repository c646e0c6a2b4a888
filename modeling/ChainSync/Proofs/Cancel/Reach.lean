import ChainSync.Proofs.Cancel.Record

/-!
# What a Cancellation Reaches

A cancellation reaches the handles below it, and no other ones.

Two settled states are compared, the one before a handle is called off and the one
after it (`Between`). Nothing else happened in between, so a reason that is new can
only be that of a parent. The chain of parents is followed downwards in one
direction, by induction on `Descends`, and upwards in the other, where the numbers
of the tokens decrease.

A wait never takes longer than thirty years, and it begins when the watcher runs for the
first time. So a timeout is not always over when it should be by the time of the
derivation, but earlier or later (`timeouts_are_not_exact`). What counts is the shorter of
the timeout and thirty years, from the first turn on.

## Main definitions

* `Coordinator.Descends`: A token whose chain of parents leads to another one.
* `Coordinator.CallsOff`: The two ways of calling off a handle.
* `Coordinator.Between`: What lies between two settled states.

## Theorems

* `Coordinator.Between.newly`: Why others are cancelled along.
* `Coordinator.Between.isTokenCancelled_iff`: Which tokens are.
* `Coordinator.cancellation_reaches_descendants`: Settled states, and what one
  cancellation makes of them.
-/

namespace ChainSync

namespace Coordinator

variable {c c' : Coordinator} {past : List Step} {first : Nat → Option Nat} {ds : List Derivation}

/-! ## One cancellation -/

/-- A token whose chain of parents leads to another one. The parent of a handle's
    token is the token the handle was derived below. -/
inductive Descends (c : Coordinator) (ds : List Derivation) (top : Nat) : Nat → Prop where
  | refl : c.Descends ds top top
  | child {t p : Nat} {token : Token} (ht : c.forest.tokens[t]? = some token)
      (hp : token.parent = some p) (h : c.Descends ds top p) : c.Descends ds top t
  | derived {d : Derivation} (hd : d ∈ ds) (h : c.Descends ds top d.parent) :
      c.Descends ds top d.token

theorem Descends.le (hl : c.Lineage first ds) {top t : Nat} (h : c.Descends ds top t) :
    top ≤ t := by
  induction h with
  | refl => exact Nat.le_refl _
  | child ht hp _ ih =>
      have hlt := hl.ordered _ _ _ ht hp
      omega
  | derived hd _ ih =>
      have hlt := hl.above _ hd
      omega

/-- The chain of a handle's token goes on from the token above the handle. -/
theorem Descends.parent (hl : c.Lineage first ds) {d : Derivation} (hd : d ∈ ds) {top : Nat}
    (h : c.Descends ds top d.token) (hne : top ≠ d.token) : c.Descends ds top d.parent := by
  generalize ht : d.token = t at h hne
  cases h with
  | refl => exact absurd rfl hne
  | child hget hp _ =>
      rcases hl.root d hd with ⟨token, hroot, hnone⟩
      rw [ht, hget] at hroot
      rw [Option.some.inj hroot, hnone] at hp
      exact absurd hp (by simp only [reduceCtorEq, not_false_eq_true])
  | derived hx h => exact hl.eq_of_token hd hx ht ▸ h

/-- The clock, the latch and the clones of other handles are left alone, and no
    token is made. -/
structure Aside (id : Nat) (c c' : Coordinator) : Prop where
  tokens : c'.forest.tokens.length = c.forest.tokens.length
  now : c'.now = c.now
  fired : c'.fired = c.fired
  live : ∀ j, j ≠ id → c'.isLive j = c.isLive j

namespace Aside

variable {c'' : Coordinator} {id : Nat}

theorem trans (h : Aside id c c') (h' : Aside id c' c'') : Aside id c c'' :=
  ⟨h'.tokens.trans h.tokens, h'.now.trans h.now, h'.fired.trans h.fired,
    fun j hj => (h'.live j hj).trans (h.live j hj)⟩

theorem of_eq (hforest : c'.forest = c.forest) (hhandles : c'.handles = c.handles)
    (hnow : c'.now = c.now) (hfired : c'.fired = c.fired) : Aside id c c' := by
  refine ⟨by rw [hforest], hnow, hfired, fun j _ => ?_⟩
  rw [isLive, handle?, hhandles]
  rfl

theorem cancelWith (c : Coordinator) (id j : Nat) (reason : CancelReason) :
    Aside id c (c.cancelWith j reason).2 := by
  refine ⟨length_tokens_cancelWith .., now_cancelWith .., fired_cancelWith .., fun k _ => ?_⟩
  rw [isLive, isLive, handle?_cancelWith, Option.map_map]
  congr 2
  funext h
  rw [Function.comp_apply]
  split <;> rfl

theorem drop (c : Coordinator) (id : Nat) : Aside id c (c.drop id) := by
  have hdropped : Aside id c (c.dropped id) := by
    refine ⟨rfl, rfl, rfl, fun j hj => ?_⟩
    rw [isLive, dropped, handle?_modifyHandle]
    · simp only [if_neg hj, Option.map_id']
      rfl
    · exact fun _ => rfl
  rw [drop_eq]
  split
  · exact hdropped.trans (cancelWith ..)
  · exact hdropped

theorem takeTurn (c : Coordinator) (id j : Nat) : Aside id c (c.takeTurn j) := by
  rcases c.takeTurn_cases j with ⟨heq, _⟩ | ⟨w, _, _, heq⟩ | ⟨w, reason, _, _, heq⟩
  · rw [heq]
    exact of_eq rfl rfl rfl rfl
  · rw [heq]
    exact of_eq rfl rfl rfl rfl
  · rw [heq]
    refine trans ?_ (cancelWith ..)
    exact of_eq rfl rfl rfl rfl

theorem turns (c : Coordinator) (id : Nat) (ids : List Nat) :
    Aside id c (c.steps (ids.map .watcher)) := by
  induction ids generalizing c with
  | nil => exact of_eq rfl rfl rfl rfl
  | cons j ids ih => exact (takeTurn c id j).trans (ih (c.takeTurn j))

end Aside

/-- The two settled states a cancellation lies between. Since the first one nobody
    has done anything but call off one handle, and watchers have had their turns. -/
structure Between (past past' : List Step) (c c' : Coordinator) (ds : List Derivation)
    (id : Nat) : Prop where
  before : Recorded past c ds
  after : Recorded past' c' ds
  settled : c.woken = []
  settled' : c'.woken = []
  grows : c.Grows c'
  first : ∀ id t, firstTurn {} past id = some t → firstTurn {} past' id = some t
  aside : Aside id c c'
  steps : ∀ s ∈ past', s ∈ past ∨ s = .op (.cancel id) ∨ s = .op (.drop id) ∨ ∃ j, s = .watcher j

namespace Between

variable {past' : List Step} {id : Nat}

/-- A handle that was not cancelled before, and is now, is so on account of the
    token above it. -/
theorem newly (hb : Between past past' c c' ds id) {d : Derivation} (hd : d ∈ ds)
    (hother : d.id ≠ id) (hnot : c.isTokenCancelled d.token = false)
    (hnow : c'.isTokenCancelled d.token = true) :
    c.isLive d.id = true ∧ c'.state? d.id = some ⟨d.id, true, some .parentCancelled⟩ ∧
      c'.isTokenCancelled d.parent = true := by
  have hunless {p : Prop} (hp : p → c.isTokenCancelled d.token = true) : ¬p :=
    fun h => Bool.false_ne_true (hnot.symm.trans (hp h))
  rcases hb.before.tended.lineage.handle? hd with ⟨h, hh, htoken⟩
  rcases hb.after.tended.lineage.handle? hd with ⟨h', hh', htoken'⟩
  have hheld := hb.before.sound.held d.id h hh
  have hlive : c.isLive d.id = true := by
    cases hdead : h.isLive with
    | true => simpa [isLive, hh] using hdead
    | false =>
        exact absurd hdead (hunless fun hdead => htoken ▸ hheld.reason (hheld.released hdead))
  have hstruck := (hb.after.tended.lineage.isTokenCancelled hd).mp hnow
  -- Every other reason would have been one before, when the handle was not cancelled.
  have hreason : h'.reason = some .parentCancelled ∧ c'.isTokenCancelled d.parent = true := by
    cases hr : h'.reason with
    | none =>
        have hmem := hb.after.tended.accounted.bare d hd h' hh' hr hstruck
        refine absurd ?_ (hunless (hb.before.struck d.token))
        simpa using hb.steps _ hmem
    | some r =>
        have hgrounds := hb.after.tended.accounted.reason d hd h' hh' r hr
        cases r with
        | parentCancelled => exact ⟨rfl, hgrounds⟩
        | shutdown =>
            have hfired : c.fired = true := hb.aside.fired ▸ hgrounds
            exact absurd hfired (hunless fun hfired => htoken ▸ hheld.latched hfired)
        | deadlineExceeded =>
            rcases hgrounds with ⟨u, hu, hle⟩
            -- The time has been counted since a turn that came before the cancellation.
            rcases hb.before.tended.begun hb.settled hd hnot with ⟨t, ht⟩
            rw [Derivation.deadline, hb.first d.id t ht, ← ht] at hu
            exact absurd ⟨u, hu, hb.aside.now ▸ hle⟩ (hunless fun hdue =>
              hb.before.tended.cancelled_of_cause hb.settled hd (.inr hdue))
        | requested =>
            have hmem : .op (.cancel d.id) ∈ past := by simpa [hother] using hb.steps _ hgrounds
            exact absurd hmem (hunless fun hmem =>
              hb.before.tended.lineage.isCancelled hd ▸ hb.before.asked d.id hmem)
        | released =>
            have hdead : h'.isLive = false := hgrounds
            have hsame := hb.aside.live d.id hother
            rw [hlive] at hsame
            simp [isLive, hh', hdead] at hsame
  refine ⟨hlive, ?_, hreason.2⟩
  simp only [state?, hh', Option.map_some, htoken', hnow, hreason.1]

/-- What lies below the token of the handle, and nothing else, is cancelled in
    addition. -/
theorem isTokenCancelled_iff (hb : Between past past' c c' ds id) {d : Derivation} (hd : d ∈ ds)
    (hid : d.id = id) (hdone : c'.isTokenCancelled d.token = true) (t : Nat) :
    c'.isTokenCancelled t = true ↔
      c.isTokenCancelled t = true ∨ c.Descends ds d.token t := by
  have hordered := hb.after.tended.lineage.ordered
  constructor
  · induction t using Nat.strongRecOn with
    | ind t ih =>
        intro hnow
        cases hbefore : c.isTokenCancelled t with
        | true => exact .inl rfl
        | false =>
            refine .inr ?_
            rcases Forest.struck_or_parent hordered hnow with hstruck | ⟨token, p, ht, hp, hup⟩
            · -- Tokens nobody cancelled before are those of handles.
              rcases hb.after.tended.accounted.plain t hstruck with ⟨x, hx, rfl⟩ | hmem
              · by_cases hother : x.id = id
                · rw [hb.before.tended.lineage.eq_of_id hx hd (hother.trans hid.symm)]
                  exact .refl
                · have hup := (hb.newly hx hother hbefore hnow).2.2
                  have hlt := hb.before.tended.lineage.above x hx
                  rcases ih x.parent hlt hup with hup | hup
                  · have hcancelled :=
                      hb.before.tended.cancelled_of_cause hb.settled hx (.inl hup)
                    exact absurd (hbefore.symm.trans hcancelled) Bool.false_ne_true
                  · exact .derived hx hup
              · have hmem : .op (.cancelToken t) ∈ past := by simpa using hb.steps _ hmem
                exact absurd (hbefore.symm.trans (hb.before.struck t hmem)) Bool.false_ne_true
            · -- The token has the same parent before.
              have hlt : t < c.forest.tokens.length :=
                hb.aside.tokens ▸ (List.getElem?_eq_some_iff.mp ht).1
              have hget := List.getElem?_eq_getElem hlt
              rcases hb.grows.forest t _ hget with ⟨token', ht', hparent, _⟩
              rw [ht] at ht'
              rw [← Option.some.inj ht', hp] at hparent
              rcases ih p (hordered t p token ht hp) hup with hup | hup
              · have hcancelled := Forest.isCancelled_child hb.before.tended.lineage.ordered hget
                  hparent.symm hup
                exact absurd (hbefore.symm.trans hcancelled) Bool.false_ne_true
              · exact .child hget hparent.symm hup
  · -- Conversely, nothing recovers, and what lies below is cancelled along.
    rintro (hbefore | hdescends)
    · exact hb.grows.isTokenCancelled hbefore
    · induction hdescends with
      | refl => exact hdone
      | child ht hp _ ih =>
          rcases hb.grows.forest _ _ ht with ⟨token', ht', hparent, _⟩
          exact Forest.isCancelled_child hordered ht' (hparent.trans hp) ih
      | derived hx _ ih => exact hb.after.tended.cancelled_of_cause hb.settled' hx (.inl ih)

end Between

/-- The two ways of calling off a handle: it is asked to stop, or its last clone is
    given up. -/
inductive CallsOff (c : Coordinator) (id : Nat) : Op → CancelReason → Prop where
  | cancel (hlive : c.isLive id = true) : c.CallsOff id (.cancel id) .requested
  | drop (hlast : (c.handle? id).any (·.clones = 1) = true) : c.CallsOff id (.drop id) .released

namespace CallsOff

variable {id : Nat} {op : Op} {r : CancelReason}

theorem possible (h : c.CallsOff id op r) : op.Possible c := by
  cases h with
  | cancel hlive => exact hlive
  | drop hlast =>
      change c.isLive id = true
      cases hh : c.handle? id with
      | none => simp [hh] at hlast
      | some handle =>
          have hone : handle.clones = 1 := by simpa [hh] using hlast
          simp [isLive, hh, Handle.isLive, hone]

/-- The handle is cancelled, for that reason unless it had one. -/
theorem handle? (h : c.CallsOff id op r) (hs : c.Sound) {handle : Handle}
    (hh : c.handle? id = some handle) :
    (c.apply op).isTokenCancelled handle.token = true ∧
      ∃ handle', (c.apply op).handle? id = some handle' ∧ handle'.token = handle.token ∧
        handle'.reason = handle.reason.or (some r) := by
  have htoken := (hs.held id handle hh).token
  cases h with
  | cancel _ =>
      refine ⟨isTokenCancelled_cancelWith .requested hh htoken, ?_⟩
      refine ⟨{ handle with reason := handle.reason.or (some .requested) }, ?_, rfl, rfl⟩
      rw [apply, Coordinator.cancel, handle?_cancelWith, hh, Option.map_some, if_pos rfl]
  | drop hlast =>
      have hone : handle.clones = 1 := by simpa [hh] using hlast
      have hgone : (c.dropped id).handle? id = some { handle with clones := 0 } := by
        rw [dropped, handle?_modifyHandle]
        · simp [hh, hone]
        · exact fun _ => rfl
      have heq : c.apply (.drop id) = ((c.dropped id).cancelWith id .released).2 := by
        rw [apply, drop_eq, if_pos (by simp [hgone])]
      have hstruck := isTokenCancelled_cancelWith .released hgone htoken
      rw [heq]
      refine ⟨hstruck, { handle with
        clones := 0, reason := handle.reason.or (some .released) }, ?_, rfl, rfl⟩
      rw [handle?_cancelWith, hgone, Option.map_some, if_pos rfl]

theorem between (h : c.CallsOff id op r) (hr : Recorded past c ds) (hw : c.woken = [])
    {ids : List Nat} (ho : (c.apply op).Orderly (ids.map .watcher))
    (hw' : ((c.apply op).steps (ids.map .watcher)).woken = []) :
    Between past (past ++ .op op :: ids.map .watcher) c
      ((c.apply op).steps (ids.map .watcher)) ds id := by
  have hnone : c.derivations (.op op :: ids.map .watcher) = [] := by
    rw [derivations, derivations_turns, List.append_nil]
    cases h <;> rfl
  have hall : c.Orderly (.op op :: ids.map .watcher) := ⟨h.possible, ho⟩
  have hafter := hr.steps hall
  rw [hnone, List.append_nil] at hafter
  have haside : Aside id c (c.apply op) := by
    cases h with
    | cancel _ => exact .cancelWith ..
    | drop _ => exact .drop ..
  refine ⟨hr, hafter, hw, hw', ?_, fun j t ht => ?_, haside.trans (.turns ..), fun s hs => ?_⟩
  · exact grows_steps c (.op op :: ids.map .watcher)
  · rw [firstTurn_append, ht, Option.some_or]
  · rcases List.mem_append.mp hs with hs | hs
    · exact .inl hs
    · rcases List.mem_cons.mp hs with rfl | hs
      · cases h <;> simp
      · rcases List.mem_map.mp hs with ⟨j, _, rfl⟩
        exact .inr (.inr (.inr ⟨j, rfl⟩))

end CallsOff

/-- In every settled state a handle in use is cancelled exactly if there was a
    shutdown, somebody asked for it, somebody cancelled its token, the token above it
    is cancelled, or its time is up. Its time counts from the first turn of its watcher,
    which does not come before the handle is derived, and in a settled state has come for
    every handle that is not cancelled. So if one handle is called off and everybody
    woken has had a turn, then what descends from the handle is cancelled in addition,
    on account of its parent, and nothing else is, neither above it nor beside it.
    Turns come to an end. -/
theorem cancellation_reaches_descendants (past : List Step) (ho : Orderly {} past) :
    let c := steps {} past
    let ds := derivations {} past
    (∀ ids : List Nat, c.Orderly (ids.map .watcher) → ids.length ≤ c.turns) ∧
    (∃ ids : List Nat, c.Orderly (ids.map .watcher) ∧ c.settle.2 = c.steps (ids.map .watcher) ∧
      c.settle.2.woken = []) ∧
    c.handles.map (fun h => (h.id, h.token)) = ds.map (fun d => (d.id, d.token)) ∧
    (c.woken = [] →
      (∀ d ∈ ds, c.isLive d.id = true →
        (c.isCancelled d.id = true ↔
          c.fired = true ∨ .op (.cancel d.id) ∈ past ∨ .op (.cancelToken d.token) ∈ past ∨
          c.isTokenCancelled d.parent = true ∨
          ∃ ms ∈ d.timeout, ∃ t ∈ firstTurn {} past d.id, t + min ms longestWait ≤ c.now)) ∧
      (∀ d ∈ ds, c.isCancelled d.id = false → ∃ t ∈ firstTurn {} past d.id, d.time ≤ t) ∧
      ∀ d ∈ ds, ∀ op r, c.CallsOff d.id op r → ∀ ids : List Nat,
        let c' := (c.apply op).steps (ids.map .watcher)
        (c.apply op).Orderly (ids.map .watcher) → c'.woken = [] →
        c'.isCancelled d.id = true ∧
        (c.isCancelled d.id = false → c'.state? d.id = some ⟨d.id, true, some r⟩) ∧
        ∀ x ∈ ds, x ≠ d →
          (c'.isCancelled x.id = true ↔
            c.isCancelled x.id = true ∨ c.Descends ds d.token x.token) ∧
          (c.isCancelled x.id = false → c'.isCancelled x.id = true →
            c.isLive x.id = true ∧ c'.state? x.id = some ⟨x.id, true, some .parentCancelled⟩) ∧
          (c.Descends ds x.token d.token ∨ x.parent = d.parent →
            c'.isCancelled x.id = c.isCancelled x.id)) := by
  intro c ds
  have hr : Recorded past c ds := recorded past ho
  have hl := hr.tended.lineage
  refine ⟨fun ids h => h.length_le_turns, c.settle_orderly, hl.handles, fun hw => ⟨?_, ?_, ?_⟩⟩
  · exact fun d hd hlive => hr.isCancelled_iff hw hd hlive
  · intro d hd hnot
    rcases hr.tended.begun hw hd (hl.isCancelled hd ▸ hnot) with ⟨t, ht⟩
    exact ⟨t, ht, hl.time_le hd ht⟩
  intro d hd op r hcalls ids c' ho' hw'
  have hb := hcalls.between hr hw ho' hw'
  have hl' := hb.after.tended.lineage
  rcases hl.handle? hd with ⟨h, hh, htoken⟩
  rcases hcalls.handle? hr.sound hh with ⟨hnow, h₁, hh₁, htoken₁, hreason₁⟩
  have hturns := grows_steps (c.apply op) (ids.map .watcher)
  have hdone : c'.isTokenCancelled d.token = true := htoken ▸ hturns.isTokenCancelled hnow
  refine ⟨(hl'.isCancelled hd).trans hdone, fun hnot => ?_, fun x hx hne => ?_⟩
  · -- A handle that is not cancelled has no reason yet, and it keeps the one it gets.
    rw [hl.isCancelled hd, ← htoken] at hnot
    have hnone : h.reason = none := by
      cases hreason : h.reason with
      | none => rfl
      | some r' =>
          have hcancelled := (hr.sound.held d.id h hh).reason (by rw [hreason]; rfl)
          exact absurd (hnot.symm.trans hcancelled) Bool.false_ne_true
    rw [hnone, Option.none_or] at hreason₁
    rcases hturns.handle d.id h₁ hh₁ with ⟨h₂, hh₂, htoken₂, hreason₂⟩
    have htoken' : h₂.token = d.token := (htoken₂.trans htoken₁).trans htoken
    have hh₂' : c'.handle? d.id = some h₂ := hh₂
    simp only [state?, hh₂', Option.map_some, htoken', hdone, hreason₂ r hreason₁]
  · have hother : x.id ≠ d.id := fun h => hne (hl.eq_of_id hx hd h)
    have hiff := hb.isTokenCancelled_iff hd rfl hdone x.token
    rw [hl.isCancelled hx, hl'.isCancelled hx]
    refine ⟨hiff, fun hnot hnow' => ?_, fun hbeside => ?_⟩
    · rcases hb.newly hx hother hnot hnow' with ⟨hlive, hstate, _⟩
      exact ⟨hlive, hstate⟩
    · -- What is above the handle or beside it does not descend from it.
      have hapart : ¬c.Descends ds d.token x.token := by
        intro hdescends
        rcases hbeside with habove | hsame
        · exact hne (hl.eq_of_token hx hd
            (Nat.le_antisymm (habove.le hl) (hdescends.le hl)))
        · have hup := hdescends.parent hl hx fun h => hne (hl.eq_of_token hx hd h.symm)
          have hle := hup.le hl
          have hlt := hl.above d hd
          omega
      rw [Bool.eq_iff_iff, hiff]
      exact or_iff_left hapart

/-- A handle below another one, directly or by way of a token, ends with it; one
    beside it goes on. -/
theorem children_are_cancelled_along :
    let past : List Step := [.op (.makeToken none), .op (.derive 0 none), .op (.derive 1 none),
      .op (.makeToken (some 1)), .op (.derive 3 none), .op (.derive 0 none),
      .watcher 1, .watcher 2, .watcher 3, .watcher 4]
    let c := steps {} past
    Orderly {} past ∧ c.woken = [] ∧
      (c.cancel 1).2.settle.2.state? 2 = some ⟨2, true, some .parentCancelled⟩ ∧
      (c.cancel 1).2.settle.2.state? 3 = some ⟨3, true, some .parentCancelled⟩ ∧
      (c.cancel 1).2.settle.2.isCancelled 4 = false := by
  intro past c
  have ho : Orderly {} past := by decide
  have hw : c.woken = [] := by decide
  let first : Derivation := ⟨1, 1, 0, none, 0⟩
  let second : Derivation := ⟨2, 2, 1, none, 0⟩
  let third : Derivation := ⟨3, 4, 3, none, 0⟩
  let fourth : Derivation := ⟨4, 5, 0, none, 0⟩
  have hds : derivations {} past = [first, second, third, fourth] := by decide
  rcases (c.cancel 1).2.settle_orderly with ⟨ids, horderly, heq, hnone⟩
  rw [heq] at hnone ⊢
  rcases (cancellation_reaches_descendants past ho).2.2.2 hw with ⟨_, _, hreach⟩
  rw [hds] at hreach
  rcases hreach first (by decide) (.cancel 1) .requested (.cancel (by decide)) ids horderly hnone
    with ⟨_, _, hothers⟩
  have htop : c.Descends [first, second, third, fourth] 1 1 := .refl
  refine ⟨ho, hw, ?_, ?_, ?_⟩
  · rcases hothers second (by decide) (by decide) with ⟨hiff, hnew, _⟩
    have hdown : c.Descends [first, second, third, fourth] 1 2 :=
      .derived (d := second) (by decide) htop
    exact (hnew (by decide) (hiff.mpr (.inr hdown))).2
  · rcases hothers third (by decide) (by decide) with ⟨hiff, hnew, _⟩
    have hget : c.forest.tokens[3]? = some ⟨some 1, false⟩ := by decide
    have hdown : c.Descends [first, second, third, fourth] 1 4 :=
      .derived (d := third) (by decide) (.child hget rfl htop)
    exact (hnew (by decide) (hiff.mpr (.inr hdown))).2
  · rcases hothers fourth (by decide) (by decide) with ⟨_, _, hbeside⟩
    exact (hbeside (.inr rfl)).trans (by decide)

/-- The end of a timeout cannot be told from the derivation. A handle with a timeout of a
    millisecond more than thirty years is cancelled after thirty years, when that time is
    not up yet. And a handle whose watcher has its first turn after ten milliseconds, with a
    timeout of ten milliseconds, is not cancelled then, when that time is up. -/
theorem timeouts_are_not_exact :
    let long : List Step := [.op (.makeToken none), .op (.derive 0 (some 946080000001)),
      .watcher 1, .op (.moveTo 946080000000), .watcher 1]
    let late : List Step := [.op (.makeToken none), .op (.derive 0 (some 10)), .op (.moveTo 10),
      .watcher 1]
    let due (past : List Step) (d : Derivation) : Prop :=
      let c := steps {} past
      c.fired = true ∨ .op (.cancel d.id) ∈ past ∨ .op (.cancelToken d.token) ∈ past ∨
        c.isTokenCancelled d.parent = true ∨ ∃ ms ∈ d.timeout, d.time + ms ≤ c.now
    (Orderly {} long ∧ (steps {} long).woken = [] ∧ ∃ d ∈ derivations {} long,
      (steps {} long).isLive d.id = true ∧ (steps {} long).isCancelled d.id = true ∧
        ¬due long d) ∧
    (Orderly {} late ∧ (steps {} late).woken = [] ∧ ∃ d ∈ derivations {} late,
      (steps {} late).isLive d.id = true ∧ (steps {} late).isCancelled d.id = false ∧
        due late d) := by
  intro long late due
  constructor
  · have hds : derivations {} long = [⟨1, 1, 0, some 946080000001, 0⟩] := by decide
    refine ⟨by decide +kernel, by decide +kernel, ⟨1, 1, 0, some 946080000001, 0⟩, ?_,
      by decide +kernel, by decide +kernel, ?_⟩
    · rw [hds]
      exact List.mem_singleton.mpr rfl
    · have hfired : (steps {} long).fired = false := by decide +kernel
      have hparent : (steps {} long).isTokenCancelled 0 = false := by decide +kernel
      have hnow : (steps {} long).now = 946080000000 := by decide +kernel
      simp only [due, hfired, hparent, hnow]
      simp [long]
  · have hds : derivations {} late = [⟨1, 1, 0, some 10, 0⟩] := by decide
    refine ⟨by decide +kernel, by decide +kernel, ⟨1, 1, 0, some 10, 0⟩, ?_, by decide +kernel,
      by decide +kernel, ?_⟩
    · rw [hds]
      exact List.mem_singleton.mpr rfl
    · exact .inr (.inr (.inr (.inr ⟨10, rfl, by decide +kernel⟩)))

end Coordinator

end ChainSync
