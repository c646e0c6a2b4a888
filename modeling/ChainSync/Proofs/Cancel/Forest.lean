import ChainSync.Cancel.Forest

/-!
# Cancelled Tokens

What the operations of a forest do to the tokens that count as cancelled.

Whether a token counts as cancelled is found out by climbing from it. So the
facts are shown of `cancelledWithin`, by induction on the number of steps that
may be climbed, and carried over to `isCancelled` at the end.

`Below` is the chain of tokens that is climbed. Cancelling a token reaches no
chain that does not pass through it, which is why nothing above it and nothing
beside it is touched.

A climb has as many steps as the number of its token allows. That is enough if
parents have smaller numbers than their children, which `Ordered` says. Then
the climb can be forgotten: a token counts as cancelled exactly if it is at or
below one that has been cancelled itself.

## Main definitions

* `Forest.Below`: A token at or below another one.
* `Forest.Grows`: A forest that comes later.
* `Forest.Struck`: A token that has been cancelled itself.
* `Forest.Ordered`, `Forest.Root`: Where parents are.

## Theorems

* `Forest.Grows.isCancelled`: No cancelled token recovers.
* `Forest.isCancelled_cancel_self`: A token that is cancelled counts as it.
* `Forest.below_of_isCancelled_cancel`: A token is cancelled along with others
  only if it is below them.
* `Forest.isCancelled_iff`: The tokens that count as cancelled.
* `Forest.isCancelled_make`: A new token changes nothing for the others.
-/

namespace ChainSync

namespace Forest

/-- A token at or below another one. -/
inductive Below (f : Forest) (top : Nat) : Nat → Prop where
  | refl : f.Below top top
  | step {t p : Nat} {token : Token} (ht : f.tokens[t]? = some token) (hp : token.parent = some p)
      (h : f.Below top p) : f.Below top t

/-- A forest that comes later: it has all tokens of the earlier one in their
    places, and those that had been cancelled still are. -/
def Grows (f f' : Forest) : Prop :=
  ∀ (t : Nat) (token : Token), f.tokens[t]? = some token →
    ∃ token' : Token, f'.tokens[t]? = some token' ∧ token'.parent = token.parent ∧
      (token.cancelled = true → token'.cancelled = true)

namespace Grows

variable {f f' f'' : Forest}

theorem refl (f : Forest) : f.Grows f := fun _ token h => ⟨token, h, rfl, id⟩

theorem trans (h : f.Grows f') (h' : f'.Grows f'') : f.Grows f'' := by
  intro t token ht
  rcases h t token ht with ⟨token₁, ht₁, hparent₁, hcancelled₁⟩
  rcases h' t token₁ ht₁ with ⟨token₂, ht₂, hparent₂, hcancelled₂⟩
  exact ⟨token₂, ht₂, hparent₂.trans hparent₁, hcancelled₂ ∘ hcancelled₁⟩

theorem cancelledWithin (h : f.Grows f') (steps t : Nat) (hc : f.cancelledWithin steps t = true) :
    f'.cancelledWithin steps t = true := by
  induction steps generalizing t with
  | zero => exact hc
  | succ steps ih =>
      cases ht : f.tokens[t]? with
      | none =>
          simp only [Forest.cancelledWithin, ht, Bool.false_eq_true] at hc
      | some token =>
          rcases h t token ht with ⟨token', ht', hparent, hcancelled⟩
          simp only [Forest.cancelledWithin, ht, Bool.or_eq_true] at hc
          simp only [Forest.cancelledWithin, ht', hparent, Bool.or_eq_true]
          -- Cancelled itself it stays so; else the climb goes on from the same parent.
          refine hc.imp hcancelled fun hup => ?_
          cases hp : token.parent with
          | none => simp [hp] at hup
          | some p =>
              simp only [hp, Option.map_some, Option.getD_some] at hup ⊢
              exact ih p hup

theorem isCancelled (h : f.Grows f') {t : Nat} (hc : f.isCancelled t = true) :
    f'.isCancelled t = true := h.cancelledWithin (t + 1) t hc

theorem length_le (h : f.Grows f') : f.tokens.length ≤ f'.tokens.length := by
  cases hlen : f.tokens.length with
  | zero => exact Nat.zero_le _
  | succ n =>
      have hn : n < f.tokens.length := by omega
      rcases h n _ (List.getElem?_eq_getElem hn) with ⟨token', ht', _⟩
      exact (List.getElem?_eq_some_iff.mp ht').1

end Grows

theorem grows_make (f : Forest) (parent : Option Nat) : f.Grows (f.make parent).2 := by
  intro t token ht
  refine ⟨token, ?_, rfl, id⟩
  rw [make, List.getElem?_append_left (List.getElem?_eq_some_iff.mp ht).1]
  exact ht

/-- The token at a place, after one has been cancelled. -/
theorem tokens_cancel (f : Forest) (top t : Nat) : (f.cancel top).tokens[t]? =
    f.tokens[t]?.map fun token => if top = t then { token with cancelled := true } else token := by
  rw [cancel, List.getElem?_modify]
  rfl

theorem grows_cancel (f : Forest) (top : Nat) : f.Grows (f.cancel top) := by
  intro t token ht
  by_cases htop : top = t
  · exact ⟨{ token with cancelled := true }, by simp [tokens_cancel, ht, htop], rfl, fun _ => rfl⟩
  · exact ⟨token, by simp [tokens_cancel, ht, htop], rfl, id⟩

theorem isCancelled_cancel_self (f : Forest) {t : Nat} (ht : t < f.tokens.length) :
    (f.cancel t).isCancelled t = true := by
  have hget : (f.cancel t).tokens[t]? = some { f.tokens[t] with cancelled := true } := by
    rw [tokens_cancel, List.getElem?_eq_getElem ht, Option.map_some, if_pos rfl]
  simp only [isCancelled, Forest.cancelledWithin, hget, Bool.true_or]

theorem below_of_cancelledWithin_cancel (f : Forest) (top steps t : Nat)
    (h : (f.cancel top).cancelledWithin steps t = true)
    (hnot : f.cancelledWithin steps t = false) : f.Below top t := by
  induction steps generalizing t with
  | zero => exact absurd h (by simp only [Forest.cancelledWithin, reduceCtorEq, not_false_eq_true])
  | succ steps ih =>
      -- The climb either meets the cancelled token here or reads the token as it was.
      by_cases htop : top = t
      · exact htop ▸ Below.refl
      have hsame : (f.cancel top).tokens[t]? = f.tokens[t]? := by
        simp only [tokens_cancel, if_neg htop, Option.map_id']
      cases ht : f.tokens[t]? with
      | none =>
          simp only [Forest.cancelledWithin, hsame, ht, Bool.false_eq_true] at h
      | some token =>
          simp only [Forest.cancelledWithin, hsame, ht, Bool.or_eq_true] at h
          simp only [Forest.cancelledWithin, ht, Bool.or_eq_false_iff] at hnot
          -- The token has not been cancelled itself, so one above it has been.
          rcases h with h | h
          · rw [hnot.1] at h
            exact absurd h (by decide)
          · cases hp : token.parent with
            | none => simp [hp] at h
            | some p =>
                simp only [hp, Option.map_some, Option.getD_some] at h hnot
                exact Below.step ht hp (ih p h hnot.2)

theorem below_of_isCancelled_cancel (f : Forest) {top t : Nat}
    (h : (f.cancel top).isCancelled t = true) (hnot : f.isCancelled t = false) :
    f.Below top t := f.below_of_cancelledWithin_cancel top (t + 1) t h hnot

/-- Cancelling a token puts nothing below another one. -/
theorem Below.of_cancel {f : Forest} {top s t : Nat} (h : (f.cancel s).Below top t) :
    f.Below top t := by
  induction h with
  | refl => exact .refl
  | @step t p token ht hp _ ih =>
      rw [tokens_cancel] at ht
      rcases Option.map_eq_some_iff.mp ht with ⟨old, hold, hnew⟩
      have hparent : old.parent = token.parent := by
        rw [← hnew]
        split <;> rfl
      exact .step hold (hparent.trans hp) ih

/-! ## Without the climb -/

/-- A token has been cancelled itself. -/
def Struck (f : Forest) (t : Nat) : Prop :=
  ∃ token : Token, f.tokens[t]? = some token ∧ token.cancelled = true

/-- Parents have smaller numbers than their children. -/
def Ordered (f : Forest) : Prop :=
  ∀ (t p : Nat) (token : Token), f.tokens[t]? = some token → token.parent = some p → p < t

/-- A token that is below no other one. -/
def Root (f : Forest) (t : Nat) : Prop :=
  ∃ token : Token, f.tokens[t]? = some token ∧ token.parent = none

variable {f : Forest}

theorem Struck.lt {t : Nat} (h : f.Struck t) : t < f.tokens.length := by
  rcases h with ⟨token, ht, _⟩
  exact (List.getElem?_eq_some_iff.mp ht).1

theorem Root.lt {t : Nat} (h : f.Root t) : t < f.tokens.length := by
  rcases h with ⟨token, ht, _⟩
  exact (List.getElem?_eq_some_iff.mp ht).1

theorem Below.le (hf : f.Ordered) {top t : Nat} (h : f.Below top t) : top ≤ t := by
  induction h with
  | refl => exact Nat.le_refl top
  | @step t p token ht hp _ ih => exact Nat.le_trans ih (Nat.le_of_lt (hf t p token ht hp))

theorem Below.eq_of_root {top t : Nat} (ht : f.Root t) (h : f.Below top t) : top = t := by
  cases h with
  | refl => rfl
  | step ht' hp _ =>
      rcases ht with ⟨token, ht, hnone⟩
      rw [ht] at ht'
      rw [← Option.some.inj ht', hnone] at hp
      exact absurd hp (by simp only [reduceCtorEq, not_false_eq_true])

theorem cancelledWithin_iff (hf : f.Ordered) (steps t : Nat) (hsteps : t < steps) :
    f.cancelledWithin steps t = true ↔ ∃ r, f.Struck r ∧ f.Below r t := by
  induction steps generalizing t with
  | zero => exact absurd hsteps (Nat.not_lt_zero t)
  | succ steps ih =>
      cases ht : f.tokens[t]? with
      | none =>
          simp only [Forest.cancelledWithin, ht, Bool.false_eq_true, false_iff, not_exists, not_and]
          -- Nothing is below a token that is not there.
          rintro r ⟨token, hr, _⟩ hbelow
          cases hbelow with
          | refl => simp [ht] at hr
          | step ht' _ _ => simp [ht] at ht'
      | some token =>
          simp only [Forest.cancelledWithin, ht, Bool.or_eq_true]
          constructor
          · rintro (hself | hup)
            · exact ⟨t, ⟨token, ht, hself⟩, .refl⟩
            · -- The climb has met it further up, in one step less.
              cases hp : token.parent with
              | none => simp [hp] at hup
              | some p =>
                  simp only [hp, Option.map_some, Option.getD_some] at hup
                  have hlt := hf t p token ht hp
                  rcases (ih p (by omega)).mp hup with ⟨r, hr, hbelow⟩
                  exact ⟨r, hr, .step ht hp hbelow⟩
          · rintro ⟨r, hr, hbelow⟩
            cases hbelow with
            | refl =>
                -- It is the token itself that has been cancelled.
                rcases hr with ⟨token', hr, hself⟩
                rw [ht] at hr
                exact .inl (Option.some.inj hr ▸ hself)
            | @step _ p token' ht' hp hbelow =>
                rw [ht] at ht'
                rw [← Option.some.inj ht'] at hp
                have hlt := hf t p token ht hp
                refine .inr ?_
                simp only [hp, Option.map_some, Option.getD_some]
                exact (ih p (by omega)).mpr ⟨r, hr, hbelow⟩

/-- A token counts as cancelled exactly if it is at or below one that has been
    cancelled itself. -/
theorem isCancelled_iff (hf : f.Ordered) (t : Nat) :
    f.isCancelled t = true ↔ ∃ r, f.Struck r ∧ f.Below r t :=
  cancelledWithin_iff hf (t + 1) t (Nat.lt_succ_self t)

theorem struck_or_parent (hf : f.Ordered) {t : Nat} (h : f.isCancelled t = true) :
    f.Struck t ∨ ∃ token p, f.tokens[t]? = some token ∧ token.parent = some p ∧
      f.isCancelled p = true := by
  rcases (isCancelled_iff hf t).mp h with ⟨r, hr, hbelow⟩
  cases hbelow with
  | refl => exact .inl hr
  | @step t p token ht hp hbelow =>
      exact .inr ⟨token, p, ht, hp, (isCancelled_iff hf p).mpr ⟨r, hr, hbelow⟩⟩

theorem isCancelled_root (hf : f.Ordered) {t : Nat} (ht : f.Root t) :
    f.isCancelled t = true ↔ f.Struck t := by
  rw [isCancelled_iff hf]
  constructor
  · rintro ⟨r, hr, hbelow⟩
    exact hbelow.eq_of_root ht ▸ hr
  · exact fun h => ⟨t, h, .refl⟩

theorem isCancelled_child (hf : f.Ordered) {t p : Nat} {token : Token}
    (ht : f.tokens[t]? = some token) (hp : token.parent = some p)
    (h : f.isCancelled p = true) : f.isCancelled t = true := by
  rcases (isCancelled_iff hf p).mp h with ⟨r, hr, hbelow⟩
  exact (isCancelled_iff hf t).mpr ⟨r, hr, .step ht hp hbelow⟩

/-! ## What operations keep -/

theorem struck_cancel (f : Forest) (s t : Nat) :
    (f.cancel s).Struck t ↔ f.Struck t ∨ t = s ∧ t < f.tokens.length := by
  unfold Struck
  rw [tokens_cancel]
  cases ht : f.tokens[t]? with
  | none =>
      have hlen := List.getElem?_eq_none_iff.mp ht
      simp only [Option.map_none, reduceCtorEq, false_and, exists_false, false_or, false_iff]
      omega
  | some token =>
      have hlt := (List.getElem?_eq_some_iff.mp ht).1
      by_cases hs : s = t
      · simp [hs, hlt]
      · simp [hs, Ne.symm hs]

theorem Ordered.cancel (hf : f.Ordered) (s : Nat) : (f.cancel s).Ordered := by
  intro t p token ht hp
  rw [tokens_cancel] at ht
  rcases Option.map_eq_some_iff.mp ht with ⟨old, hold, hnew⟩
  refine hf t p old hold ?_
  rw [← hp, ← hnew]
  split <;> rfl

theorem Root.cancel {t : Nat} (ht : f.Root t) (s : Nat) : (f.cancel s).Root t := by
  rcases ht with ⟨token, ht, hnone⟩
  refine ⟨_, by rw [tokens_cancel, ht, Option.map_some], ?_⟩
  split
  · exact hnone
  · exact hnone

theorem getElem?_make {t : Nat} (ht : t < f.tokens.length) (parent : Option Nat) :
    (f.make parent).2.tokens[t]? = f.tokens[t]? := by
  rw [make, List.getElem?_append_left ht]

theorem getElem?_make_new (f : Forest) (parent : Option Nat) :
    (f.make parent).2.tokens[f.tokens.length]? = some { parent } := by
  rw [make, List.getElem?_concat_length]

theorem length_make (f : Forest) (parent : Option Nat) :
    (f.make parent).2.tokens.length = f.tokens.length + 1 := by
  rw [make, List.length_append, List.length_singleton]

theorem lt_or_eq_of_getElem?_make {t : Nat} {parent : Option Nat} {token : Token}
    (ht : (f.make parent).2.tokens[t]? = some token) :
    t < f.tokens.length ∨ t = f.tokens.length := by
  have hlt := (List.getElem?_eq_some_iff.mp ht).1
  rw [length_make] at hlt
  omega

theorem Ordered.make (hf : f.Ordered) {parent : Option Nat}
    (hparent : ∀ p ∈ parent, p < f.tokens.length) : (f.make parent).2.Ordered := by
  intro t p token ht hp
  rcases lt_or_eq_of_getElem?_make ht with hlt | heq
  · rw [getElem?_make hlt] at ht
    exact hf t p token ht hp
  · rw [heq, getElem?_make_new] at ht
    rw [← Option.some.inj ht] at hp
    rw [heq]
    exact hparent p hp

theorem Root.make {t : Nat} (ht : f.Root t) (parent : Option Nat) : (f.make parent).2.Root t := by
  rcases ht with ⟨token, hget, hnone⟩
  refine ⟨token, ?_, hnone⟩
  rw [getElem?_make (List.getElem?_eq_some_iff.mp hget).1]
  exact hget

theorem struck_make (f : Forest) (parent : Option Nat) (t : Nat) :
    (f.make parent).2.Struck t ↔ f.Struck t := by
  constructor
  · rintro ⟨token, ht, hself⟩
    rcases lt_or_eq_of_getElem?_make ht with hlt | heq
    · rw [getElem?_make hlt] at ht
      exact ⟨token, ht, hself⟩
    · -- The new token has not been cancelled.
      rw [heq, getElem?_make_new] at ht
      rw [← Option.some.inj ht] at hself
      exact absurd hself Bool.false_ne_true
  · rintro ⟨token, ht, hself⟩
    refine ⟨token, ?_, hself⟩
    rw [getElem?_make (List.getElem?_eq_some_iff.mp ht).1]
    exact ht

theorem below_make (hf : f.Ordered) {parent : Option Nat} {top t : Nat}
    (ht : t < f.tokens.length) : (f.make parent).2.Below top t ↔ f.Below top t := by
  constructor
  · intro h
    induction h with
    | refl => exact .refl
    | @step t p token hget hp _ ih =>
        rw [getElem?_make ht] at hget
        have hlt := hf t p token hget hp
        exact .step hget hp (ih (by omega))
  · intro h
    induction h with
    | refl => exact .refl
    | @step t p token hget hp _ ih =>
        have hlt := hf t p token hget hp
        exact .step (getElem?_make ht parent ▸ hget) hp (ih (by omega))

/-- A new token changes nothing for the tokens that are there. -/
theorem isCancelled_make (hf : f.Ordered) {parent : Option Nat}
    (hparent : ∀ p ∈ parent, p < f.tokens.length) {t : Nat} (ht : t < f.tokens.length) :
    (f.make parent).2.isCancelled t = f.isCancelled t := by
  rw [Bool.eq_iff_iff, isCancelled_iff (hf.make hparent), isCancelled_iff hf]
  simp only [struck_make, below_make hf ht]

end Forest

end ChainSync
