import ChainSync.Proofs.Routine.Tape

/-!
# Heeding a Reason to Stop

What a routine does once there is a reason for it to stop.

A routine that may be given up does not stop by itself. It has to look whether there
is a reason, and it matters what it does between two looks. So a run is taken apart
here into single changes, with others in between (`Comes`): a routine comes from one
moment to the next, and at each of them there is something left of it to do.

At some moments a routine is about to look (`Looks`), or it waits and looks as soon as
its wait is over (`Heeds`). With a reason at such a moment it does not matter any more
what the routine would have done otherwise. The reason stays, so whatever others do,
the look finds one, and all that is left is what the routine does for being stopped.

Which moments these are can be read off the tree of the routine. `Mindful` asks it of
every wait, and of what comes right behind a marked entry on the tape.

## Main definitions

* `Routine.advance`, `Routine.Comes`: A run, one change at a time.
* `Lookout`: The tape, the reasons, and the entries that are marked.
* `Routine.Looks`, `Routine.Heeds`: Moments at which a reason is found.
* `Routine.Plain`, `Routine.Mindful`: Routines with no marked entry, and those that
  look behind each.

## Theorems

* `Routine.Plain.guarded`, `Routine.Mindful.bind`, `Routine.Mindful.around`, …:
  Mindful routines are put together from their parts.
* `Routine.Comes.mindful`: A mindful routine stays so.
* `Routine.Comes.keeps`, `Routine.Comes.writes`: What a routine has done when it has come
  somewhere.
* `Routine.Heeds.resume`: The next turn is the last one.
* `Routine.Heeds.ends`: What others do makes no difference to that.
-/

namespace ChainSync

/-- Where a reason to stop is looked for, and what is written meanwhile. -/
structure Lookout (σ κ ε : Type) where
  now : σ → Nat
  tape : σ → List κ
  stop : σ → Option ε
  /-- The entries behind which the reason has to be looked for. -/
  marks : κ → Prop

namespace Routine

variable {σ α β ε κ : Type}

/-! ## One change at a time -/

/-- Whether a routine waits. -/
def isWaiting : Routine σ α → Bool
  | wait _ _ _ _ => true
  | _ => false

/-- One change of a routine, or the end of its wait. -/
def advance : Routine σ α → σ → Routine σ α × σ
  | act run next, s => let (b, s) := run s; (next b, s)
  | wait _ _ _ next, s => (next, s)
  | done a, s => (done a, s)

/-- What a routine comes to, with others changing the state in between. It goes on from
    a wait once it can. -/
inductive Comes (now : σ → Nat) (others : σ → σ → Prop) (r₀ : Routine σ α) (s₀ : σ) :
    Routine σ α → σ → Prop where
  | refl : Comes now others r₀ s₀ r₀ s₀
  | others {r : Routine σ α} {s s' : σ} (h : Comes now others r₀ s₀ r s) (ho : others s s') :
    Comes now others r₀ s₀ r s'
  | advance {r : Routine σ α} {s : σ} (h : Comes now others r₀ s₀ r s)
    (hgo : r.isWaiting = true → r.canGoOn (now s) s = true) :
    Comes now others r₀ s₀ (r.advance s).1 (r.advance s).2

/-- A turn is a number of changes in a row. -/
theorem Comes.poll {now : σ → Nat} {others : σ → σ → Prop} {r₀ r : Routine σ α} {s₀ s : σ}
    (h : r₀.Comes now others s₀ r s) : r₀.Comes now others s₀ (r.poll s).1 (r.poll s).2 := by
  induction r generalizing s with
  | done a => exact h
  | act run next ih => exact ih _ (h.advance fun hw => absurd hw Bool.false_ne_true)
  | wait ready timer abandon next ih => exact h

/-! ## Moments of looking -/

section

variable (v : Lookout σ κ ε)

/-- With its next change a routine looks for a reason to stop. If there is one, it
    writes nothing, and what is left of it is as `Q` says. -/
def Looks (Q : ε → Routine σ α → Prop) : Routine σ α → Prop
  | act run next => ∀ s e, v.stop s = some e → v.tape (run s).2 = v.tape s ∧ Q e (next (run s).1)
  | _ => False

/-- A routine looks for a reason to stop, or it waits until there is one and looks then. -/
def Heeds (Q : ε → Routine σ α → Prop) : Routine σ α → Prop
  | wait ready timer abandon next =>
    (∀ s, (v.stop s).isSome = true →
      (wait ready timer abandon next).canGoOn (v.now s) s = true) ∧ next.Looks v Q
  | r => r.Looks v Q

/-- A routine writes no marked entry, neither by its changes nor by being given up. -/
def Plain : Routine σ α → Prop
  | done _ => True
  | act run next =>
    (∀ s call, v.marks call → v.tape (run s).2 ≠ v.tape s ++ [call]) ∧ ∀ b, (next b).Plain
  | wait _ _ abandon next => (∀ s, v.tape (abandon s) = v.tape s) ∧ next.Plain

/-- A routine heeds a reason to stop at all its waits, and looks for one right behind
    every marked entry. -/
def Mindful (Q : ε → Routine σ α → Prop) : Routine σ α → Prop
  | done _ => True
  | act run next =>
    (∀ s call, v.marks call → v.tape (run s).2 = v.tape s ++ [call] →
      (next (run s).1).Looks v Q) ∧ ∀ b, (next b).Mindful Q
  | wait ready timer abandon next =>
    (wait ready timer abandon next).Heeds v Q ∧ next.Mindful Q

end

variable {v : Lookout σ κ ε} {Q : ε → Routine σ α → Prop}

/-- Only a change is a look. -/
theorem Looks.exists_act {r : Routine σ α} (h : r.Looks v Q) :
    ∃ (β : Type) (run : σ → β × σ) (next : β → Routine σ α), r = act run next ∧
      ∀ s e, v.stop s = some e → v.tape (run s).2 = v.tape s ∧ Q e (next (run s).1) := by
  cases r with
  | done a => exact absurd h fun h => h
  | act run next => exact ⟨_, run, next, rfl, h⟩
  | wait ready timer abandon next => exact absurd h fun h => h

theorem Looks.heeds {r : Routine σ α} (h : r.Looks v Q) : r.Heeds v Q := by
  cases r with
  | done a => exact h
  | act run next => exact h
  | wait ready timer abandon next => exact absurd h fun h => h

theorem Mindful.heeds {r : Routine σ α} (h : r.Mindful v Q) (hw : r.isWaiting = true) :
    r.Heeds v Q := by
  cases r with
  | done a => exact absurd hw Bool.false_ne_true
  | act run next => exact absurd hw Bool.false_ne_true
  | wait ready timer abandon next => exact h.1

/-- A mindful routine stays so, whatever it comes to. -/
theorem Comes.mindful {others : σ → σ → Prop} {r₀ r : Routine σ α} {s₀ s : σ}
    (h : r₀.Comes v.now others s₀ r s) (hr : r₀.Mindful v Q) : r.Mindful v Q := by
  induction h with
  | refl => exact hr
  | others _ _ ih => exact ih
  | @advance r s _ _ ih =>
      cases r with
      | done a => trivial
      | act run next => exact ih.2 _
      | wait ready timer abandon next => exact ih.2

/-- What a routine comes to is within what the others and all its changes keep to. -/
theorem Comes.keeps {P : σ → σ → Prop} (hrefl : ∀ s, P s s)
    (htrans : ∀ {s t u}, P s t → P t u → P s u) {now : σ → Nat} {others : σ → σ → Prop}
    (hothers : ∀ s t, others s t → P s t) {r₀ r : Routine σ α} {s₀ s : σ} (hdoes : r₀.Does P)
    (h : r₀.Comes now others s₀ r s) : P s₀ s ∧ r.Does P := by
  induction h with
  | refl => exact ⟨hrefl s₀, hdoes⟩
  | others _ ho ih => exact ⟨htrans ih.1 (hothers _ _ ho), ih.2⟩
  | @advance r s _ _ ih =>
      cases r with
      | done a => exact ih
      | act run next => exact ⟨htrans ih.1 (ih.2.1 s), ih.2.2 _⟩
      | wait ready timer abandon next => exact ⟨ih.1, ih.2.2⟩

/-- What a routine has written when it has come somewhere, among others who leave the tape
    alone, and what is left for it to write. -/
theorem Comes.writes {tape : σ → List κ} {E : List κ → α → Prop} {S : List κ → Prop}
    {now : σ → Nat} {others : σ → σ → Prop} (hothers : ∀ s t, others s t → tape t = tape s)
    {r₀ r : Routine σ α} {s₀ s : σ} {w : List κ} (hr : r₀.Writes tape E S w)
    (h : r₀.Comes now others s₀ r s) :
    ∃ entries, tape s = tape s₀ ++ entries ∧ r.Writes tape E S (w ++ entries) := by
  induction h with
  | refl => exact ⟨[], (List.append_nil _).symm, (List.append_nil w).symm ▸ hr⟩
  | others _ ho ih =>
      rcases ih with ⟨entries, htape, hwrites⟩
      exact ⟨entries, (hothers _ _ ho).trans htape, hwrites⟩
  | @advance r s _ _ ih =>
      rcases ih with ⟨entries, htape, hwrites⟩
      cases r with
      | done a => exact ⟨entries, htape, hwrites⟩
      | act run next =>
          rcases hwrites s with ⟨more, hmore, hnext⟩
          refine ⟨entries ++ more, ?_, by rwa [← List.append_assoc]⟩
          rw [← List.append_assoc, ← htape]
          exact hmore
      | wait ready timer abandon next => exact ⟨entries, htape, hwrites.2.2⟩

/-! ## Routines that are put together -/

/-- What is on the tape already is no new entry. -/
theorem append_singleton_ne {l l' : List κ} (h : l' = l) (call : κ) : l' ≠ l ++ [call] := by
  intro heq
  have hlength := congrArg List.length (h.symm.trans heq)
  rw [List.length_append, List.length_singleton] at hlength
  omega

section

variable {Q' : ε → Routine σ β → Prop}

theorem Looks.bind {r : Routine σ α} (hr : r.Looks v Q) {f : α → Routine σ β}
    (hQ : ∀ e r, Q e r → Q' e (r.bind f)) : (r.bind f).Looks v Q' := by
  rcases hr.exists_act with ⟨_, run, next, rfl, hlook⟩
  intro s e hs
  rcases hlook s e hs with ⟨htape, hnext⟩
  exact ⟨htape, hQ e _ hnext⟩

theorem Mindful.bind {r : Routine σ α} (hr : r.Mindful v Q) {f : α → Routine σ β}
    (hQ : ∀ e r, Q e r → Q' e (r.bind f)) (hf : ∀ a, (f a).Mindful v Q') :
    (r.bind f).Mindful v Q' := by
  induction r with
  | done a => exact hf a
  | act run next ih =>
      exact ⟨fun s call hmark htape => (hr.1 s call hmark htape).bind hQ, fun b => ih b (hr.2 b)⟩
  | wait ready timer abandon next ih =>
      rcases hr with ⟨⟨hgo, hlooks⟩, hnext⟩
      exact ⟨⟨hgo, hlooks.bind hQ⟩, ih hnext⟩

theorem Plain.bind {r : Routine σ α} (hr : r.Plain v) {f : α → Routine σ β}
    (hf : ∀ a, (f a).Plain v) : (r.bind f).Plain v := by
  induction r with
  | done a => exact hf a
  | act run next ih => exact ⟨hr.1, fun b => ih b (hr.2 b)⟩
  | wait ready timer abandon next ih => exact ⟨hr.1, ih hr.2⟩

end

/-- A routine that cannot reach the tape writes no marked entry. -/
theorem plain_lift {τ : Type} {get : σ → τ} {put : τ → σ → σ}
    (hput : ∀ t s, v.tape (put t s) = v.tape s) (r : Routine τ α) : (r.lift get put).Plain v := by
  induction r with
  | done a => trivial
  | act run next ih => exact ⟨fun s call _ => append_singleton_ne (hput _ s) call, fun b => ih b⟩
  | wait ready timer abandon next ih => exact ⟨fun s => hput _ s, ih⟩

/-- A routine that is given up for the reason that is looked for heeds it at its waits. -/
theorem Plain.guarded {r : Routine σ α} (hr : r.Plain v) :
    (r.guarded v.stop).Mindful v fun e r => r = done (.error e) := by
  induction r with
  | done a => trivial
  | act run next ih =>
      exact ⟨fun s call hmark htape => absurd htape (hr.1 s call hmark), fun b => ih b (hr.2 b)⟩
  | wait ready timer abandon next ih =>
      rcases hr with ⟨habandon, hnext⟩
      refine ⟨⟨fun s hs => ?_, fun s e hs => ?_⟩, fun s call _ => ?_, fun reason => ?_⟩
      · simp only [canGoOn, isReady, hs, Bool.true_or]
      · simp only [hs]
        exact ⟨habandon s, trivial⟩
      · -- Whether it is given up or not, the look itself leaves the tape alone.
        refine fun htape => absurd htape (append_singleton_ne ?_ call)
        dsimp only
        split
        · exact habandon s
        · rfl
      · cases reason with
        | some e => trivial
        | none => exact ih hnext

theorem looks_unlessStopped (r : Routine σ α) :
    (r.unlessStopped v.stop).Looks v fun e r => r = done (.error e) := by
  intro s e hs
  refine ⟨rfl, ?_⟩
  simp only [hs]

theorem Plain.unlessStopped {r : Routine σ α} (hr : r.Plain v) :
    (r.unlessStopped v.stop).Mindful v fun e r => r = done (.error e) := by
  refine ⟨fun s call _ htape => absurd htape (append_singleton_ne rfl call), fun reason => ?_⟩
  cases reason with
  | some e => trivial
  | none => exact hr.guarded

section

variable {Q' : ε → Routine σ α → Prop} {enter leave : σ → σ}

theorem Looks.around (henter : ∀ s, v.tape (enter s) = v.tape s ∧ v.stop (enter s) = v.stop s)
    (hleave : ∀ s, v.tape (leave s) = v.tape s) {r : Routine σ α} (hr : r.Looks v Q)
    (hQ : ∀ e r, Q e r → Q' e (r.around enter leave)) : (r.around enter leave).Looks v Q' := by
  rcases hr.exists_act with ⟨_, run, next, rfl, hlook⟩
  intro s e hs
  rcases hlook (enter s) e ((henter s).2.trans hs) with ⟨htape, hnext⟩
  exact ⟨(hleave _).trans (htape.trans (henter s).1), hQ e _ hnext⟩

theorem Mindful.around (henter : ∀ s, v.tape (enter s) = v.tape s ∧ v.stop (enter s) = v.stop s)
    (hleave : ∀ s, v.tape (leave s) = v.tape s) {r : Routine σ α} (hr : r.Mindful v Q)
    (hQ : ∀ e r, Q e r → Q' e (r.around enter leave)) : (r.around enter leave).Mindful v Q' := by
  induction r with
  | done a => trivial
  | act run next ih =>
      refine ⟨fun s call hmark htape => ?_, fun b => ih b (hr.2 b)⟩
      -- Entering and leaving write nothing, so the change itself has written the entry.
      have hown : v.tape (run (enter s)).2 = v.tape (enter s) ++ [call] := by
        rw [(henter s).1, ← htape]
        exact (hleave _).symm
      exact (hr.1 (enter s) call hmark hown).around henter hleave hQ
  | wait ready timer abandon next ih =>
      rcases hr with ⟨⟨hgo, hlooks⟩, hnext⟩
      exact ⟨⟨hgo, hlooks.around henter hleave hQ⟩, ih hnext⟩

variable {cleanup : σ → σ}

theorem Looks.ensuring {r : Routine σ α} (hr : r.Looks v Q)
    (hQ : ∀ e r, Q e r → Q' e (r.ensuring cleanup)) : (r.ensuring cleanup).Looks v Q' := by
  rcases hr.exists_act with ⟨_, run, next, rfl, hlook⟩
  intro s e hs
  rcases hlook s e hs with ⟨htape, hnext⟩
  exact ⟨htape, hQ e _ hnext⟩

theorem Mindful.ensuring (hcleanup : ∀ s, v.tape (cleanup s) = v.tape s) {r : Routine σ α}
    (hr : r.Mindful v Q) (hQ : ∀ e r, Q e r → Q' e (r.ensuring cleanup)) :
    (r.ensuring cleanup).Mindful v Q' := by
  induction r with
  | done a =>
      refine ⟨fun s call _ htape => absurd htape (append_singleton_ne (hcleanup s) call), ?_⟩
      exact fun _ => trivial
  | act run next ih =>
      exact ⟨fun s call hmark htape => (hr.1 s call hmark htape).ensuring hQ,
        fun b => ih b (hr.2 b)⟩
  | wait ready timer abandon next ih =>
      rcases hr with ⟨⟨hgo, hlooks⟩, hnext⟩
      exact ⟨⟨hgo, hlooks.ensuring hQ⟩, ih hnext⟩

end

/-! ## What is left for a routine that is stopped -/

/-- A routine with no waits is over within one turn. -/
theorem Writes.poll {tape : σ → List κ} {E : List κ → α → Prop} {r : Routine σ α} {w : List κ}
    (hr : r.Writes tape E (fun _ => False) w) (s : σ) :
    ∃ a s' entries, r.poll s = (done a, s') ∧ tape s' = tape s ++ entries ∧ E (w ++ entries) a := by
  induction r generalizing s w with
  | done a => exact ⟨a, s, [], rfl, (List.append_nil _).symm, (List.append_nil w).symm ▸ hr⟩
  | act run next ih =>
      rcases hr s with ⟨first, htape, hnext⟩
      rcases ih _ hnext (run s).2 with ⟨a, s', entries, hpoll, htape', hE⟩
      refine ⟨a, s', first ++ entries, hpoll, ?_, by rwa [← List.append_assoc]⟩
      rw [htape', htape, List.append_assoc]
  | wait ready timer abandon next ih => exact absurd hr.2.1 fun h => h

variable {E : ε → List κ → α → Prop}

/-- A routine that heeds a reason can go on once there is one. -/
theorem Heeds.canGoOn {r : Routine σ α} (h : r.Heeds v Q) (hw : r.isWaiting = true) {s : σ}
    (hs : (v.stop s).isSome = true) : r.canGoOn (v.now s) s = true := by
  cases r with
  | done a => exact absurd hw Bool.false_ne_true
  | act run next => exact absurd hw Bool.false_ne_true
  | wait ready timer abandon next => exact h.1 s hs

/-- Its next turn is its last one, and what it writes then is said by the reason. -/
theorem Heeds.resume {r : Routine σ α}
    (h : r.Heeds v fun e r => r.Writes v.tape (E e) (fun _ => False) []) {s : σ} {e : ε}
    (hs : v.stop s = some e) :
    ∃ a s' entries, r.resume s = (done a, s') ∧ v.tape s' = v.tape s ++ entries ∧
      E e entries a := by
  have hlooks {r : Routine σ α}
      (h : r.Looks v fun e r => r.Writes v.tape (E e) (fun _ => False) []) :
      ∃ a s' entries, r.poll s = (done a, s') ∧ v.tape s' = v.tape s ++ entries ∧
        E e entries a := by
    rcases h.exists_act with ⟨_, run, next, rfl, hlook⟩
    rcases hlook s e hs with ⟨htape, hnext⟩
    rcases hnext.poll (run s).2 with ⟨a, s', entries, hpoll, htape', hE⟩
    exact ⟨a, s', entries, hpoll, by rw [htape', htape], hE⟩
  cases r with
  | done a => exact absurd h fun h => h
  | act run next => exact hlooks h
  | wait ready timer abandon next => exact hlooks h.2

section

variable {others later : σ → σ → Prop}
  (hothers : ∀ s s', others s s' → later s s' ∧ v.tape s' = v.tape s)
  (hrefl : ∀ s, later s s) (htrans : ∀ {s t u}, later s t → later t u → later s u)
  (hstop : ∀ {s s'}, later s s' → (v.stop s).isSome = true → (v.stop s').isSome = true)
include hothers hrefl htrans hstop

/-- As long as it has not looked, it has written nothing and there is a reason. From its
    look on it only does what is left for it. -/
theorem Heeds.before_or_after {r : Routine σ α}
    (h : r.Heeds v fun e r => r.Writes v.tape (E e) (fun _ => False) []) {s : σ}
    (hs : (v.stop s).isSome = true) {r' : Routine σ α} {s' : σ}
    (hc : r.Comes v.now others s r' s') :
    ((r'.Heeds v fun e r => r.Writes v.tape (E e) (fun _ => False) []) ∧ later s s' ∧
      v.tape s' = v.tape s) ∨
    ∃ look m e entries, r.Comes v.now others s look m ∧ later s m ∧ v.stop m = some e ∧
      v.tape s' = v.tape s ++ entries ∧ r'.Writes v.tape (E e) (fun _ => False) entries := by
  induction hc with
  | refl => exact .inl ⟨h, hrefl s, rfl⟩
  | @others r' t t' _ ho ih =>
      rcases hothers t t' ho with ⟨hlater, htape⟩
      rcases ih with ⟨hheeds, hbefore, hsame⟩ | ⟨look, m, e, entries, hm, hbefore, he, hw, hwrites⟩
      · exact .inl ⟨hheeds, htrans hbefore hlater, htape.trans hsame⟩
      · exact .inr ⟨look, m, e, entries, hm, hbefore, he, htape.trans hw, hwrites⟩
  | @advance r' t hc _ ih =>
      rcases ih with ⟨hheeds, hbefore, hsame⟩ | ⟨look, m, e, entries, hm, hbefore, he, hw, hwrites⟩
      · cases r' with
        | done a => exact absurd hheeds fun h => h
        | wait ready timer abandon next => exact .inl ⟨hheeds.2.heeds, hbefore, hsame⟩
        | act run next =>
            -- This is the look, and it finds what there is to be found now.
            rcases Option.isSome_iff_exists.mp (hstop hbefore hs) with ⟨e, he⟩
            rcases hheeds t e he with ⟨htape, hnext⟩
            refine .inr ⟨_, t, e, [], hc, hbefore, he, ?_, hnext⟩
            rw [List.append_nil]
            exact htape.trans hsame
      · refine .inr ⟨look, m, e, ?_⟩
        cases r' with
        | done a => exact ⟨entries, hm, hbefore, he, hw, hwrites⟩
        | wait ready timer abandon next => exact absurd hwrites.2.1 fun h => h
        | act run next =>
            rcases hwrites t with ⟨more, htape, hnext⟩
            refine ⟨entries ++ more, hm, hbefore, he, ?_, hnext⟩
            rw [← List.append_assoc, ← hw]
            exact htape

/-- Whatever others do, a routine that heeds a reason is over with its next turn, and
    does not have to wait for that. All it writes, and what it comes to, is said by a
    reason that it finds on its way. -/
theorem Heeds.ends {r : Routine σ α}
    (h : r.Heeds v fun e r => r.Writes v.tape (E e) (fun _ => False) []) {s : σ}
    (hs : (v.stop s).isSome = true) {r' : Routine σ α} {s' : σ}
    (hc : r.Comes v.now others s r' s') :
    (r'.isWaiting = true → r'.canGoOn (v.now s') s' = true) ∧
    ∃ look m e entries rest a s'', r.Comes v.now others s look m ∧ later s m ∧
      v.stop m = some e ∧ v.tape s' = v.tape s ++ entries ∧ r'.resume s' = (done a, s'') ∧
      v.tape s'' = v.tape s ++ (entries ++ rest) ∧ E e (entries ++ rest) a := by
  rcases h.before_or_after hothers hrefl htrans hstop hs hc with
    ⟨hheeds, hlater, hsame⟩ | ⟨look, m, e, entries, hm, hlater, he, hw, hwrites⟩
  · have hs' := hstop hlater hs
    rcases Option.isSome_iff_exists.mp hs' with ⟨e, he⟩
    rcases hheeds.resume he with ⟨a, s'', rest, hresume, htape, hE⟩
    refine ⟨fun hw => hheeds.canGoOn hw hs', r', s', e, [], rest, a, s'', hc, hlater, he, ?_,
      hresume, ?_, hE⟩
    · rw [hsame, List.append_nil]
    · rw [htape, hsame, List.nil_append]
  · cases r' with
    | wait ready timer abandon next => exact absurd hwrites.2.1 fun h => h
    | done a =>
        refine ⟨fun hw => absurd hw Bool.false_ne_true, look, m, e, entries, [], a, s', hm, hlater,
          he, hw, rfl, ?_, ?_⟩
        · rw [hw, List.append_nil]
        · rwa [List.append_nil]
    | act run next =>
        rcases hwrites.poll s' with ⟨a, s'', rest, hpoll, htape, hE⟩
        refine ⟨fun hw => absurd hw Bool.false_ne_true, look, m, e, entries, rest, a, s'', hm,
          hlater, he, hw, hpoll, ?_, hE⟩
        rw [htape, hw, List.append_assoc]

end

end Routine

end ChainSync
