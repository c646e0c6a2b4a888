import ChainSync.Proofs.Rescan.Account
import ChainSync.Proofs.Routine.Tracks

/-!
# Sights of a Rescan

What the slot shows while a rescan holds it.

A scanner and an observer may look at the slot whenever they are called, and others may
look while the rescan waits. So for each call it is written down what there was to see.
As with the calls alone, scanner and observer are run without what is written, and cannot
get at it.

The slot is changed in several places, and none of them knows what the others have made
of it: a claim puts a session there, a scanned height goes into whatever session there
is, and so does the wish to stop. That the session is the right one all the time is due to
the rescan being the only one that changes it. So the session is followed together with
the sights through the tree of the rescan (`Routine.Tracks`), and at each point of the
loop it is known what it is: it stands one below the next height, or at the last one.

## Main definitions

* `Sight`, `Sighted`: What is seen in a call, and where it is written down.
* `RescanCall.sighted`: A call whose scanner and observer are looked after.
* `RescanSession.Shows`: A session that goes with a rescan and its calls so far.
* `RescanView.Faithful`: All that is seen of a rescan goes with it.
* `Engine.Stands`: The loop of a rescan before a height.

## Theorems

* `RescanView.Faithful.concat`: One more call.
* `Engine.tracks_scanFrom`: The loop.
* `Engine.tracks_held`: A rescan from its claim to its end.
-/

namespace ChainSync

/-- A call of a scanner or an observer, and what was in the slot when it was made. The
    end of a scan counts as a call. -/
structure Sight where
  call : ScanCall
  seen : Option RescanSession
deriving DecidableEq

/-- A state with the sights of rescans, the oldest first. -/
structure Sighted (ι χ : Type) where
  own : χ
  sights : ι → List Sight := fun _ => []

namespace Engine

variable {ι χ : Type}

/-- The sights of a rescan so far. -/
def sights (e : Engine (Sighted ι χ)) (i : ι) : List Sight := e.own.sights i

/-- The engine without the sights. -/
def unsighted (e : Engine (Sighted ι χ)) : Engine χ := { e with own := e.own.own }

/-- The engine with the sights of another one. -/
def resighted (e : Engine χ) (kept : Engine (Sighted ι χ)) : Engine (Sighted ι χ) :=
  { e with own := { kept.own with own := e.own } }

variable [DecidableEq ι]

/-- Writes down a sight of a rescan. -/
def see (i : ι) (call : ScanCall) (seen : Option RescanSession) :
    Engine (Sighted ι χ) → Engine (Sighted ι χ) :=
  modifyOwn fun t =>
    { t with sights := fun j => if j = i then t.sights j ++ [⟨call, seen⟩] else t.sights j }

@[simp] theorem sights_see_self (i : ι) (call : ScanCall) (seen : Option RescanSession)
    (e : Engine (Sighted ι χ)) : (e.see i call seen).sights i = e.sights i ++ [⟨call, seen⟩] :=
  if_pos rfl

theorem sights_see_other {i j : ι} (h : j ≠ i) (call : ScanCall) (seen : Option RescanSession)
    (e : Engine (Sighted ι χ)) : (e.see i call seen).sights j = e.sights j := if_neg h

end Engine

section

variable {ι χ : Type} [DecidableEq ι]

/-- A scanner with what there is to see when a scan begins and when it comes to its end. -/
def BlockScanner.sighted (i : ι) (scan : BlockScanner χ) : BlockScanner (Sighted ι χ) :=
  fun height => do
    .update fun e => e.see i (.scanBlock height) e.slot.active
    let result ← (scan height).lift Engine.unsighted Engine.resighted
    .update fun e => e.see i (.scanned height result) e.slot.active
    return result

/-- An observer with what there is to see when it is called. -/
def ScanObserver.sighted (i : ι) (observer : ScanObserver χ) : ScanObserver (Sighted ι χ) where
  onScan height e :=
    let (answer, e') := observer.onScan height e.unsighted
    (answer, (e'.resighted e).see i (.onScan height answer) e.slot.active)
  onEnd height cancelled e :=
    let (panic, e') := observer.onEnd height cancelled e.unsighted
    (panic, (e'.resighted e).see i (.onEnd height cancelled panic) e.slot.active)
  onError code message e :=
    let (panic, e') := observer.onError code message e.unsighted
    (panic, (e'.resighted e).see i (.onError code message panic) e.slot.active)

/-- A call of which is written down what its scanner and its observer can see. -/
def RescanCall.sighted (i : ι) (call : RescanCall χ) : RescanCall (Sighted ι χ) :=
  { call with scan := call.scan.sighted i, observer := call.observer.sighted i }

end

/-! ## Faithful sessions -/

/-- The height below another one; the lowest one is its own. -/
def below (height : Int32) : Int32 := Int32.ofIntClamp (height.toInt - 1)

theorem below_le (height : Int32) : below height ≤ height := by
  have hlow := height.minValue_le_toInt
  have hhigh := height.toInt_le
  rw [below]
  by_cases h : Int32.minValue.toInt ≤ height.toInt - 1
  · rw [Int32.le_iff_toInt_le, Int32.toInt_ofIntClamp h (by omega)]
    omega
  · rw [Int32.ofIntClamp, dif_neg h]
    exact Int32.minValue_le height

theorem max_below (height : Int32) : max (below height) height = height :=
  if_pos (below_le height)

/-- A height that is not the last one of a range is below another one. -/
theorem below_succ {left : Nat} {height target : Int32}
    (h : left + 2 = Engine.blockCount height target) : below (height + 1) = height := by
  have hnext : (height + 1).toInt = height.toInt + 1 :=
    (toInt_heightAt (show 1 < Engine.blockCount height target by omega)).1
  rw [below, hnext, Int.add_sub_cancel, Int32.ofIntClamp_toInt]

namespace ScanCall

/-- Whether a call was answered with the wish to stop. -/
def stops : ScanCall → Bool
  | onScan _ .stop => true
  | _ => false

/-- The last height that is scanned, after a call. -/
def reached (height : Int32) : ScanCall → Int32
  | onScan next _ => next
  | _ => height

theorem stops_iff (call : ScanCall) :
    call.stops = true ↔ ∃ height, call = .onScan height .stop := by
  constructor
  · intro h
    cases call with
    | onScan height answer =>
        cases answer with
        | stop => exact ⟨height, rfl⟩
        | goOn => exact absurd h Bool.false_ne_true
        | panicked p => exact absurd h Bool.false_ne_true
    | scanBlock height => exact absurd h Bool.false_ne_true
    | scanned height result => exact absurd h Bool.false_ne_true
    | onEnd height cancelled panic => exact absurd h Bool.false_ne_true
    | onError code message panic => exact absurd h Bool.false_ne_true
  · rintro ⟨height, rfl⟩
    rfl

theorem reached_eq_or (call : ScanCall) (height : Int32) :
    call.reached height = height ∨ ∃ answer, call = .onScan (call.reached height) answer := by
  cases call with
  | onScan next answer => exact .inr ⟨answer, rfl⟩
  | scanBlock next => exact .inl rfl
  | scanned next result => exact .inl rfl
  | onEnd next cancelled panic => exact .inl rfl
  | onError code message panic => exact .inl rfl

end ScanCall

/-- The last height that is scanned, after some calls; one below the start at first. -/
def reached (start : Int32) (sights : List Sight) : Int32 :=
  sights.foldl (fun height s => s.call.reached height) (below start)

@[simp] theorem reached_concat (start : Int32) (sights : List Sight) (s : Sight) :
    reached start (sights ++ [s]) = s.call.reached (reached start sights) := by
  rw [reached, List.foldl_append, List.foldl_cons, List.foldl_nil, reached]

/-- It is one below the start, or a height that was reported. -/
theorem reached_eq_or (start : Int32) (sights : List Sight) :
    reached start sights = below start ∨
      ∃ s ∈ sights, ∃ answer, s.call = .onScan (reached start sights) answer := by
  unfold reached
  generalize below start = height
  induction sights generalizing height with
  | nil => exact .inl rfl
  | cons s sights ih =>
      rcases ih (s.call.reached height) with heq | ⟨s', hs', hreport⟩
      · rw [List.foldl_cons, heq]
        exact (s.call.reached_eq_or height).imp_right fun h => ⟨s, List.mem_cons_self, h⟩
      · exact .inr ⟨s', List.mem_cons_of_mem _ hs', hreport⟩

variable {χ : Type}

/-- A session goes with a rescan that has made some calls earlier. -/
structure RescanSession.Shows (v : RescanSession) (call : RescanCall χ) (id : Nat)
    (earlier : List Sight) : Prop where
  id_eq : v.id = id
  start_eq : v.start = call.start
  target_eq : v.target = call.target
  /-- The height is not past the target unless the start is. -/
  current_le : call.start ≤ call.target → v.current ≤ call.target
  /-- It is not below what it has been before. -/
  le_current : ∀ s ∈ earlier, ∀ u, s.seen = some u → u.current ≤ v.current
  below_le : below call.start ≤ v.current
  cancelled_iff : v.cancelled = true ↔ ∃ s ∈ earlier, ∃ height, s.call = .onScan height .stop

/-- What a session has to be like in a call. -/
def ScanCall.AgreesWith (rescan : RescanCall χ) (v : RescanSession) : ScanCall → Prop
  | scanBlock height => v.current = below height ∧ v.cancelled = false
  | scanned height _ => v.current = below height ∧ v.cancelled = false
  | onScan height _ => v.current = height ∧ v.cancelled = false
  | onEnd height cancelled _ =>
    v.cancelled = cancelled ∧ (rescan.start ≤ rescan.target → v.current = height)
  | onError _ _ _ => v.cancelled = false

/-- What is seen in a call goes with the rescan, the calls before it, and the call. -/
def Sight.Fits (s : Sight) (call : RescanCall χ) (id : Nat) (earlier : List Sight) : Prop :=
  ∃ v, s.seen = some v ∧ v.Shows call id earlier ∧ s.call.AgreesWith call v

/-- So does what is seen in all of its calls, one after the other. -/
def AllFit (call : RescanCall χ) (id : Nat) (sights : List Sight) : Prop :=
  ∀ earlier s, earlier ++ [s] <+: sights → s.Fits call id earlier

/-- The slot and the sights of a rescan. -/
structure RescanView where
  session : Option RescanSession
  sights : List Sight

/-- All that is seen of a rescan goes with it. -/
structure RescanView.Faithful (k : RescanView) (call : RescanCall χ) (id : Nat) : Prop where
  fits : AllFit call id k.sights
  shows : ∀ v, k.session = some v →
    v.Shows call id k.sights ∧ v.current = reached call.start k.sights

section

variable {call : RescanCall χ} {id : Nat} {earlier : List Sight} {v : RescanSession}

theorem AllFit.of_mem {sights : List Sight} (h : AllFit call id sights) {s : Sight}
    (hs : s ∈ sights) : ∃ earlier, s.Fits call id earlier := by
  rcases List.append_of_mem hs with ⟨earlier, later, rfl⟩
  refine ⟨earlier, h earlier s ⟨later, ?_⟩⟩
  rw [List.append_assoc, List.singleton_append]

theorem AllFit.of_earlier {sights : List Sight} (h : AllFit call id sights)
    (hearlier : earlier <+: sights) : AllFit call id earlier :=
  fun first s hs => h first s (hs.trans hearlier)

/-- A session is not below one that was there after fewer calls. -/
theorem RescanSession.Shows.le_of_earlier {later : List Sight} {v' : RescanSession}
    (h : v'.Shows call id later) (hfits : AllFit call id later)
    (hcurrent : v.current = reached call.start earlier) (hearlier : earlier <+: later) :
    v.current ≤ v'.current := by
  rw [hcurrent]
  rcases reached_eq_or call.start earlier with hbelow | ⟨s, hs, answer, hreport⟩
  · rw [hbelow]
    exact h.below_le
  · -- The height is the one that was seen when it was reported.
    have hmem := hearlier.subset hs
    rcases hfits.of_mem hmem with ⟨_, u, hseen, _, hagrees⟩
    rw [hreport] at hagrees
    rw [← hagrees.1]
    exact h.le_current s hmem u hseen

/-- A height that was scanned goes into the session. -/
theorem RescanSession.Shows.raise (h : v.Shows call id earlier) {height : Int32}
    (hle : v.current ≤ height) (htarget : call.start ≤ call.target → height ≤ call.target) :
    RescanSession.Shows { v with current := height } call id earlier where
  id_eq := h.id_eq
  start_eq := h.start_eq
  target_eq := h.target_eq
  current_le := htarget
  le_current := fun s hs u hu => Int32.le_trans (h.le_current s hs u hu) hle
  below_le := Int32.le_trans h.below_le hle
  cancelled_iff := h.cancelled_iff

/-- One more call, which may ask to stop. -/
theorem RescanSession.Shows.concat (h : v.Shows call id earlier) (c : ScanCall) :
    RescanSession.Shows { v with cancelled := v.cancelled || c.stops } call id
      (earlier ++ [⟨c, some v⟩]) where
  id_eq := h.id_eq
  start_eq := h.start_eq
  target_eq := h.target_eq
  current_le := h.current_le
  le_current := fun s hs u hu => by
    rcases List.mem_append.mp hs with hs | hs
    · exact h.le_current s hs u hu
    · rw [List.mem_singleton.mp hs] at hu
      rw [← Option.some.inj hu]
      exact Int32.le_refl v.current
  below_le := h.below_le
  cancelled_iff := by
    rw [Bool.or_eq_true, h.cancelled_iff, c.stops_iff]
    simp only [List.mem_append, List.mem_singleton, or_and_right, exists_or, exists_eq_left]

/-- One more call that agrees with the session. -/
theorem RescanView.Faithful.concat {sights : List Sight}
    (hfits : AllFit call id sights) (hshows : v.Shows call id sights) {c : ScanCall}
    (hagrees : c.AgreesWith call v)
    (hcurrent : v.current = c.reached (reached call.start sights)) :
    RescanView.Faithful
      ⟨some { v with cancelled := v.cancelled || c.stops }, sights ++ [⟨c, some v⟩]⟩ call id where
  fits := fun earlier s h => by
    rcases List.prefix_concat_iff.mp h with heq | h
    · rcases List.append_inj' heq rfl with ⟨rfl, hs⟩
      rw [List.singleton_inj.mp hs]
      exact ⟨v, rfl, hshows, hagrees⟩
    · exact hfits earlier s h
  shows := fun u hu => by
    obtain rfl := Option.some.inj hu
    refine ⟨hshows.concat c, ?_⟩
    rw [reached_concat]
    exact hcurrent

/-- One more call that is no report of a height. -/
theorem RescanView.Faithful.concat_quiet {k : RescanView} (h : k.Faithful call id)
    (hv : k.session = some v) {c : ScanCall} (hagrees : c.AgreesWith call v)
    (hstops : c.stops = false) (hreached : ∀ height, c.reached height = height) :
    RescanView.Faithful ⟨some v, k.sights ++ [⟨c, some v⟩]⟩ call id := by
  rcases h.shows v hv with ⟨hshows, hcurrent⟩
  have hconcat := concat h.fits hshows hagrees (hcurrent.trans (hreached _).symm)
  rw [hstops, Bool.or_false] at hconcat
  exact hconcat

end

namespace Engine

open Routine

variable {ι : Type} {call : RescanCall χ} {id : Nat} {i : ι}

/-- What is to be seen of a rescan. -/
def view (i : ι) (e : Engine (Sighted ι χ)) : RescanView := ⟨e.slot.active, e.sights i⟩

/-- What a rescan does to all that is seen of rescans. -/
structure Upkeeps (call : RescanCall χ) (id : Nat) (i : ι) (e e' : Engine (Sighted ι χ)) :
    Prop where
  faithful : (e.view i).Faithful call id → (e'.view i).Faithful call id
  grows : e.sights i <+: e'.sights i
  others : ∀ j, j ≠ i → e'.sights j = e.sights j

namespace Upkeeps

variable {e e' : Engine (Sighted ι χ)}

theorem refl (e : Engine (Sighted ι χ)) : Upkeeps call id i e e :=
  ⟨fun h => h, List.prefix_refl _, fun _ _ => rfl⟩

/-- A call is written down behind the others. -/
theorem of_concat {s : Sight} (hfaithful : (e'.view i).Faithful call id)
    (hsights : e'.sights i = e.sights i ++ [s])
    (hothers : ∀ j, j ≠ i → e'.sights j = e.sights j) : Upkeeps call id i e e' := by
  refine ⟨fun _ => hfaithful, ?_, hothers⟩
  rw [hsights]
  exact List.prefix_append _ _

/-- A slot that was given back shows nothing. -/
theorem release (h : Upkeeps call id i e e') :
    Upkeeps call id i e (e'.modifySlot (·.release)) := by
  refine ⟨fun hf => ⟨(h.faithful hf).fits, fun v hv => ?_⟩, h.grows, h.others⟩
  exact absurd hv (by simp [view, Engine.modifySlot, RescanSlot.release])

end Upkeeps

/-- The loop of a rescan before a height, with so many heights left. -/
structure Stands (call : RescanCall χ) (id left : Nat) (height : Int32) (v : RescanSession)
    (k : RescanView) : Prop where
  session : k.session = some v
  faithful : k.Faithful call id
  goesOn : v.cancelled = false
  next : left = 0 ∨ left = blockCount height call.target ∧ v.current = below height
  last : left = 0 → call.start ≤ call.target → v.current = call.target

/-- The loop of a rescan has come to its end. -/
def Ends (call : RescanCall χ) (id : Nat) (x : Except Panic RescanOutcome) (k : RescanView) :
    Prop :=
  ∃ v, k.session = some v ∧ k.Faithful call id ∧
    ∀ outcome, x = .ok outcome → ∀ panic, (outcome.ending panic).AgreesWith call v

/-- A rescan that is let in stands below its first height. -/
theorem stands_claim (call : RescanCall χ) {e : Engine (Sighted ι χ)}
    (hfree : e.slot.isTaken = false) (hnone : e.sights i = []) :
    Stands call (e.slot.lastId + 1) (blockCount call.start call.target) call.start
      ⟨e.slot.lastId + 1, call.start, call.target, below call.start, false⟩
      ((e.claim call.start call.target).2.view i) := by
  rcases claim_of_free hfree call.start call.target with ⟨_, hslot, hown⟩
  have hview : (e.claim call.start call.target).2.view i =
      ⟨some ⟨e.slot.lastId + 1, call.start, call.target, below call.start, false⟩, []⟩ := by
    rw [view, hslot, sights, hown, RescanSlot.claim, hfree]
    exact congrArg (RescanView.mk _) hnone
  have hle : call.start ≤ call.target → below call.start ≤ call.target :=
    Int32.le_trans (below_le call.start)
  rw [hview]
  refine ⟨rfl, ⟨fun earlier s h => ?_, fun v hv => ?_⟩, rfl, .inr ⟨rfl, rfl⟩,
    fun hzero hrange => ?_⟩
  · exact absurd (List.prefix_nil.mp h) (by simp)
  · obtain rfl := Option.some.inj hv
    refine ⟨⟨rfl, rfl, rfl, hle, ?_, Int32.le_refl _, ?_⟩, rfl⟩
    · exact fun s hs => absurd hs List.not_mem_nil
    · simp
  · have := Int32.le_iff_toInt_le.mp hrange
    rw [blockCount] at hzero
    omega

variable [DecidableEq ι]

/-! ## A block -/

/-- Neither the beginning nor the end of a scan changes where the loop stands. -/
theorem Stands.see {left : Nat} {height : Int32} {v : RescanSession} {e : Engine (Sighted ι χ)}
    (h : Stands call id (left + 1) height v (e.view i)) {c : ScanCall}
    (hc : c = .scanBlock height ∨ ∃ result, c = .scanned height result) :
    Upkeeps call id i e (e.see i c e.slot.active) ∧
      Stands call id (left + 1) height v ((e.see i c e.slot.active).view i) := by
  have hcurrent := (h.next.resolve_left (Nat.succ_ne_zero left)).2
  have hfaithful : RescanView.Faithful ⟨some v, e.sights i ++ [⟨c, some v⟩]⟩ call id := by
    rcases hc with rfl | ⟨result, rfl⟩
    · exact h.faithful.concat_quiet h.session ⟨hcurrent, h.goesOn⟩ rfl fun _ => rfl
    · exact h.faithful.concat_quiet h.session ⟨hcurrent, h.goesOn⟩ rfl fun _ => rfl
  have hactive : e.slot.active = some v := h.session
  have hview : (e.see i c e.slot.active).view i = ⟨some v, e.sights i ++ [⟨c, some v⟩]⟩ := by
    rw [view, sights_see_self, hactive]
    exact congrArg (RescanView.mk · _) hactive
  rw [← hview] at hfaithful
  refine ⟨.of_concat hfaithful (sights_see_self ..) fun j hj => sights_see_other hj .., ?_⟩
  exact ⟨hactive, hfaithful, h.goesOn, h.next, h.last⟩

/-- A scan leaves alone where the loop stands, also when it is given up. -/
theorem tracks_scanBlock (hcall : call.LeavesSlot) {left : Nat} {height : Int32}
    {v : RescanSession} {k : RescanView} (hk : Stands call id (left + 1) height v k) :
    (call.scan.sighted i height).Tracks (view i) (Upkeeps call id i)
      (fun k _ => Stands call id (left + 1) height v k) (Stands call id (left + 1) height v) k := by
  refine Tracks.bind (tracks_update (Q := fun k _ => Stands call id (left + 1) height v k) ?_)
    fun k _ hk => Tracks.bind (Q := fun k _ => Stands call id (left + 1) height v k) ?_
      fun k result hk => Tracks.bind (tracks_update ?_) fun k _ hk => hk
  · rintro e rfl
    exact hk.see (.inl rfl)
  · refine (hcall.scan height).tracks_lift (fun e he => ?_) (fun e t he ht => ?_) (fun _ => hk) hk
    · have hactive : e.slot.active = some v := (congrArg RescanView.session he).trans hk.session
      change e.slot.active.isSome = true
      rw [hactive]
      rfl
    · -- The slot is the same afterwards, and the sights are out of reach.
      have hslot : t.slot = e.slot := ht
      have hview : (t.resighted e).view i = e.view i :=
        congrArg (RescanView.mk · _) (congrArg RescanSlot.active hslot)
      refine ⟨⟨fun h => ?_, List.prefix_refl _, fun _ _ => rfl⟩, hview.trans he⟩
      rw [hview]
      exact h
  · rintro e rfl
    exact hk.see (.inr ⟨result, rfl⟩)

/-- So does a block, whatever comes of it. -/
theorem tracks_untilStopped (hcall : call.LeavesSlot) (handle : Nat) {left : Nat} {height : Int32}
    {v : RescanSession} {k : RescanView} (hk : Stands call id (left + 1) height v k) :
    (untilStopped handle (call.scan.sighted i height)).Tracks (view i) (Upkeeps call id i)
      (fun k _ => Stands call id (left + 1) height v k) (Stands call id (left + 1) height v) k := by
  have hgiveWay {k : RescanView} (hk : Stands call id (left + 1) height v k) :
      (giveWayIfSpent : Routine (Engine (Sighted ι χ)) Unit).Tracks (view i) (Upkeeps call id i)
        (fun k _ => Stands call id (left + 1) height v k)
        (Stands call id (left + 1) height v) k := by
    refine Tracks.bind (tracks_ask (Q := fun k _ => Stands call id (left + 1) height v k)
      Upkeeps.refl fun _ => hk) fun k allowance hk => ?_
    split
    · exact tracks_pause Upkeeps.refl hk hk _ _
    · exact hk
  refine Tracks.bind (tracks_ask (Q := fun k _ => Stands call id (left + 1) height v k)
    Upkeeps.refl fun _ => hk) fun k reason hk => ?_
  cases reason with
  | some reason => exact hk
  | none =>
      refine Tracks.bind (hgiveWay hk) fun k _ hk => ?_
      exact (tracks_scanBlock hcall hk).unlessStopped Upkeeps.refl (fun _ _ h => h)
        (fun _ _ h => h) fun _ => hk

/-- An observer that is told of a height finds the slot as it is, and leaves it so. -/
theorem sights_onScan (hcall : call.LeavesSlot) {height : Int32} {e e' : Engine (Sighted ι χ)}
    {answer : ScanAnswer} (ht : e.slot.isTaken = true)
    (h : (call.observer.sighted i).onScan height e = (answer, e')) :
    e'.slot = e.slot ∧ e'.sights i = e.sights i ++ [⟨.onScan height answer, e.slot.active⟩] ∧
      ∀ j, j ≠ i → e'.sights j = e.sights j := by
  have hanswer : (call.observer.onScan height e.unsighted).1 = answer := congrArg Prod.fst h
  have he' : ((call.observer.onScan height e.unsighted).2.resighted e).see i
      (.onScan height (call.observer.onScan height e.unsighted).1) e.slot.active = e' :=
    congrArg Prod.snd h
  rw [← he', hanswer]
  exact ⟨hcall.onScan height e.unsighted ht, sights_see_self .., fun j hj =>
    sights_see_other hj ..⟩

/-- The report of a height is one call, in which the session stands at that height. -/
theorem view_reportScan (hcall : call.LeavesSlot) {height : Int32} {v : RescanSession}
    {e e' : Engine (Sighted ι χ)} {outcome : Option RescanOutcome}
    (hv : e.slot.active = some v) (hmax : max v.current height = height)
    (h : reportScan (call.observer.sighted i) height e = (outcome, e')) :
    ∃ answer, let c := ScanCall.onScan height answer
      e'.view i = ⟨some { v with current := height, cancelled := v.cancelled || c.stops },
        e.sights i ++ [⟨c, some { v with current := height }⟩]⟩ ∧
      (∀ j, j ≠ i → e'.sights j = e.sights j) ∧
      outcome = match answer with
        | .goOn => none
        | .stop => some (.cancelled height)
        | .panicked p => some (.ofError (.internal ("scan observer panicked: " ++ p.message))) := by
  let raised := e.modifySlot (·.advance height)
  have hraised : raised.slot.active = some { v with current := height } := by
    simp only [raised, Engine.modifySlot, RescanSlot.advance, hv, Option.map_some, hmax]
  rcases hcalled : (call.observer.sighted i).onScan height raised with ⟨answer, seen⟩
  have ht : raised.slot.isTaken = true := by
    rw [RescanSlot.isTaken, hraised]
    rfl
  rcases sights_onScan hcall ht hcalled with ⟨hslot, hsights, hothers⟩
  rw [hraised] at hsights
  have hactive : seen.slot.active = some { v with current := height } :=
    (congrArg RescanSlot.active hslot).trans hraised
  simp only [reportScan, show e.modifySlot (·.advance height) = raised from rfl, hcalled] at h
  refine ⟨answer, ?_⟩
  cases answer with
  | goOn =>
      have hstops : (ScanCall.onScan height .goOn).stops = false := rfl
      rcases Prod.mk.inj h with ⟨rfl, rfl⟩
      refine ⟨?_, hothers, rfl⟩
      rw [view, hactive, hsights, hstops, Bool.or_false]
      rfl
  | stop =>
      have hstops : (ScanCall.onScan height .stop).stops = true := rfl
      rcases Prod.mk.inj h with ⟨rfl, rfl⟩
      refine ⟨?_, hothers, rfl⟩
      change RescanView.mk (seen.slot.active.map _) (seen.sights i) = _
      rw [hactive, hsights, hstops, Bool.or_true]
      rfl
  | panicked p =>
      have hstops : (ScanCall.onScan height (.panicked p)).stops = false := rfl
      rcases Prod.mk.inj h with ⟨rfl, rfl⟩
      refine ⟨?_, hothers, rfl⟩
      rw [view, hactive, hsights, hstops, Bool.or_false]
      rfl

/-- With its answer the loop comes to the next height, or to its end. -/
theorem stands_reportScan (hcall : call.LeavesSlot) {left : Nat} {height : Int32}
    {v : RescanSession} {e : Engine (Sighted ι χ)}
    (h : Stands call id (left + 1) height v (e.view i)) :
    let (outcome, e') := reportScan (call.observer.sighted i) height e
    Upkeeps call id i e e' ∧ match outcome with
      | some outcome => Ends call id (.ok outcome) (e'.view i)
      | none => Stands call id left (height + 1) { v with current := height } (e'.view i) := by
  rcases h.next.resolve_left (Nat.succ_ne_zero left) with ⟨hcount, hcurrent⟩
  have hheight : height ≤ call.target := by
    have hfirst := toInt_heightAt (show 0 < blockCount height call.target by omega)
    rw [Int32.le_iff_toInt_le]
    omega
  have hmax : max v.current height = height := by rw [hcurrent, max_below]
  have hle : v.current ≤ height := hcurrent ▸ below_le height
  rcases hreport : reportScan (call.observer.sighted i) height e with ⟨outcome, e'⟩
  rcases view_reportScan hcall h.session hmax hreport with ⟨answer, hview, hothers, houtcome⟩
  have hraised : RescanSession.Shows { v with current := height } call id (e.sights i) :=
    (h.faithful.shows v h.session).1.raise hle fun _ => hheight
  have hfaithful : (e'.view i).Faithful call id := by
    rw [hview]
    exact RescanView.Faithful.concat h.faithful.fits hraised ⟨rfl, h.goesOn⟩ rfl
  refine ⟨.of_concat hfaithful (congrArg RescanView.sights hview) hothers, ?_⟩
  simp only [houtcome]
  cases answer with
  | goOn =>
      simp only []
      have hstops : (ScanCall.onScan height .goOn).stops = false := rfl
      rw [hstops, Bool.or_false] at hview
      refine ⟨congrArg RescanView.session hview, hfaithful, h.goesOn, ?_, ?_⟩
      · rcases blockCount_succ hcount with ⟨_, hzero | hrest⟩
        · exact .inl hzero
        · by_cases hzero : left = 0
          · exact .inl hzero
          · refine .inr ⟨hrest, ?_⟩
            rcases Nat.exists_eq_succ_of_ne_zero hzero with ⟨left, rfl⟩
            exact (below_succ hcount).symm
      · -- Behind the last height the session stands at the target.
        intro hzero _
        have hnot : ¬ height < call.target := fun hlt => (blockCount_succ hcount).1 hlt hzero
        exact Int32.le_antisymm hheight (Int32.not_lt.mp hnot)
  | stop =>
      simp only []
      refine ⟨_, congrArg RescanView.session hview, hfaithful, fun outcome houtcome panic => ?_⟩
      cases houtcome
      exact ⟨Bool.or_true _, fun _ => rfl⟩
  | panicked p =>
      simp only []
      refine ⟨_, congrArg RescanView.session hview, hfaithful, fun outcome houtcome panic => ?_⟩
      cases houtcome
      exact Bool.or_eq_false_iff.mpr ⟨h.goesOn, rfl⟩

/-! ## The loop -/

/-- A rescan that fails where it stands has come to its end. -/
theorem Stands.fails {left : Nat} {height : Int32} {v : RescanSession} {k : RescanView}
    (h : Stands call id left height v k) (e : SyncError) :
    Ends call id (.ok (.ofError e)) k := by
  refine ⟨v, h.session, h.faithful, fun outcome houtcome panic => ?_⟩
  cases houtcome
  exact h.goesOn

/-- The loop over the heights, by induction on the blocks that are left. -/
theorem tracks_scanFrom (hcall : call.LeavesSlot) (handle : Nat) {left : Nat} {height : Int32}
    {v : RescanSession} {k : RescanView} (hk : Stands call id left height v k) :
    (scanFrom (call.scan.sighted i) (call.observer.sighted i) handle call.target left
      height).Tracks (view i) (Upkeeps call id i) (fun k x => Ends call id x k) (fun _ => True)
      k := by
  induction left generalizing height v k with
  | zero =>
      refine ⟨v, hk.session, hk.faithful, fun outcome houtcome panic => ?_⟩
      cases houtcome
      exact ⟨hk.goesOn, hk.last rfl⟩
  | succ left ih =>
      refine Tracks.bind ((tracks_untilStopped hcall handle hk).mono (fun _ _ h => h)
        fun _ _ => trivial) fun k x hk => ?_
      cases x with
      | error reason => exact hk.fails reason
      | ok result =>
          cases result with
          | failed error => exact hk.fails error
          | panicked p => exact ⟨v, hk.session, hk.faithful, fun _ h => nomatch h⟩
          | scanned =>
              refine Tracks.bind (tracks_perform (Q := fun k outcome => match outcome with
                | some outcome => Ends call id (.ok outcome) k
                | none => Stands call id left (height + 1) { v with current := height } k) ?_)
                fun k outcome hk => ?_
              · rintro e rfl
                exact stands_reportScan hcall hk
              · cases outcome with
                | some outcome => exact hk
                | none => exact ih hk

/-! ## A whole rescan -/

/-- Scanner and observer leave the slot alone if they do without being looked after. -/
theorem leavesSlot_sighted (hcall : call.LeavesSlot) : (call.sighted i).LeavesSlot where
  scan height := by
    refine Under.bind (under_update fun _ _ => rfl) fun _ => Under.bind ?_ fun _ =>
      Under.bind (under_update fun _ _ => rfl) fun _ => trivial
    refine (hcall.scan height).lift ?_ ?_
    · exact fun _ h => h
    · exact fun _ _ _ h => h
  onScan height e h := hcall.onScan height e.unsighted h
  onEnd height cancelled e h := hcall.onEnd height cancelled e.unsighted h
  onError code message e h := hcall.onError code message e.unsighted h

/-- The end is told in one call, in which the slot is as before. -/
theorem sights_tell (observer : ScanObserver χ) (outcome : RescanOutcome)
    (e : Engine (Sighted ι χ)) :
    (∃ panic, (outcome.tell (observer.sighted i) e).sights i =
      e.sights i ++ [⟨outcome.ending panic, e.slot.active⟩]) ∧
    ∀ j, j ≠ i → (outcome.tell (observer.sighted i) e).sights j = e.sights j := by
  have hown : ∃ (panic : Option Panic) (e' : Engine χ), (outcome.tell (observer.sighted i) e).own =
      ((e'.resighted e).see i (outcome.ending panic) e.slot.active).own := by
    unfold RescanOutcome.tell
    cases outcome with
    | completed height =>
        rcases hcalled : observer.onEnd height false e.unsighted with ⟨panic, e'⟩
        refine ⟨panic, e', ?_⟩
        simp only [ScanObserver.sighted, hcalled]
        split <;> rfl
    | cancelled height =>
        rcases hcalled : observer.onEnd height true e.unsighted with ⟨panic, e'⟩
        refine ⟨panic, e', ?_⟩
        simp only [ScanObserver.sighted, hcalled]
        split <;> rfl
    | failed code message =>
        rcases hcalled : observer.onError code message e.unsighted with ⟨panic, e'⟩
        refine ⟨panic, e', ?_⟩
        simp only [ScanObserver.sighted, hcalled]
        split <;> rfl
  rcases hown with ⟨panic, e', hown⟩
  refine ⟨⟨panic, ?_⟩, fun j hj => ?_⟩
  · rw [sights, hown]
    exact sights_see_self ..
  · rw [sights, hown]
    exact sights_see_other hj ..

/-- To tell the end is the last thing that is seen of a rescan. -/
theorem upkeeps_tell (hcall : call.LeavesSlot) {outcome : RescanOutcome}
    {e : Engine (Sighted ι χ)} (h : Ends call id (.ok outcome) (e.view i)) :
    Upkeeps call id i e (outcome.tell (call.observer.sighted i) e) := by
  rcases h with ⟨v, hsession, hfaithful, hagrees⟩
  have hactive : e.slot.active = some v := hsession
  have hslot := slot_tell (leavesSlot_sighted (i := i) hcall) outcome
    (show e.slot.active.isSome = true by rw [hactive]; rfl)
  rcases sights_tell (i := i) call.observer outcome e with ⟨⟨panic, hsights⟩, hothers⟩
  have hquiet : (outcome.ending panic).stops = false ∧
      ∀ height, (outcome.ending panic).reached height = height := by
    cases outcome <;> exact ⟨rfl, fun _ => rfl⟩
  have hconcat := hfaithful.concat_quiet hsession (hagrees outcome rfl panic) hquiet.1 hquiet.2
  refine .of_concat ?_ hsights hothers
  have hview : (outcome.tell (call.observer.sighted i) e).view i =
      ⟨some v, e.sights i ++ [⟨outcome.ending panic, some v⟩]⟩ := by
    rw [view, hsights, hactive]
    exact congrArg (RescanView.mk · _) ((congrArg RescanSlot.active hslot).trans hactive)
  rw [hview]
  exact hconcat

/-- A rescan that has the slot, from its claim to its end. -/
theorem tracks_held (hcall : call.LeavesSlot) {v : RescanSession} {k : RescanView}
    (hk : Stands call id (blockCount call.start call.target) call.start v k) :
    (held (call.sighted i) id).Tracks (view i) (Upkeeps call id i) (fun _ _ => True)
      (fun _ => True) k := by
  have hrange : (scanRange (call.scan.sighted i) (call.observer.sighted i) call.handle call.start
      call.target).Tracks (view i) (Upkeeps call id i) (fun k x => Ends call id x k) (fun _ => True)
      k := by
    unfold scanRange
    split
    · refine Tracks.bind (tracks_update (Q := fun k _ => Stands call id
        (blockCount call.start call.target) call.start v k) ?_) fun k _ hk =>
          tracks_scanFrom hcall _ hk
      rintro e rfl
      exact ⟨⟨fun h => h, List.prefix_refl _, fun _ _ => rfl⟩, hk⟩
    · exact tracks_scanFrom hcall _ hk
  refine Tracks.ensuring Upkeeps.refl (fun _ _ h => h.release) (fun _ _ _ => trivial)
    (fun _ _ => trivial) (Tracks.around ?_ ?_ ?_ (hrange.bind (P := fun _ _ => True)
      fun k x hk => ?_))
  · exact fun _ => rfl
  · exact fun _ => rfl
  · exact fun _ _ h => ⟨h.faithful, h.grows, h.others⟩
  · cases x with
    | error p => trivial
    | ok outcome =>
        refine Tracks.bind (tracks_update (Q := fun _ _ => True) ?_) fun _ _ _ => trivial
        rintro e rfl
        have htold := upkeeps_tell hcall (e := e.note [outcome.line]) hk
        exact ⟨⟨htold.faithful, htold.grows, htold.others⟩, trivial⟩

end Engine

end ChainSync
