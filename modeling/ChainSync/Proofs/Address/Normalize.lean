import ChainSync.Address.Normalize
import ChainSync.Proofs.Address.Ipv6
import ChainSync.Proofs.Address.Joining
import Mathlib.Data.List.TakeWhile

/-!
# Addresses with a Port

What becomes of an address when it is given a port.

An address that has a port is taken apart and joined again. One that has none is
joined with the default port as it stands, and the result must be an address.
Nothing keeps the two parts of that result from being others than the two that
were joined: neither has been looked at, and both may hold colons and brackets.
`forms_of_join` finds all ways in which that can come out. Mostly the parts are
the same. An address in brackets loses them, since they belong to the bracketed
form. And a bracket that the address opens may be closed by the default port,
which then supplies some of the host.

Joining brackets a host exactly when it holds a colon, so the brackets around a
host without one are kept when a port is added, and are gone when the result is
joined again. Brackets around a host that holds a colon are not seen for what
they are when a port is added: a second pair is put around them, and that is no
address.

## Main definitions

* `IsLiteral`: An IPv6 literal, with or without a zone.

## Theorems

* `isLiteral_iff`: Which hosts are taken for literals.
* `forms_of_join`: The parts of what has been joined.
* `normalize_ok_iff`, `normalize_error`: What a normalised address is.
* `normalize_again`: Normalising twice.
* `normalized_address_splits`: The parts of a normalised address.
* `missing_port_is_added`: Which hosts get a port.
-/

namespace ChainSync.Address

variable {c : Char} {a b x y : List Char} {address defaultPort host port s : String}

/-! ## Cutting what has been joined -/

/-- A text that is cut in front of the first of some characters, and once more:
    the second cut is the same or lies behind it. -/
theorem append_cons_cases (ha : c ∉ a) (h : b ++ c :: y = a ++ c :: x) :
    b = a ∧ y = x ∨ ∃ r, b = a ++ c :: r ∧ x = r ++ c :: y := by
  rcases List.append_eq_append_iff.mp h with ⟨as, hb, hx⟩ | ⟨bs, hb, hx⟩
  · cases as with
    | nil =>
        rw [List.nil_append, List.cons.injEq] at hx
        rw [List.append_nil] at hb
        exact .inl ⟨hb.symm, hx.2⟩
    | cons d as =>
        -- The first cut would lie behind an occurrence.
        rw [List.cons_append, List.cons.injEq] at hx
        rw [hb, ← hx.1] at ha
        exact absurd (List.mem_append_right b List.mem_cons_self) ha
  · cases bs with
    | nil =>
        rw [List.nil_append, List.cons.injEq] at hx
        rw [List.append_nil] at hb
        exact .inl ⟨hb, hx.2.symm⟩
    | cons d bs =>
        rw [List.cons_append, List.cons.injEq] at hx
        rw [← hx.1] at hb
        exact .inr ⟨bs, hb, hx.2⟩

theorem eq_opened_iff {whole part : String} :
    whole = "[" ++ part ↔ whole.toList = '[' :: part.toList := by
  rw [← String.toList_inj, String.toList_append]
  rfl

theorem eq_brackets_iff {whole part : String} :
    whole = "[" ++ part ++ "]" ↔ whole.toList = '[' :: part.toList ++ [']'] := by
  rw [← String.toList_inj, String.toList_append, String.toList_append]
  rfl

/-- A text in brackets that is cut in front of a character other than the two:
    each side keeps one bracket. -/
theorem bracket_opens {h r : List Char} (hcut : '[' :: h ++ [']'] = a ++ ':' :: r) :
    ∃ front back, a = '[' :: front ∧ r = back ++ [']'] ∧ h = front ++ ':' :: back := by
  cases a with
  | nil =>
      rw [List.cons_append, List.nil_append, List.cons.injEq] at hcut
      exact absurd hcut.1 (by decide)
  | cons x front =>
      rw [List.cons_append, List.cons_append, List.cons.injEq] at hcut
      rcases List.eq_nil_or_concat r with rfl | ⟨back, y, rfl⟩
      · exact absurd (List.append_inj_right' hcut.2 rfl) (by decide)
      · rw [List.concat_eq_append] at hcut ⊢
        have hsplit : h ++ [']'] = (front ++ ':' :: back) ++ [y] := by
          rw [hcut.2, List.append_assoc]
          rfl
        have hends := List.append_inj' hsplit rfl
        rw [List.cons.injEq] at hends
        exact ⟨front, back, by rw [hcut.1], by rw [hends.2.1], hends.1⟩

/-- Brackets that are put around an address are the ones that are found. -/
theorem forms_of_bracketed (h : Forms host port ("[" ++ address ++ "]:" ++ defaultPort)) :
    host = address ∧ port = defaultPort := by
  have hjoined : ("[" ++ address ++ "]:" ++ defaultPort).toList =
      '[' :: address.toList ++ ']' :: ':' :: defaultPort.toList := eq_bracketed_iff.mp rfl
  rcases h with ⟨⟨heq, hhost⟩ | ⟨heq, hhost⟩, hport⟩
  · -- A plain host does not begin with a bracket.
    have hopen : '[' ∉ host.toList := (free_cons_iff.mp (free_cons_iff.mp hhost).2).1
    have hchars := hjoined.symm.trans (eq_plain_iff.mp heq)
    cases hx : host.toList with
    | nil =>
        rw [hx, List.nil_append, List.cons_append, List.cons.injEq] at hchars
        exact absurd hchars.1 (by decide)
    | cons x rest =>
        rw [hx, List.cons_append, List.cons_append, List.cons.injEq] at hchars
        rw [hx, ← hchars.1] at hopen
        exact absurd List.mem_cons_self hopen
  · -- The bracket that was put there is the first that closes.
    have hclose : ']' ∉ host.toList := (free_cons_iff.mp (free_cons_iff.mp hhost).2).1
    have hport' : ']' ∉ port.toList :=
      (free_cons_iff.mp (free_cons_iff.mp (free_cons_iff.mp hport).2).2).1
    have hchars := hjoined.symm.trans (eq_bracketed_iff.mp heq)
    rw [List.cons_append, List.cons_append, List.cons.injEq] at hchars
    rcases append_cons_cases hclose hchars.2 with ⟨hsame, htail⟩ | ⟨r, _, htail⟩
    · rw [List.cons.injEq] at htail
      exact ⟨(String.toList_inj.mp hsame).symm, (String.toList_inj.mp htail.2).symm⟩
    · have hmem : ']' ∈ ':' :: port.toList :=
        htail ▸ List.mem_append_right r List.mem_cons_self
      exact absurd ((List.mem_cons.mp hmem).resolve_left (by decide)) hport'

/-- A port that is put behind an address without a colon may come to stand within
    brackets. -/
theorem forms_of_plain (hcolon : ':' ∉ address.toList)
    (h : Forms host port (address ++ ":" ++ defaultPort)) :
    port = defaultPort ∧ (host = address ∨ address = "[" ++ host ++ "]" ∧ ':' ∉ host.toList) ∨
      ∃ front back, address = "[" ++ front ∧ defaultPort = back ++ "]:" ++ port ∧
        host = front ++ ":" ++ back := by
  have hjoined : (address ++ ":" ++ defaultPort).toList =
      address.toList ++ ':' :: defaultPort.toList := eq_plain_iff.mp rfl
  rcases h with ⟨⟨heq, hhost⟩ | ⟨heq, hhost⟩, hport⟩
  · have hchars := (eq_plain_iff.mp heq).symm.trans hjoined
    rcases append_cons_cases hcolon hchars with ⟨hsame, htail⟩ | ⟨r, hhead, _⟩
    · exact .inl ⟨String.toList_inj.mp htail, .inl (String.toList_inj.mp hsame)⟩
    · have hmem : ':' ∈ host.toList := hhead ▸ List.mem_append_right _ List.mem_cons_self
      exact absurd hmem (free_cons_iff.mp hhost).1
  · -- The first colon is the one behind the address. It is behind the host, too, or
    -- the host goes on behind it.
    have hchars : ('[' :: host.toList ++ [']']) ++ ':' :: port.toList =
        address.toList ++ ':' :: defaultPort.toList := by
      rw [List.append_assoc]
      exact (eq_bracketed_iff.mp heq).symm.trans hjoined
    rcases append_cons_cases hcolon hchars with ⟨hsame, htail⟩ | ⟨r, hhead, htail⟩
    · have haddress : address = "[" ++ host ++ "]" := eq_brackets_iff.mpr hsame.symm
      refine .inl ⟨String.toList_inj.mp htail, .inr ⟨haddress, fun hmem => hcolon ?_⟩⟩
      rw [← hsame]
      exact List.mem_append_left _ (List.mem_cons_of_mem _ hmem)
    · rcases bracket_opens hhead with ⟨front, back, hfront, rfl, hboth⟩
      refine .inr ⟨.ofList front, .ofList back, ?_, ?_, ?_⟩
      · rw [eq_opened_iff, hfront, String.toList_ofList]
      · rw [← String.toList_inj, htail, String.toList_append, String.toList_append,
          String.toList_ofList, List.append_assoc, List.append_assoc]
        rfl
      · rw [eq_plain_iff, hboth, String.toList_ofList, String.toList_ofList]

/-- Where the parts of what has been joined come from. They are the two that
    were joined, or an address in brackets has lost them, or the default port
    closes a bracket that the address opens. -/
theorem forms_of_join (h : Forms host port (join address defaultPort)) :
    port = defaultPort ∧ (host = address ∨ address = "[" ++ host ++ "]" ∧ ':' ∉ host.toList) ∨
      ∃ front back, address = "[" ++ front ∧ defaultPort = back ++ "]:" ++ port ∧
        host = front ++ ":" ++ back := by
  by_cases hcolon : ':' ∈ address.toList
  · rw [join, if_pos hcolon] at h
    exact .inl ⟨(forms_of_bracketed h).2, .inl (forms_of_bracketed h).1⟩
  · rw [join, if_neg hcolon] at h
    exact forms_of_plain hcolon h

/-! ## Literals -/

/-- An IPv6 literal, or one with a zone. -/
def IsLiteral (host : String) : Prop :=
  ∃ ip : String, isIpv6 ip.toList = true ∧
    (host = ip ∨ ∃ zone, host = ip ++ "%" ++ zone ∧ Free ['[', ']'] zone)

theorem takeWhile_of_not_mem (h : c ∉ a) : a.takeWhile (· ≠ c) = a := by
  refine List.takeWhile_eq_self_iff.mpr fun x hx => decide_eq_true ?_
  rintro rfl
  exact h hx

theorem takeWhile_append_cons (h : c ∉ a) : (a ++ c :: b).takeWhile (· ≠ c) = a := by
  have hfront : ∀ x ∈ a, decide (x ≠ c) = true :=
    List.takeWhile_eq_self_iff.mp (takeWhile_of_not_mem h)
  rw [List.takeWhile_append_of_pos hfront, List.takeWhile_cons_of_neg, List.append_nil]
  simp only [ne_eq, not_true_eq_false, decide_false, Bool.false_eq_true, not_false_eq_true]

theorem eq_zoned_iff {ip zone : String} :
    host = ip ++ "%" ++ zone ↔ host.toList = ip.toList ++ '%' :: zone.toList := by
  rw [← String.toList_inj, String.toList_append, String.toList_append, List.append_assoc]
  rfl

/-- No character of a literal is one of those that literals are not spelled
    with. -/
theorem not_mem_of_isIpv6 (h : isIpv6 a = true) (hc : isLiteralChar c = false) : c ∉ a :=
  fun hmem => Bool.false_ne_true (hc.symm.trans ((isIpv6_spec h).1 c hmem))

/-- A host without brackets is taken for a literal exactly when it is one. -/
theorem isLiteral_iff : IsLiteral host ↔ isIpv6Host host = true ∧ Free ['[', ']'] host := by
  unfold isIpv6Host
  simp only [free_cons_iff, free_nil, and_true]
  constructor
  · rintro ⟨ip, hip, hhost⟩
    have hzone : '%' ∉ ip.toList := not_mem_of_isIpv6 hip (by decide)
    have hopen : '[' ∉ ip.toList := not_mem_of_isIpv6 hip (by decide)
    have hclose : ']' ∉ ip.toList := not_mem_of_isIpv6 hip (by decide)
    rcases hhost with rfl | ⟨zone, hzoned, hfree⟩
    · rw [takeWhile_of_not_mem hzone]
      exact ⟨hip, hopen, hclose⟩
    · rw [eq_zoned_iff.mp hzoned, takeWhile_append_cons hzone]
      simp only [free_cons_iff, free_nil, and_true] at hfree
      refine ⟨hip, ?_, ?_⟩ <;>
        simp only [List.mem_append, List.mem_cons, hopen, hclose, hfree, Char.reduceEq, or_self,
          not_false_eq_true]
  · rintro ⟨hip, hopen, hclose⟩
    by_cases hzone : '%' ∈ host.toList
    · rcases List.eq_append_cons_of_mem hzone with ⟨ip, zone, hhost, hfirst⟩
      rw [hhost, takeWhile_append_cons hfirst] at hip
      refine ⟨.ofList ip, by rwa [String.toList_ofList], .inr ⟨.ofList zone, ?_, ?_⟩⟩
      · rw [eq_zoned_iff, hhost, String.toList_ofList, String.toList_ofList]
      · have hpart : ∀ {x}, x ∈ zone → x ∈ host.toList := fun hx =>
          hhost ▸ List.mem_append_right ip (List.mem_cons_of_mem _ hx)
        rw [free_cons_iff, free_cons_iff, String.toList_ofList]
        exact ⟨fun hx => hopen (hpart hx), fun hx => hclose (hpart hx), free_nil _⟩
    · rw [takeWhile_of_not_mem hzone] at hip
      exact ⟨host, hip, .inl rfl⟩

/-! ## What a normalised address is -/

theorem not_forms_of_error {e : Error} (h : split address = .error e) : ¬Forms host port address :=
  fun hforms => absurd (h.symm.trans (split_ok_iff.mpr hforms))
    (by simp only [reduceCtorEq, not_false_eq_true])

/-- The two ways to get a normalised address. -/
theorem normalize_ok_iff :
    normalize address defaultPort = .ok s ↔
      (∃ host port, Forms host port address ∧ s = join host port) ∨
        (∃ e, split address = .error e) ∧ s = join address defaultPort ∧
          ∃ host port, Forms host port s ∧ (':' ∈ host.toList → IsLiteral host) := by
  unfold normalize
  cases hsplit : split address with
  | ok parts =>
      have hforms := split_ok_iff.mp hsplit
      simp only [Except.ok.injEq, reduceCtorEq, exists_false, false_and, or_false]
      constructor
      · rintro rfl
        exact ⟨parts.host, parts.port, hforms, rfl⟩
      · rintro ⟨host, port, hother, rfl⟩
        rw [Except.ok.inj (hsplit.symm.trans (split_ok_iff.mpr hother))]
  | error e =>
      simp only [Except.error.injEq, exists_eq', true_and]
      rw [or_iff_right fun ⟨_, _, hforms, _⟩ => not_forms_of_error hsplit hforms]
      cases hjoined : split (join address defaultPort) with
      | error e' =>
          simp only [reduceCtorEq, false_iff]
          rintro ⟨rfl, host, port, hforms, _⟩
          exact not_forms_of_error hjoined hforms
      | ok parts =>
          have hforms := split_ok_iff.mp hjoined
          simp only [ite_error_eq_ok_iff, Except.ok.injEq, not_and, Decidable.not_not]
          constructor
          · rintro ⟨hliteral, rfl⟩
            refine ⟨rfl, parts.host, parts.port, hforms, fun hcolon => ?_⟩
            exact isLiteral_iff.mpr ⟨hliteral hcolon, hforms.free_host⟩
          · rintro ⟨rfl, host, port, hother, hliteral⟩
            rw [Except.ok.inj (hjoined.symm.trans (split_ok_iff.mpr hother))]
            exact ⟨fun hcolon => (isLiteral_iff.mp (hliteral hcolon)).1, rfl⟩

/-- An address that is refused is refused for what is wrong with it as it
    stands. -/
theorem normalize_error {e : Error} (h : normalize address defaultPort = .error e) :
    split address = .error e := by
  unfold normalize at h
  cases hsplit : split address with
  | ok parts => simp only [hsplit, reduceCtorEq] at h
  | error e' =>
      simp only [hsplit] at h
      cases hjoined : split (join address defaultPort) with
      | error _ =>
          simp only [hjoined, Except.error.injEq] at h
          rw [h]
      | ok parts =>
          simp only [hjoined] at h
          by_cases hhost : ':' ∈ parts.host.toList ∧ ¬isIpv6Host parts.host
          · rw [if_pos hhost, Except.error.injEq] at h
            rw [h]
          · rw [if_neg hhost] at h
            exact absurd h (by simp only [reduceCtorEq, not_false_eq_true])

/-- An address that has a port is joined from its parts, whatever the default
    port. -/
theorem normalize_of_forms (h : Forms host port address) (defaultPort : String) :
    normalize address defaultPort = .ok (join host port) :=
  normalize_ok_iff.mpr (.inl ⟨host, port, h, rfl⟩)

theorem split_error_of_not_forms (h : ∀ host port, ¬Forms host port address) :
    ∃ e, split address = .error e := by
  cases hsplit : split address with
  | error e => exact ⟨e, rfl⟩
  | ok parts => exact absurd (split_ok_iff.mp hsplit) (h parts.host parts.port)

theorem colon_mem_of_forms (h : Forms host port address) : ':' ∈ address.toList := by
  rcases h.1 with ⟨haddress, _⟩ | ⟨haddress, _⟩
  · rw [eq_plain_iff.mp haddress]
    exact List.mem_append_right _ List.mem_cons_self
  · rw [eq_bracketed_iff.mp haddress]
    exact List.mem_append_right _ (List.mem_cons_of_mem _ List.mem_cons_self)

theorem colon_mem_brackets_iff :
    ':' ∈ ("[" ++ host ++ "]").toList ↔ ':' ∈ host.toList := by
  rw [eq_brackets_iff.mp rfl]
  simp only [List.cons_append, List.mem_cons, List.mem_append, List.not_mem_nil, Char.reduceEq,
    false_or, or_false]

theorem join_brackets (h : ':' ∉ host.toList) :
    join ("[" ++ host ++ "]") port = "[" ++ host ++ "]:" ++ port := by
  rw [join, if_neg (fun hmem => h (colon_mem_brackets_iff.mp hmem)), eq_bracketed_iff,
    eq_plain_iff.mp rfl, eq_brackets_iff.mp rfl, List.append_assoc]
  rfl

/-- The parts of what has been joined of a host in brackets and a port: none
    when the host holds a colon. -/
theorem forms_of_join_brackets {inner : String}
    (h : Forms host port (join ("[" ++ inner ++ "]") defaultPort)) :
    host = inner ∧ port = defaultPort ∧ ':' ∉ inner.toList := by
  have hbrackets : ("[" ++ inner ++ "]").toList = '[' :: inner.toList ++ [']'] :=
    eq_brackets_iff.mp rfl
  have hfree := free_cons_iff.mp h.free_host
  rcases forms_of_join h with ⟨hport, rfl | ⟨hinner, hcolon⟩⟩ | ⟨front, back, hfront, _, hhost⟩
  · rw [hbrackets] at hfree
    exact absurd List.mem_cons_self hfree.1
  · have hchars := hbrackets.symm.trans (eq_brackets_iff.mp hinner)
    have hsame := List.append_cancel_right (List.cons.inj hchars).2
    rw [String.toList_inj.mp hsame]
    exact ⟨rfl, hport, hcolon⟩
  · -- The bracket behind the host would stand within what the port completes.
    have hclose : ']' ∈ front.toList := by
      rw [eq_opened_iff, hbrackets] at hfront
      rw [← (List.cons.inj hfront).2]
      exact List.mem_append_right _ List.mem_cons_self
    refine absurd ?_ (free_cons_iff.mp hfree.2).1
    rw [eq_plain_iff.mp hhost]
    exact List.mem_append_left _ hclose

/-! ## Normalising twice -/

/-- Normalising a normalised address does nothing, whatever the default port,
    unless a port has been added behind brackets around a host without a colon.
    They are taken off the second time, and then it does nothing any more. -/
theorem normalize_again (h : normalize address defaultPort = .ok s) :
    ((∀ host, Free [':', '[', ']'] host → address ≠ "[" ++ host ++ "]") →
      ∀ other, normalize s other = .ok s) ∧
    ∀ host, Free [':', '[', ']'] host → address = "[" ++ host ++ "]" →
      s = "[" ++ host ++ "]:" ++ defaultPort ∧
        ∀ other, normalize s other = .ok (host ++ ":" ++ defaultPort) ∧
          ∀ third, normalize (host ++ ":" ++ defaultPort) third =
            .ok (host ++ ":" ++ defaultPort) := by
  rcases normalize_ok_iff.mp h with ⟨host, port, hforms, rfl⟩ | ⟨_, rfl, host, port, hforms, _⟩
  · constructor
    · -- The parts are joined as they were the first time.
      intro _ other
      exact normalize_of_forms (forms_join hforms.free_host hforms.2) other
    · rintro inner hinner rfl
      have hcolon := colon_mem_brackets_iff.mp (colon_mem_of_forms hforms)
      exact absurd hcolon (free_cons_iff.mp hinner).1
  · constructor
    · intro hplain other
      rw [normalize_of_forms hforms other]
      rcases forms_of_join hforms with ⟨rfl, rfl | ⟨haddress, hcolon⟩⟩ | ⟨front, back, _, _, hhost⟩
      · rfl
      · exact absurd haddress (hplain host (free_cons_iff.mpr ⟨hcolon, hforms.free_host⟩))
      · -- A host that the default port completes holds a colon, so it stays in brackets.
        have hmem : ':' ∈ host.toList :=
          eq_plain_iff.mp hhost ▸ List.mem_append_right _ List.mem_cons_self
        rcases hforms.join_eq with heq | ⟨_, hcolon⟩
        · rw [heq]
        · exact absurd hmem hcolon
    · rintro inner hinner rfl
      have hcolon := (free_cons_iff.mp hinner).1
      rcases forms_of_join_brackets hforms with ⟨rfl, rfl, _⟩
      have hbare : join host port = host ++ ":" ++ port := if_neg hcolon
      refine ⟨join_brackets hcolon, fun other => ⟨?_, fun third => ?_⟩⟩
      · rw [normalize_of_forms hforms other, hbare]
      · have hagain := normalize_of_forms (forms_join hforms.free_host hforms.2) third
        rwa [hbare] at hagain

/-- A host in brackets with no port is joined as it is, and one that holds no
    colon is rewritten by the second run. -/
theorem normalize_again_brackets :
    normalize "[host]" "80" = .ok "[host]:80" ∧ normalize "[host]:80" "9108" = .ok "host:80" ∧
      normalize "host:80" "9108" = .ok "host:80" := by
  have hfirst : normalize "[host]" "80" = .ok "[host]:80" := rfl
  have hhost : Free [':', '[', ']'] "host" := free_of_all (by decide)
  have hagain := ((normalize_again hfirst).2 "host" hhost rfl).2 "9108"
  exact ⟨hfirst, hagain.1, hagain.2 "9108"⟩

theorem brackets_go_the_second_time :
    normalize "[host]" "80" = .ok "[host]:80" ∧ normalize "[host]:80" "9108" ≠ .ok "[host]:80" := by
  have hagain : normalize "[host]:80" "9108" = .ok "host:80" := rfl
  refine ⟨rfl, ?_⟩
  rw [hagain]
  decide

/-! ## The parts of a normalised address -/

/-- A normalised address has the parts of the address, if it has a port. Else
    the port is the default one and the host is the address, or the address
    without the brackets around it, unless the default port closes a bracket
    that the address opens. A host with colons is a literal then. -/
theorem normalized_address_splits (address defaultPort : String) :
    (∀ s, normalize address defaultPort = .ok s →
      ∃ parts, split s = .ok parts ∧
        (split address = .ok parts ∧ (∀ other, normalize address other = .ok s) ∨
          (∃ e, split address = .error e) ∧
            (':' ∈ parts.host.toList → IsLiteral parts.host) ∧
            (parts.port = defaultPort ∧
                (parts.host = address ∨ address = "[" ++ parts.host ++ "]") ∨
              ∃ front back, address = "[" ++ front ∧ defaultPort = back ++ "]:" ++ parts.port ∧
                parts.host = front ++ ":" ++ back))) ∧
      ∀ e, normalize address defaultPort = .error e → split address = .error e := by
  refine ⟨fun s hs => ?_, fun e he => normalize_error he⟩
  rcases normalize_ok_iff.mp hs with
    ⟨host, port, hforms, rfl⟩ | ⟨hsplit, rfl, host, port, hforms, hliteral⟩
  · refine ⟨⟨host, port⟩, split_ok_iff.mpr (forms_join hforms.free_host hforms.2), .inl ?_⟩
    exact ⟨split_ok_iff.mpr hforms, normalize_of_forms hforms⟩
  · refine ⟨⟨host, port⟩, split_ok_iff.mpr hforms, .inr ⟨hsplit, hliteral, ?_⟩⟩
    rcases forms_of_join hforms with ⟨hport, hhost⟩ | hcloses
    · exact .inl ⟨hport, hhost.imp_right And.left⟩
    · exact .inr hcloses

/-- An address that gets the port, and one that is refused. -/
theorem normalized_address_splits_9108 :
    normalize "::1" "9108" = .ok "[::1]:9108" ∧ (∃ parts, split "[::1]:9108" = .ok parts) ∧
      normalize "[::1" "9108" = .error ⟨"[::1", .missingBracket⟩ ∧
      split "[::1" = .error ⟨"[::1", .missingBracket⟩ := by
  have hok : normalize "::1" "9108" = .ok "[::1]:9108" := rfl
  have herror : normalize "[::1" "9108" = .error ⟨"[::1", .missingBracket⟩ := rfl
  rcases (normalized_address_splits "::1" "9108").1 _ hok with ⟨parts, hparts, _⟩
  exact ⟨hok, ⟨parts, hparts⟩, herror, (normalized_address_splits "[::1" "9108").2 _ herror⟩

/-- A default port that closes the bracket of an address is not the port of
    what they are joined to. -/
theorem default_port_closes_bracket :
    (∃ e, split "[fe80" = .error e) ∧ normalize "[fe80" ":1]:80" = .ok "[fe80::1]:80" ∧
      split "[fe80::1]:80" = .ok ⟨"fe80::1", "80"⟩ ∧ "80" ≠ ":1]:80" := by
  have hopened : ':' ∉ "[fe80".toList := by decide
  have herror := split_error_of_not_forms fun _ _ hforms => hopened (colon_mem_of_forms hforms)
  have hjoin : "[fe80::1]:80" = join "[fe80" ":1]:80" := by decide
  have hforms : Forms "fe80::1" "80" "[fe80::1]:80" :=
    ⟨.inr ⟨by decide, free_of_all (by decide)⟩, free_of_all (by decide)⟩
  have hliteral : IsLiteral "fe80::1" := ⟨"fe80::1", by decide, .inl rfl⟩
  refine ⟨herror, normalize_ok_iff.mpr (.inr ⟨herror, hjoin, _, _, hforms, fun _ => hliteral⟩), ?_⟩
  exact ⟨split_ok_iff.mpr hforms, by decide⟩

/-! ## Addresses that lack a port -/

/-- A literal without a port is no address: it holds two colons outside
    brackets. -/
theorem not_forms_literal (h : IsLiteral address) : ¬Forms host port address := by
  intro hforms
  have hfree := (isLiteral_iff.mp h).2
  rcases hforms.1 with ⟨haddress, hhost⟩ | ⟨haddress, _⟩
  · have hcolons : address.toList.count ':' = 1 := by
      rw [eq_plain_iff.mp haddress, List.count_append, List.count_cons_self,
        List.count_eq_zero.mpr (free_cons_iff.mp hhost).1,
        List.count_eq_zero.mpr (free_cons_iff.mp hforms.2).1]
    rcases h with ⟨ip, hip, hspelled⟩
    have htwo := (isIpv6_spec hip).2
    have hle : ip.toList.count ':' ≤ address.toList.count ':' := by
      rcases hspelled with rfl | ⟨zone, hzoned, _⟩
      · exact Nat.le_refl _
      · rw [eq_zoned_iff.mp hzoned, List.count_append]
        exact Nat.le_add_right _ _
    omega
  · refine (free_cons_iff.mp hfree).1 ?_
    rw [eq_bracketed_iff.mp haddress]
    exact List.mem_cons_self

theorem IsLiteral.colon_mem (h : IsLiteral host) : ':' ∈ host.toList := by
  rcases h with ⟨ip, hip, hspelled⟩
  have hcolon : ':' ∈ ip.toList :=
    List.count_pos_iff.mp (Nat.lt_of_lt_of_le Nat.zero_lt_two (isIpv6_spec hip).2)
  rcases hspelled with rfl | ⟨zone, hzoned, _⟩
  · exact hcolon
  · rw [eq_zoned_iff.mp hzoned]
    exact List.mem_append_left _ hcolon

/-- A host in brackets lacks a port, with or without colons. -/
theorem split_brackets (hhost : Free ['[', ']'] host) :
    split ("[" ++ host ++ "]") = .error ⟨"[" ++ host ++ "]", .missingPort⟩ := by
  have hclose : ']' ∉ host.toList := (free_cons_iff.mp (free_cons_iff.mp hhost).2).1
  have hchars : splitChars ("[" ++ host ++ "]").toList = .error .missingPort := by
    rw [eq_brackets_iff.mp rfl, List.cons_append]
    cases hlast : splitAtLast ':' ('[' :: (host.toList ++ [']'])) with
    | none => simp only [splitChars, hlast]
    | some found =>
        rw [splitChars_bracketed hlast, splitBracketed, splitAtFirst_append hclose]
  rw [split, hchars]

/-- A host in brackets gets a port exactly when it holds no colon. -/
theorem normalize_brackets (hhost : Free ['[', ']'] host) (hport : Free [':', '[', ']'] port) :
    normalize ("[" ++ host ++ "]") port =
      if ':' ∈ host.toList then .error ⟨"[" ++ host ++ "]", .missingPort⟩
      else .ok ("[" ++ host ++ "]:" ++ port) := by
  by_cases hcolon : ':' ∈ host.toList
  · -- The port is put behind a second pair of brackets.
    rw [if_pos hcolon]
    cases hnormal : normalize ("[" ++ host ++ "]") port with
    | error e =>
        have herror := (split_brackets hhost).symm.trans (normalize_error hnormal)
        rw [Except.error.inj herror]
    | ok s =>
        rcases normalize_ok_iff.mp hnormal with ⟨_, _, hforms, _⟩ | ⟨_, rfl, _, _, hforms, _⟩
        · exact absurd hforms (not_forms_of_error (split_brackets hhost))
        · exact absurd hcolon (forms_of_join_brackets hforms).2.2
  · rw [if_neg hcolon, ← join_brackets hcolon]
    refine normalize_ok_iff.mpr
      (.inr ⟨⟨_, split_brackets hhost⟩, rfl, host, port, ?_, fun hmem => absurd hmem hcolon⟩)
    rw [join_brackets hcolon]
    exact ⟨.inr ⟨rfl, hhost⟩, hport⟩

/-- A port is added to a host without colons and brackets and to a literal, zone
    or not, if there are no colons and brackets in the port. It is added to a
    host in brackets, too, when it holds no colon. When it does, the address is
    said to lack a port. -/
theorem missing_port_is_added (port : String) (hport : Free [':', '[', ']'] port) :
    (∀ host, Free [':', '[', ']'] host → normalize host port = .ok (host ++ ":" ++ port)) ∧
    (∀ host, IsLiteral host → normalize host port = .ok ("[" ++ host ++ "]:" ++ port)) ∧
    ∀ host, Free ['[', ']'] host → normalize ("[" ++ host ++ "]") port =
      if ':' ∈ host.toList then .error ⟨"[" ++ host ++ "]", .missingPort⟩
      else .ok ("[" ++ host ++ "]:" ++ port) := by
  refine ⟨fun host hhost => ?_, fun host hliteral => ?_, fun host hhost => ?_⟩
  · have hcolon := (free_cons_iff.mp hhost).1
    have hbare : join host port = host ++ ":" ++ port := if_neg hcolon
    have herror := split_error_of_not_forms fun _ _ hforms => hcolon (colon_mem_of_forms hforms)
    rw [← hbare]
    refine normalize_ok_iff.mpr (.inr ⟨herror, rfl, host, port, ?_, fun hmem => absurd hmem hcolon⟩)
    exact forms_join (free_cons_iff.mp hhost).2 hport
  · have hjoin : join host port = "[" ++ host ++ "]:" ++ port := if_pos hliteral.colon_mem
    have herror := split_error_of_not_forms fun _ _ => not_forms_literal hliteral
    rw [← hjoin]
    refine normalize_ok_iff.mpr (.inr ⟨herror, rfl, host, port, ?_, fun _ => hliteral⟩)
    exact forms_join (isLiteral_iff.mp hliteral).2 hport
  · exact normalize_brackets hhost hport

/-- The three kinds of hosts, and the brackets that are in the way. -/
theorem missing_port_is_added_9108 :
    Free [':', '[', ']'] "9108" ∧ normalize "host" "9108" = .ok "host:9108" ∧
      normalize "fe80::1%eth0" "9108" = .ok "[fe80::1%eth0]:9108" ∧
      normalize "[host]" "9108" = .ok "[host]:9108" ∧
      normalize "[::1]" "9108" = .error ⟨"[::1]", .missingPort⟩ := by
  have hport : Free [':', '[', ']'] "9108" := free_of_all (by decide)
  have hadded := missing_port_is_added "9108" hport
  have hliteral : IsLiteral "fe80::1%eth0" :=
    ⟨"fe80::1", by decide, .inr ⟨"eth0", by decide, free_of_all (by decide)⟩⟩
  have hhost : Free [':', '[', ']'] "host" := free_of_all (by decide)
  exact ⟨hport, hadded.1 "host" hhost, hadded.2.1 "fe80::1%eth0" hliteral,
    hadded.2.2 "host" (free_cons_iff.mp hhost).2, hadded.2.2 "::1" (free_of_all (by decide))⟩

end ChainSync.Address
