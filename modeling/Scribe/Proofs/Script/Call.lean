import Scribe.Script.Call
import Scribe.Proofs.Text.Lines
import Scribe.Proofs.Script.Literal

set_option autoImplicit false

/-! # Where calls stand

What a call in a text, a line that is one call and a written call consist of. A call that is found
in a piece of a text is found in the text too, and a line that is one call leaves nothing open. -/

namespace Scribe

open Text (isIdentChar isIdentStart isGap isWhite)
open Balance (IsClosed IsPlain)

/-! ## Identifiers -/

/-- A text that is one identifier. -/
def IsName (s : Text) : Prop :=
  ∃ c r, s = c :: r ∧ isIdentStart c = true ∧ ∀ d ∈ r, isIdentChar d = true

theorem isIdentChar_of_isIdentStart {c : Char} (h : isIdentStart c = true) :
    isIdentChar c = true := by
  simp only [isIdentStart, isIdentChar, Char.isAlphanum, Bool.or_eq_true] at h ⊢
  rcases h with h | h
  · exact Or.inl (Or.inl h)
  · exact Or.inr h

theorem isIdentStart_of_isDigit {c : Char} (h : c.isDigit = true) : isIdentStart c = false := by
  delta Char.isDigit at h
  simp only [Bool.and_eq_true, decide_eq_true_eq, UInt32.le_iff_toNat_le] at h
  have hhigh : c.toNat ≤ 57 := h.2
  have hne : c ≠ '_' := by
    rintro rfl
    exact absurd hhigh (by decide)
  delta isIdentStart Char.isAlpha Char.isUpper Char.isLower
  simp [UInt32.le_iff_toNat_le, hne]
  omega

theorem IsName.isIdentChar_of_mem {s : Text} (h : IsName s) {c : Char} (hc : c ∈ s) :
    isIdentChar c = true := by
  obtain ⟨d, r, rfl, hd, hr⟩ := h
  rcases List.mem_cons.1 hc with rfl | hc
  · exact isIdentChar_of_isIdentStart hd
  · exact hr c hc

theorem IsName.ne_nil {s : Text} (h : IsName s) : s ≠ [] := by
  obtain ⟨c, r, rfl, _⟩ := h
  exact List.cons_ne_nil c r

theorem isName_name (verb : Verb) : IsName verb.name := by
  cases verb <;> exact ⟨_, _, rfl, by decide, List.all_eq_true.1 (by decide)⟩

theorem isPlain_of_isIdentChar {c : Char} (h : isIdentChar c = true) : IsPlain c := by
  refine ⟨?_, ?_, ?_, ?_, ?_, ?_⟩ <;> rintro rfl <;> exact absurd h (by decide)

theorem isIdentChar_of_isWhite {c : Char} (h : isWhite c = true) : isIdentChar c = false := by
  simp only [isWhite, Bool.or_eq_true, Bool.and_eq_true, decide_eq_true_eq, beq_iff_eq] at h
  delta isIdentChar Char.isAlphanum Char.isAlpha Char.isUpper Char.isLower Char.isDigit
  simp only [Bool.or_eq_false_iff, Bool.and_eq_false_iff, decide_eq_false_iff_not,
    beq_eq_false_iff_ne, ne_eq, ge_iff_le, UInt32.le_iff_toNat_le, ← Char.toNat_val,
    ← Char.toNat_inj] at h ⊢
  refine ⟨⟨⟨?_, ?_⟩, ?_⟩, ?_⟩ <;> simp only [UInt32.reduceToNat, Char.reduceVal] <;> omega

theorem isWhite_of_isGap {c : Char} (h : isGap c = true) : isWhite c = true := by
  simp only [isGap, Bool.or_eq_true, beq_iff_eq] at h
  rcases h with rfl | rfl <;> decide

/-- White space in front of a parenthesis, if any, ends a name. -/
theorem isIdentChar_of_head?_gap {gap rest : Text} (hgap : ∀ c ∈ gap, isWhite c = true) {c : Char}
    (hc : (gap ++ '(' :: rest).head? = some c) : isIdentChar c = false := by
  cases gap with
  | nil =>
    rw [← Option.some.inj hc]
    decide
  | cons d gap =>
    rw [← Option.some.inj hc]
    exact isIdentChar_of_isWhite (hgap d List.mem_cons_self)

/-- An identifier ends where no character of one follows. -/
theorem identifier_append_eq {name rest : Text} (h : IsName name)
    (hrest : ∀ c, rest.head? = some c → isIdentChar c = false) :
    identifier (name ++ rest) = (name, rest) := by
  obtain ⟨c, r, rfl, hc, hr⟩ := h
  have htake : rest.takeWhile isIdentChar = [] ∧ rest.dropWhile isIdentChar = rest := by
    cases rest with
    | nil => exact ⟨rfl, rfl⟩
    | cons d rest => simp [hrest d rfl]
  rw [List.cons_append, identifier, if_pos hc, List.takeWhile_append_of_pos hr,
    List.dropWhile_append_of_pos hr, htake.1, htake.2, List.append_nil]

theorem identifier_eq_nil {c : Char} (h : isIdentStart c = false) (s : Text) :
    identifier (c :: s) = ([], c :: s) := by
  simp [identifier, h]

/-- A text that starts with a name and a parenthesis does so in one way only. -/
theorem eq_of_name_append {name name' gap gap' rest rest' : Text} (hname : IsName name)
    (hname' : IsName name') (hgap : ∀ c ∈ gap, isWhite c = true)
    (hgap' : ∀ c ∈ gap', isWhite c = true)
    (h : name ++ (gap ++ '(' :: rest) = name' ++ (gap' ++ '(' :: rest')) :
    name = name' ∧ rest = rest' := by
  have hident := congrArg identifier h
  rw [identifier_append_eq hname fun c hc => isIdentChar_of_head?_gap hgap hc,
    identifier_append_eq hname' fun c hc => isIdentChar_of_head?_gap hgap' hc,
    Prod.mk.injEq] at hident
  obtain ⟨rfl, hbehind⟩ := hident
  have hdrop := congrArg (List.dropWhile isWhite) hbehind
  rw [List.dropWhile_append_of_pos hgap, List.dropWhile_append_of_pos hgap'] at hdrop
  exact ⟨rfl, (List.cons.inj hdrop).2⟩

/-- A call is taken apart in one way only. -/
theorem eq_of_call_append {name name' gap gap' args args' rest rest' : Text} (hname : IsName name)
    (hname' : IsName name') (hgap : ∀ c ∈ gap, isWhite c = true)
    (hgap' : ∀ c ∈ gap', isWhite c = true)
    (hargs : Balance.argumentList? (args ++ ')' :: rest) = some (args, rest))
    (hargs' : Balance.argumentList? (args' ++ ')' :: rest') = some (args', rest'))
    (h : name ++ (gap ++ '(' :: (args ++ ')' :: rest))
      = name' ++ (gap' ++ '(' :: (args' ++ ')' :: rest'))) :
    name = name' ∧ args = args' ∧ rest = rest' := by
  obtain ⟨rfl, hinner⟩ := eq_of_name_append hname hname' hgap hgap' h
  rw [← hinner, hargs, Option.some.injEq, Prod.mk.injEq] at hargs'
  exact ⟨rfl, hargs'.1, hargs'.2⟩

theorem isName_identifier {s : Text} (h : (identifier s).1 ≠ []) : IsName (identifier s).1 := by
  cases s with
  | nil => exact absurd rfl h
  | cons c r =>
    rw [identifier] at h ⊢
    split at h
    · next hc =>
      rw [if_pos hc]
      exact ⟨c, _, rfl, hc, fun d hd => List.all_eq_true.1 List.all_takeWhile d hd⟩
    · exact absurd rfl h

/-! ## Calls in a text -/

theorem Verb.ofName?_name (verb : Verb) : Verb.ofName? verb.name = some verb := by
  cases verb <;> decide

theorem CallHead.ofName?_eq {verb : Verb} {gap : Text} (hgap : ∀ c ∈ gap, isGap c = true)
    (rest : Text) : CallHead.ofName? verb (gap ++ '(' :: rest) = some ⟨verb, gap, rest⟩ := by
  have hp : isGap '(' = false := by decide
  unfold ofName?
  rw [List.dropWhile_append_of_pos hgap, List.takeWhile_append_of_pos hgap]
  simp [hp]

/-- A call starts wherever its lead stands at a free place. -/
theorem callAt?_eq_some_iff {free : Bool} {s : Text} {head : CallHead} :
    callAt? free s = some head ↔
      free = true ∧ (∀ c ∈ head.gap, isGap c = true) ∧ s = head.lead ++ head.rest := by
  constructor
  · intro h
    refine ⟨?_, ?_, eq_append_of_callAt? h⟩
    · by_cases hf : free = true
      · exact hf
      · simp [callAt?, hf] at h
    · unfold callAt? at h
      split at h
      · obtain ⟨verb, _, hh⟩ := Option.bind_eq_some_iff.1 h
        unfold CallHead.ofName? at hh
        split at hh
        · cases hh
          exact fun c hc => List.all_eq_true.1 List.all_takeWhile c hc
        · simp at hh
      · simp at h
  · obtain ⟨verb, gap, rest⟩ := head
    rintro ⟨rfl, hgap, rfl⟩
    have hsplit : (⟨verb, gap, rest⟩ : CallHead).lead ++ rest
        = verb.name ++ (gap ++ '(' :: rest) := by
      simp [CallHead.lead]
    have hident : identifier (verb.name ++ (gap ++ '(' :: rest))
        = (verb.name, gap ++ '(' :: rest) := by
      exact identifier_append_eq (isName_name verb) fun c hc =>
        isIdentChar_of_head?_gap (fun d hd => isWhite_of_isGap (hgap d hd)) hc
    rw [callAt?, if_pos rfl, hsplit, hident, Verb.ofName?_name, Option.bind_some,
      CallHead.ofName?_eq hgap]

theorem callAt?_append {free : Bool} {s : Text} {head : CallHead}
    (h : callAt? free s = some head) (t : Text) :
    callAt? free (s ++ t) = some { head with rest := head.rest ++ t } := by
  obtain ⟨hfree, hgap, rfl⟩ := callAt?_eq_some_iff.1 h
  exact callAt?_eq_some_iff.2 ⟨hfree, hgap, List.append_assoc _ _ _⟩

/-- The beginning of a call does not reach over the end of a line. -/
theorem callAt?_append_eq_none {free : Bool} {s behind : Text}
    (hbehind : ∀ c, behind.head? = some c → c = '\n') (h : callAt? free s = none) :
    callAt? free (s ++ behind) = none := by
  cases hcall : callAt? free (s ++ behind) with
  | none => rfl
  | some head =>
    obtain ⟨hfree, hgap, hsplit⟩ := callAt?_eq_some_iff.1 hcall
    have hlead : '\n' ∉ head.lead := by
      have hname : '\n' ∉ head.verb.name := fun hn =>
        absurd ((isName_name head.verb).isIdentChar_of_mem hn) (by decide)
      have hspace : '\n' ∉ head.gap := fun hn => absurd (hgap _ hn) (by decide)
      simp [CallHead.lead, hname, hspace]
    -- Either the lead ends in the line, or the line break behind it is part of the lead.
    rcases List.append_eq_append_iff.1 hsplit with ⟨u, hu, hbehind'⟩ | ⟨u, hu, _⟩
    · cases u with
      | nil =>
        rw [List.append_nil] at hu
        have hstart : callAt? free s = some { head with rest := [] } :=
          callAt?_eq_some_iff.2 ⟨hfree, hgap, by rw [List.append_nil]; exact hu.symm⟩
        rw [h] at hstart
        simp at hstart
      | cons d u =>
        obtain rfl := hbehind d (by rw [hbehind']; rfl)
        exact absurd (by rw [hu]; simp) hlead
    · have hstart : callAt? free s = some { head with rest := u } :=
        callAt?_eq_some_iff.2 ⟨hfree, hgap, hu⟩
      rw [h] at hstart
      simp at hstart

/-- A call in the first part of a text is a call in the text. -/
theorem anyCall_append {p : Verb → Bool} {free : Bool} {s : Text} (h : anyCall p free s = true)
    (t : Text) : anyCall p free (s ++ t) = true := by
  induction s generalizing free with
  | nil => simp [anyCall] at h
  | cons c s ih =>
    simp only [anyCall, List.cons_append, Bool.or_eq_true] at h ⊢
    rcases h with h | h
    · left
      obtain ⟨head, hhead, hp⟩ := (Option.any_eq_true _ _).1 h
      rw [← List.cons_append, callAt?_append hhead t]
      exact hp
    · exact Or.inr (ih h)

/-- A call in the second part of a text is a call in the text, if a name may start there. -/
theorem anyCall_append_left {p : Verb → Bool} {free : Bool} (s : Text) {t : Text}
    (h : anyCall p (s.getLast?.elim free fun c => isFreeAfter (some c)) t = true) :
    anyCall p free (s ++ t) = true := by
  induction s generalizing free with
  | nil => exact h
  | cons c s ih =>
    rw [List.cons_append, anyCall, Bool.or_eq_true]
    refine Or.inr (ih ?_)
    cases s with
    | nil => exact h
    | cons d s => rwa [List.getLast?_cons_cons] at h

theorem mentionsCall_append {s : Text} (h : mentionsCall s = true) (t : Text) :
    mentionsCall (s ++ t) = true := anyCall_append h t

theorem mentionsCall_append_left {s t : Text}
    (hs : ∀ c, s.getLast? = some c → isIdentChar c = false) (h : mentionsCall t = true) :
    mentionsCall (s ++ t) = true := by
  refine anyCall_append_left s ?_
  cases hl : s.getLast? with
  | none => exact h
  | some c =>
    have hfree : isFreeAfter (some c) = true := by simp [isFreeAfter, hs c hl]
    rw [Option.elim_some, hfree]
    exact h

/-! ## Lines that are one call -/

/-- What a line consists of that is one call. -/
theorem CallLine.ofLine?_eq_some_iff {line : Text} {call : CallLine} :
    CallLine.ofLine? line = some call ↔
      IsName call.name ∧ Balance.argumentList? (call.args ++ [')']) = some (call.args, []) ∧
        ∃ gap, (∀ c ∈ gap, isWhite c = true) ∧
          line.trim = call.name ++ (gap ++ '(' :: (call.args ++ [')'])) := by
  constructor
  · intro h
    simp only [CallLine.ofLine?] at h
    split at h
    · simp at h
    · next hname =>
      have hne : (identifier line.trim).1 ≠ [] := fun he => hname (by simp [he])
      split at h
      · next rest hrest =>
        split at h
        · next args hargs =>
          cases h
          have hr := Balance.eq_append_of_untilClosed? hargs
          refine ⟨isName_identifier hne, ?_, ?_⟩
          · rwa [hr] at hargs
          · obtain ⟨gap, hgap, hsplit⟩ := Text.exists_eq_append_trimStart (identifier line.trim).2
            refine ⟨gap, hgap, ?_⟩
            rw [← hr, ← hrest, ← hsplit, identifier_append]
        · simp at h
      · simp at h
  · obtain ⟨name, args⟩ := call
    rintro ⟨hname, hargs, gap, hgap, htrim⟩
    have hident : identifier line.trim = (name, gap ++ '(' :: (args ++ [')'])) := by
      rw [htrim]
      exact identifier_append_eq hname fun c hc => isIdentChar_of_head?_gap hgap hc
    have hstart : Text.trimStart (gap ++ '(' :: (args ++ [')'])) = '(' :: (args ++ [')']) := by
      have hp : isWhite '(' = false := by decide
      rw [Text.trimStart, List.dropWhile_append_of_pos hgap]
      simp [hp]
    simp [CallLine.ofLine?, hident, hstart, hargs, hname.ne_nil]

theorem CallLine.exists_eq_of_ofLine? {line : Text} {call : CallLine}
    (hcall : CallLine.ofLine? line = some call) (htrim : Text.trim line = line) :
    ∃ gap, (∀ c ∈ gap, isWhite c = true) ∧
      line = call.name ++ gap ++ '(' :: (call.args ++ [')']) := by
  obtain ⟨_, _, gap, hgap, hline⟩ := CallLine.ofLine?_eq_some_iff.1 hcall
  rw [htrim] at hline
  exact ⟨gap, hgap, by rw [hline, List.append_assoc]⟩

/-- Behind the name of a call nothing is open. -/
theorem feedAll_name_gap {name gap : Text} (hname : IsName name)
    (hgap : ∀ c ∈ gap, isWhite c = true) : Balance.feedAll {} (name ++ gap) = {} := by
  refine Balance.feedAll_of_isPlain rfl fun c hc => ?_
  rcases List.mem_append.1 hc with hc | hc
  · exact isPlain_of_isIdentChar (hname.isIdentChar_of_mem hc)
  · exact Balance.isPlain_of_isWhite (hgap c hc)

/-- A line that starts with no name is no call. -/
theorem CallLine.ofLine?_eq_none {c : Char} (hwhite : isWhite c = false)
    (hstart : Text.isIdentStart c = false) (s : Text) : CallLine.ofLine? (c :: s) = none := by
  cases h : CallLine.ofLine? (c :: s) with
  | none => rfl
  | some call =>
    obtain ⟨⟨d, r, hname, hd, _⟩, _, gap, _, htrim⟩ := CallLine.ofLine?_eq_some_iff.1 h
    have hhead := Text.head?_trim hwhite s
    rw [htrim, hname, List.cons_append, List.head?_cons] at hhead
    rw [Option.some.inj hhead, hstart] at hd
    exact absurd hd (by decide)

/-- Behind the closing parenthesis of an argument list no literal is open. -/
theorem Balance.quote_feedAll_of_untilClosed? {b : Balance} {s inner rest : Text}
    (h : b.untilClosed? s = some (inner, rest)) : (b.feedAll (inner ++ [')'])).quote = none := by
  induction s generalizing b inner with
  | nil => simp [untilClosed?] at h
  | cons c s ih =>
    simp only [untilClosed?] at h
    split at h
    · next hc =>
      cases h
      obtain ⟨rfl, hq, _⟩ := hc
      exact hq
    · obtain ⟨⟨i, r⟩, hir, heq⟩ := Option.map_eq_some_iff.1 h
      cases heq
      show ((b.feed c).feedAll (i ++ [')'])).quote = none
      exact ih hir

/-! ## Literals at the start of an argument list -/

theorem exists_of_firstLiteral? {args value rest : Text}
    (h : firstLiteral? args = some (value, rest)) :
    ∃ gap literal, (∀ c ∈ gap, isWhite c = true) ∧ args = gap ++ literal ++ rest
      ∧ IsClosed literal := by
  obtain ⟨hscan, _⟩ := Option.filter_eq_some_iff.1 h
  obtain ⟨literal, hsplit, hliteral, _⟩ := Literal.exists_of_scan? hscan
  obtain ⟨gap, hgap, hargs⟩ := Text.exists_eq_append_trimStart args
  exact ⟨gap, literal, hgap, by rw [List.append_assoc, ← hsplit, ← hargs], hliteral.isClosed⟩

/-- A line whose literal is updated stays as it is, or becomes a call whose literal is written anew
    and whose other arguments stay. -/
theorem updateLiteral_cases (verbs : List Verb) (f : Text → Text) (line : Text) :
    updateLiteral verbs f line = line ∨
      ∃ (verb : Verb) (value rest : Text),
        updateLiteral verbs f line = verb.name ++ '(' :: (Literal.quote value ++ (rest ++ [')'])) ∧
          (Balance.feedAll { parens := 1 } (rest ++ [')'])).quote = none ∧ rest.Sublist line := by
  unfold updateLiteral
  cases hu : updatedCall? verbs f line with
  | none => exact Or.inl rfl
  | some updated =>
    right
    obtain ⟨call, hcall, hu⟩ := Option.bind_eq_some_iff.1 hu
    obtain ⟨verb, _, hu⟩ := Option.bind_eq_some_iff.1 hu
    obtain ⟨⟨value, rest⟩, hfirst, hu⟩ := Option.bind_eq_some_iff.1 hu
    obtain ⟨_, hargs, space, _, htrim⟩ := CallLine.ofLine?_eq_some_iff.1 hcall
    obtain ⟨gap, literal, hgap, hsplit, hclosed⟩ := exists_of_firstLiteral? hfirst
    simp only [Option.ite_none_left_eq_some, Option.some.injEq] at hu
    refine ⟨verb, f value, rest, ?_, ?_, ?_⟩
    · rw [← hu.2]
      simp
    · have hquote := Balance.quote_feedAll_of_untilClosed? hargs
      rw [hsplit, List.append_assoc, List.append_assoc, Balance.feedAll_append,
        Balance.feedAll_of_isPlain rfl fun c hc => Balance.isPlain_of_isWhite (hgap c hc),
        Balance.feedAll_append, hclosed.feedAll_eq _ rfl rfl] at hquote
      exact hquote
    · refine List.Sublist.trans ?_ (Text.trim_sublist line)
      rw [htrim, hsplit]
      refine (List.sublist_append_right (gap ++ literal) rest).trans ?_
      refine (List.sublist_append_left _ [')']).trans ?_
      refine (List.sublist_cons_self '(' _).trans ?_
      exact (List.sublist_append_right space _).trans (List.sublist_append_right call.name _)

/-! ## Written calls -/

theorem isClosed_name (verb : Verb) : IsClosed verb.name :=
  Balance.isClosed_of_isPlain fun _ hc =>
    isPlain_of_isIdentChar ((isName_name verb).isIdentChar_of_mem hc)

/-- A written call is closed in itself. -/
theorem isClosed_renderCall (verb : Verb) (value : Text) : IsClosed (renderCall verb value) := by
  have happ : renderCall verb value = verb.name ++ ('(' :: Literal.quote value ++ [')']) := by
    simp [renderCall]
  rw [happ]
  exact (isClosed_name verb).append (Literal.isClosed_quote value).parenthesised

theorem singleLiteral?_quote (value : Text) :
    singleLiteral? (Literal.quote value) = some value := by
  have hstart : Text.trimStart (Literal.quote value) = Literal.quote value := by
    have hq : isWhite (Literal.quoteStyle value) = false := by
      rcases Literal.isQuote_iff.1 (Literal.isQuote_quoteStyle value) with h | h <;> rw [h] <;> rfl
    simp [Text.trimStart, Literal.quote, hq]
  have hscan := Literal.scan?_quote value []
  rw [List.append_nil] at hscan
  rw [singleLiteral?, firstLiteral?, hstart, hscan]
  rfl

theorem isWhite_of_isIdentChar {c : Char} (h : isIdentChar c = true) : isWhite c = false := by
  by_cases hw : isWhite c = true
  · rw [isIdentChar_of_isWhite hw] at h
    exact absurd h (by decide)
  · simpa using hw

/-- A call that stands alone on its line is trimmed. -/
theorem trim_call (verb : Verb) (middle : Text) :
    Text.trim (verb.name ++ middle ++ [')']) = verb.name ++ middle ++ [')'] := by
  obtain ⟨c, r, hname, hc, hr⟩ := isName_name verb
  refine Text.trim_eq_self (fun d hd => ?_) (fun d hd => ?_)
  · rw [hname, List.cons_append, List.cons_append, List.head?_cons, Option.some.injEq] at hd
    rw [← hd]
    exact isWhite_of_isIdentChar (isIdentChar_of_isIdentStart hc)
  · rw [List.getLast?_append, List.getLast?_singleton, Option.some_or, Option.some.injEq] at hd
    rw [← hd]
    decide

/-- A call whose arguments are closed in themselves is taken apart as it was put together. -/
theorem CallLine.ofLine?_call (verb : Verb) {args : Text} (h : IsClosed args) :
    CallLine.ofLine? (verb.name ++ '(' :: args ++ [')']) = some ⟨verb.name, args⟩ := by
  refine CallLine.ofLine?_eq_some_iff.2 ⟨isName_name verb, h.argumentList?_eq [], [], ?_, ?_⟩
  · simp
  · rw [trim_call]
    simp

/-! ## Positions in bytes -/

theorem Text.utf8Length_append (s t : Text) :
    Text.utf8Length (s ++ t) = Text.utf8Length s + Text.utf8Length t := by
  have hfrom (t : Text) (n : Nat) :
      t.foldl (fun n c => n + c.utf8Size) n = n + Text.utf8Length t := by
    induction t generalizing n with
    | nil => rfl
    | cons c t ih =>
      have htail : Text.utf8Length (c :: t) = (0 + c.utf8Size) + Text.utf8Length t := ih _
      rw [List.foldl_cons, ih, htail]
      omega
  rw [Text.utf8Length, List.foldl_append, hfrom]
  rfl

theorem Text.splitAtByte?_append (before rest : Text) :
    Text.splitAtByte? (Text.utf8Length before) (before ++ rest) = some (before, rest) := by
  induction before with
  | nil => exact Text.splitAtByte?.eq_1 rest
  | cons c before ih =>
    have hlength : Text.utf8Length (c :: before) = c.utf8Size + Text.utf8Length before :=
      (Text.utf8Length_append [c] before).trans (by rw [Text.utf8Length]; simp)
    have hpos := c.utf8Size_pos
    obtain ⟨n, hn⟩ : ∃ n, Text.utf8Length (c :: before) = n + 1 :=
      ⟨Text.utf8Length (c :: before) - 1, by omega⟩
    have hbehind : n + 1 - c.utf8Size = Text.utf8Length before := by omega
    rw [hn, List.cons_append, Text.splitAtByte?, if_pos (by omega), hbehind, ih]
    rfl

theorem isFreeAt_append (before rest : Text) :
    isFreeAt (before ++ rest) (Text.utf8Length before) = isFreeAfter before.getLast? := by
  rw [isFreeAt, Text.splitAtByte?_append]

/-- The site of a call starts with its name, and its parenthesis stands behind the name and the
    gap. -/
theorem siteAt?_append (before rest : Text) :
    siteAt? (before ++ rest) (Text.utf8Length before) =
      (callAt? (isFreeAfter before.getLast?) rest).map fun head =>
        ⟨Text.utf8Length before, head.verb,
          Text.utf8Length (before ++ (head.verb.name ++ head.gap))⟩ := by
  have hparen (head : CallHead) : Text.utf8Length before + Text.utf8Length head.lead - 1 =
      Text.utf8Length (before ++ (head.verb.name ++ head.gap)) := by
    have hone : Text.utf8Length ['('] = 1 := rfl
    rw [CallHead.lead, Text.utf8Length_append, Text.utf8Length_append before, hone]
    omega
  rw [siteAt?, Text.splitAtByte?_append, isFreeAt_append]
  simp only [Option.bind_eq_bind, Option.bind_some]
  cases callAt? (isFreeAfter before.getLast?) rest with
  | none => rfl
  | some head => exact congrArg some (congrArg (CallSite.mk _ head.verb) (hparen head))

/-- A call site behind `before`: at a free place stands the name of the operation, then spaces and
    tabs, then the parenthesis. -/
structure CallSite.Stands (site : CallSite) (before rest : Text) : Prop where
  free : isFreeAfter before.getLast? = true
  start : site.start = Text.utf8Length before
  lead : ∃ gap args, (∀ c ∈ gap, isGap c = true) ∧ rest = site.verb.name ++ gap ++ '(' :: args ∧
    site.paren = Text.utf8Length (before ++ (site.verb.name ++ gap))

theorem siteAt?_eq_some_iff {before rest : Text} {site : CallSite} :
    siteAt? (before ++ rest) (Text.utf8Length before) = some site ↔ site.Stands before rest := by
  rw [siteAt?_append, Option.map_eq_some_iff]
  constructor
  · rintro ⟨head, hcall, rfl⟩
    obtain ⟨hfree, hgap, hrest⟩ := callAt?_eq_some_iff.1 hcall
    refine ⟨hfree, rfl, head.gap, head.rest, hgap, ?_, rfl⟩
    rw [hrest, CallHead.lead]
    simp
  · rintro ⟨hfree, hstart, gap, args, hgap, rfl, hparen⟩
    refine ⟨⟨site.verb, gap, args⟩, callAt?_eq_some_iff.2 ⟨hfree, hgap, ?_⟩, ?_⟩
    · simp [CallHead.lead]
    · rw [← hstart, ← hparen]

end Scribe
