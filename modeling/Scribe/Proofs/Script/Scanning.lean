import Scribe.Script.Scanner
import Scribe.Proofs.Script.Value

set_option autoImplicit false

/-! # What the scanner passes over

The scanner goes over a text in steps: over a comment, a call, a literal, a word or one character.
Its calls start where those of the whole vocabulary do, at every offset. Between statements it
finds nothing, and over calls it passes as far as the grammar reads them. -/

namespace Scribe

open Text (isIdentChar isIdentStart isGap isBlank)
open Balance (IsClosed)

/-! ## Calls at the start of a text -/

namespace Scanner

theorem mem_longestFirst (verb : Verb) : verb ∈ longestFirst := by
  rw [longestFirst, (List.mergeSort_perm _ _).mem_iff]
  cases verb <;> decide

theorem stripStart?_eq_some_iff {lead s r : Text} :
    Text.stripStart? lead s = some r ↔ s = lead ++ r := by
  simp only [Text.stripStart?, Option.ite_none_right_eq_some, Option.some.injEq,
    List.isPrefixOf_iff_prefix]
  constructor
  · rintro ⟨⟨t, rfl⟩, rfl⟩
    rw [List.drop_left]
  · rintro rfl
    exact ⟨List.prefix_append _ _, List.drop_left⟩

theorem head?_gap_paren {gap : Text} (hgap : ∀ c ∈ gap, isGap c = true) (s : Text) :
    (gap ++ '(' :: s).head?.any isIdentChar = false := by
  cases gap with
  | nil => rfl
  | cons c gap =>
    exact isIdentChar_of_isWhite (isWhite_of_isGap (hgap c List.mem_cons_self))

/-- A name of the vocabulary stands at the start of the text, and its call begins there. -/
theorem bind_stripStart?_eq_some_iff {verb : Verb} {s : Text} {head : CallHead} :
    ((Text.stripStart? verb.name s).bind fun after =>
      if after.head?.any isIdentChar then none else CallHead.ofName? verb after) = some head ↔
    head.verb = verb ∧ Scribe.callAt? true s = some head := by
  rw [Option.bind_eq_some_iff, callAt?_eq_some_iff]
  constructor
  · rintro ⟨after, hafter, h⟩
    obtain ⟨_, h⟩ := Option.ite_none_left_eq_some.1 h
    obtain ⟨hverb, hrest⟩ := CallHead.eq_of_ofName? h
    refine ⟨hverb, rfl, ?_, ?_⟩
    · unfold CallHead.ofName? at h
      split at h
      · cases h
        exact fun c hc => List.all_eq_true.1 List.all_takeWhile c hc
      · simp at h
    · rw [stripStart?_eq_some_iff.1 hafter, hrest, CallHead.lead, hverb]
      simp
  · obtain ⟨verb', gap, rest⟩ := head
    rintro ⟨rfl, _, hgap, rfl⟩
    refine ⟨gap ++ '(' :: rest, stripStart?_eq_some_iff.2 (by simp [CallHead.lead]), ?_⟩
    rw [head?_gap_paren hgap, if_neg (by decide), CallHead.ofName?_eq hgap]

/-- Trying the names from the longest to the shortest finds the call whose name stands there. -/
theorem callAt?_eq (free : Bool) (s : Text) : callAt? free s = Scribe.callAt? free s := by
  cases free with
  | false => rfl
  | true =>
    rw [callAt?, if_pos rfl]
    cases hcall : Scribe.callAt? true s with
    | none =>
      rw [List.findSome?_eq_none_iff]
      intro verb _
      rw [Option.eq_none_iff_forall_ne_some]
      intro head hhead
      rw [(bind_stripStart?_eq_some_iff.1 hhead).2] at hcall
      simp at hcall
    | some head =>
      have hhead := bind_stripStart?_eq_some_iff.2 ⟨rfl, hcall⟩
      cases hfind : longestFirst.findSome? fun verb =>
          (Text.stripStart? verb.name s).bind fun after =>
            if after.head?.any isIdentChar then none else CallHead.ofName? verb after with
      | none =>
        rw [List.findSome?_eq_none_iff.1 hfind _ (mem_longestFirst head.verb)] at hhead
        simp at hhead
      | some head' =>
        obtain ⟨verb, _, hverb⟩ := List.exists_of_findSome?_eq_some hfind
        rw [← hcall, (bind_stripStart?_eq_some_iff.1 hverb).2]

/-! ## Sites of calls -/

/-- The operation that the scanner finds called at an offset, with the offset of the parenthesis:
    the text less the part from there on, in bytes. -/
def parenAt? (s : Text) (offset : Nat) : Option (Verb × Nat) := do
  let (_, rest) ← Text.splitAtByte? offset s
  let head ← callAt? (isFreeAt s offset) rest
  return (head.verb, Text.utf8Length s - Text.utf8Length ('(' :: head.rest))

theorem parenAt?_append (before rest : Text) :
    parenAt? (before ++ rest) (Text.utf8Length before) =
      (Scribe.callAt? (isFreeAfter before.getLast?) rest).map fun head =>
        (head.verb, Text.utf8Length (before ++ (head.verb.name ++ head.gap))) := by
  rw [parenAt?, Text.splitAtByte?_append, isFreeAt_append]
  simp only [Option.bind_eq_bind, Option.bind_some, callAt?_eq]
  cases hcall : Scribe.callAt? (isFreeAfter before.getLast?) rest with
  | none => rfl
  | some head =>
    have hrest : before ++ rest = before ++ (head.verb.name ++ head.gap) ++ '(' :: head.rest := by
      rw [eq_append_of_callAt? hcall, CallHead.lead]
      simp
    have hparen : Text.utf8Length (before ++ rest) - Text.utf8Length ('(' :: head.rest) =
        Text.utf8Length (before ++ (head.verb.name ++ head.gap)) := by
      rw [hrest, Text.utf8Length_append, Nat.add_sub_cancel]
    exact congrArg some (congrArg (Prod.mk head.verb) hparen)

/-- At every place of a text the scanner finds called what the search for call sites finds called
    there, with the same parenthesis, and nothing where that finds nothing; what they find is what
    is written there. -/
theorem parenAt?_eq_siteAt? (before rest : Text) :
    parenAt? (before ++ rest) (Text.utf8Length before) =
        (siteAt? (before ++ rest) (Text.utf8Length before)).map
          (fun site => (site.verb, site.paren)) ∧
      ∀ site, siteAt? (before ++ rest) (Text.utf8Length before) = some site ↔
        site.Stands before rest := by
  refine ⟨?_, fun site => siteAt?_eq_some_iff⟩
  rw [parenAt?_append, siteAt?_append, Option.map_map]
  rfl

/-! ## One step -/

/-- What the scanner does at a place: the call that it takes there, and where it goes on. -/
def visit (before : Option Char) : Text → Option (Verb × Text) × Option (Option Char × Text)
  | [] => (none, none)
  | c :: s =>
    if c = '#' then (none, some (some '#', lineEnd s))
    else match Scribe.callAt? (isFreeAfter before) (c :: s) with
      | some head =>
        match Balance.argumentList? head.rest with
        | some (args, rest) => (some (head.verb, args), some (some ')', rest))
        | none => (some (head.verb, head.rest), none)
      | none => (none, some ((skipInert? (isFreeAfter before) (c :: s)).getD (some c, s)))

/-- The calls from a place on are the one there and those from the next place on. -/
theorem callsFrom_eq (before : Option Char) (s : Text) :
    callsFrom before s = (visit before s).1.toList ++
      (visit before s).2.elim [] fun next => callsFrom next.1 next.2 := by
  unfold visit
  split
  · rw [callsFrom]
    rfl
  · next c s =>
    rw [callsFrom]
    by_cases hcomment : c = '#'
    · rw [if_pos hcomment, if_pos hcomment]
      rfl
    · rw [if_neg hcomment, if_neg hcomment, ← callAt?_eq]
      split
      · next hcall =>
        split
        · next hargs =>
          simp only [hcall, hargs]
          rfl
        · next hargs =>
          simp only [hcall, hargs]
          rfl
      · next hcall =>
        split
        · next hskip =>
          simp only [hcall, hskip]
          rfl
        · next hskip =>
          simp only [hcall, hskip]
          rfl

theorem visit_call {before : Option Char} {c : Char} {s : Text} {head : CallHead}
    (hcomment : c ≠ '#') (hcall : Scribe.callAt? (isFreeAfter before) (c :: s) = some head)
    {args rest : Text} (hargs : Balance.argumentList? head.rest = some (args, rest)) :
    visit before (c :: s) = (some (head.verb, args), some (some ')', rest)) := by
  simp only [visit, if_neg hcomment, hcall, hargs]

theorem visit_inert {before : Option Char} {c : Char} {s : Text} (hcomment : c ≠ '#')
    (hcall : Scribe.callAt? (isFreeAfter before) (c :: s) = none) :
    visit before (c :: s)
      = (none, some ((skipInert? (isFreeAfter before) (c :: s)).getD (some c, s))) := by
  simp only [visit, if_neg hcomment, hcall]

theorem length_lt_of_visit {before : Option Char} {s : Text} {next : Option Char × Text}
    (h : (visit before s).2 = some next) : next.2.length < s.length := by
  unfold visit at h
  split at h
  · cases h
  · next c s =>
    split at h
    · cases h
      exact Nat.lt_succ_of_le (lineEnd_length_le s)
    · split at h
      · next head hcall =>
        split at h
        · next args rest hargs =>
          cases h
          have hrest := congrArg List.length (Balance.eq_append_of_untilClosed? hargs)
          have hhead := length_lt_of_callAt? ((callAt?_eq _ _).trans hcall)
          rw [List.length_append, List.length_cons] at hrest
          exact Nat.lt_trans (show rest.length < head.rest.length by omega) hhead
        · cases h
      · cases hskip : skipInert? (isFreeAfter before) (c :: s) with
        | none =>
          rw [hskip] at h
          cases h
          exact Nat.lt_succ_self _
        | some skipped =>
          rw [hskip] at h
          cases h
          exact length_lt_of_skipInert? hskip

/-! ## Passing over what is idle -/

theorem callsFrom_comment (before : Option Char) (s : Text) :
    callsFrom before ('#' :: s) = callsFrom (some '#') (lineEnd s) := callsFrom_eq before _

/-- A character that starts nothing is passed over. -/
theorem callsFrom_cons {before : Option Char} {c : Char} (hcomment : c ≠ '#')
    (hstart : isIdentStart c = false) (hquote : Literal.isQuote c = false) (s : Text) :
    callsFrom before (c :: s) = callsFrom (some c) s := by
  have hident := identifier_eq_nil hstart s
  have hcall : Scribe.callAt? (isFreeAfter before) (c :: s) = none := by
    rw [Scribe.callAt?, hident]
    split <;> rfl
  have hmark : (c == 'r' || c == 'R') = false := by
    by_cases hr : c = 'r'
    · rw [hr] at hstart
      exact absurd hstart (by decide)
    · by_cases hR : c = 'R'
      · rw [hR] at hstart
        exact absurd hstart (by decide)
      · simp [hr, hR]
  have hskip : skipInert? (isFreeAfter before) (c :: s) = none := by
    simp [skipInert?, startsLiteral, hquote, hmark, hident]
  rw [callsFrom_eq, visit_inert hcomment hcall, hskip]
  rfl

theorem callsFrom_of_isIdle {c : Char} (hc : (isBlank c || c == ';') = true)
    (before : Option Char) (s : Text) :
    callsFrom before (c :: s) = callsFrom (some c) s ∧ isFreeAfter (some c) = true := by
  simp only [isBlank, Bool.or_eq_true, beq_iff_eq] at hc
  rcases hc with (((rfl | rfl) | rfl) | rfl) | rfl <;>
    exact ⟨callsFrom_cons (by decide) (by decide) (by decide) s, by decide⟩

/-- What is idle between statements holds no call, and behind it a name may start. -/
theorem exists_callsFrom_skipIdle (s : Text) :
    (∀ before, isFreeAfter before = true → ∃ before', isFreeAfter before' = true ∧
      callsFrom before s = callsFrom before' (Grammar.skipIdle false s)) ∧
    ∃ before', isFreeAfter before' = true ∧
      callsFrom (some '#') (lineEnd s) = callsFrom before' (Grammar.skipIdle true s) := by
  -- Both ways of skipping at once, since a comment leads from one to the other and back.
  induction s with
  | nil => exact ⟨fun before hfree => ⟨before, hfree, rfl⟩, some '#', rfl, rfl⟩
  | cons c s ih =>
    refine ⟨fun before hfree => ?_, ?_⟩
    · simp only [Grammar.skipIdle, Bool.false_eq_true, if_false]
      split
      · next hc =>
        obtain ⟨hcalls, hfree'⟩ := callsFrom_of_isIdle hc before s
        rw [hcalls]
        exact ih.1 _ hfree'
      · split
        · next hc =>
          rw [beq_iff_eq.1 hc, callsFrom_comment]
          exact ih.2
        · exact ⟨before, hfree, rfl⟩
    · simp only [Grammar.skipIdle, if_true]
      by_cases hc : c = '\n'
      · subst hc
        obtain ⟨hcalls, hfree⟩ := callsFrom_of_isIdle (c := '\n') rfl (some '#') s
        have hend : lineEnd ('\n' :: s) = '\n' :: s := rfl
        rw [hend, hcalls]
        exact ih.1 _ hfree
      · have hend : lineEnd (c :: s) = lineEnd s := by simp [lineEnd, hc]
        have hne : (c != '\n') = true := by simpa using hc
        rw [hend, hne]
        exact ih.2

/-! ## Passing over calls -/

/-- The scanner takes a call of the vocabulary with the argument list that the grammar reads. -/
theorem callsFrom_call {before : Option Char} (hfree : isFreeAfter before = true) {verb : Verb}
    {gap args : Text} (hgap : ∀ c ∈ gap, isGap c = true) (hargs : IsClosed args) (rest : Text) :
    callsFrom before (verb.name ++ (gap ++ '(' :: (args ++ ')' :: rest)))
      = (verb, args) :: callsFrom (some ')') rest := by
  have hcall : Scribe.callAt? (isFreeAfter before)
      (verb.name ++ (gap ++ '(' :: (args ++ ')' :: rest)))
      = some ⟨verb, gap, args ++ ')' :: rest⟩ :=
    callAt?_eq_some_iff.2 ⟨hfree, hgap, by simp [CallHead.lead]⟩
  obtain ⟨c, r, hname, hc, _⟩ := isName_name verb
  have hcomment : c ≠ '#' := by
    rintro rfl
    exact absurd hc (by decide)
  rw [hname, List.cons_append] at hcall ⊢
  rw [callsFrom_eq, visit_call hcomment hcall (hargs.argumentList?_eq rest)]
  rfl

theorem isQuote_eq_false {c : Char} (h : isIdentChar c = true ∨ isGap c = true) :
    Literal.isQuote c = false := by
  by_cases hq : Literal.isQuote c = true
  · rcases Literal.isQuote_iff.1 hq with rfl | rfl <;> exact absurd h (by decide)
  · simpa using hq

/-- A call is no literal, also where its name starts like the mark of one. -/
theorem startsLiteral_call {name gap : Text} (hname : IsName name)
    (hgap : ∀ c ∈ gap, isGap c = true) (s : Text) :
    startsLiteral (name ++ (gap ++ '(' :: s)) = false := by
  obtain ⟨c, r, rfl, hc, hr⟩ := hname
  have hsecond : (r ++ (gap ++ '(' :: s)).head?.any Literal.isQuote = false := by
    cases r with
    | nil =>
      cases gap with
      | nil => rfl
      | cons d gap => exact isQuote_eq_false (Or.inr (hgap d List.mem_cons_self))
    | cons d r => exact isQuote_eq_false (Or.inl (hr d List.mem_cons_self))
  rw [List.cons_append, startsLiteral, isQuote_eq_false (Or.inl (isIdentChar_of_isIdentStart hc)),
    hsecond, Bool.and_false, Bool.or_false]

/-- The scanner passes over a call outside the vocabulary as far as the grammar reads it. -/
theorem callsFrom_foreign {before : Option Char} (hfree : isFreeAfter before = true)
    {name gap args : Text} (hname : IsName name) (hforeign : Verb.ofName? name = none)
    (hgap : ∀ c ∈ gap, isGap c = true) (hargs : IsClosed args) (rest : Text) :
    callsFrom before (name ++ (gap ++ '(' :: (args ++ ')' :: rest)))
      = callsFrom (some ')') rest := by
  have hnext : ∀ c, (gap ++ '(' :: (args ++ ')' :: rest)).head? = some c →
      isIdentChar c = false := fun c hc =>
    isIdentChar_of_head?_gap (fun d hd => isWhite_of_isGap (hgap d hd)) hc
  have hident := identifier_append_eq hname hnext
  have hcall : Scribe.callAt? (isFreeAfter before)
      (name ++ (gap ++ '(' :: (args ++ ')' :: rest))) = none := by
    rw [Scribe.callAt?, hident, hforeign]
    split <;> rfl
  have hdrop : (gap ++ '(' :: (args ++ ')' :: rest)).dropWhile isGap
      = '(' :: (args ++ ')' :: rest) := by
    rw [List.dropWhile_append_of_pos hgap]
    rfl
  have hnoliteral := startsLiteral_call hname hgap (args ++ ')' :: rest)
  obtain ⟨c, r, rfl, hc, hr⟩ := hname
  have hcomment : c ≠ '#' := by
    rintro rfl
    exact absurd hc (by decide)
  have hskip : skipInert? (isFreeAfter before) (c :: r ++ (gap ++ '(' :: (args ++ ')' :: rest)))
      = some (some ')', rest) := by
    simp only [skipInert?, hfree, hnoliteral, hident, hdrop, hargs.argumentList?_eq rest]
    rfl
  rw [List.cons_append] at hcall hskip ⊢
  rw [callsFrom_eq, visit_inert hcomment hcall, hskip]
  rfl

end Scanner

end Scribe
