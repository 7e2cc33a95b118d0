import Scribe.Proofs.Repair.Rounds

set_option autoImplicit false

/-! # Scripts without layout

A script of complete calls that insert no template, enter no zone and open or close no container
leaves the repairs little to do: only some literals are written anew, and only by what is in them.
Whatever else the literals hold, be it names of calls, separators, parentheses, number signs or
fences, the script stays as it is. The one thing to see to is that whoever looks for calls in the
text finds those of the script: the repairs accept any white space between a name and its
parenthesis where they take a line apart, but only spaces and tabs where they search a text. -/

namespace Scribe.Repair

open Text (IsLogicalLine isIdentChar isWhite)

/-! ## Flat lines -/

/-- The operation that a line calls, if the line is one complete call of the vocabulary. -/
def calledVerb? (line : Text) : Option Verb :=
  (CallLine.ofLine? line).bind fun call => Verb.ofName? call.name

/-- Operations that bear on templates, zones and containers. -/
def isLayoutVerb : Verb → Bool
  | .insertTemplate | .focusPlaceholder | .insertBox | .insertViewBox | .exitBox => true
  | _ => false

/-- The literal that a call to one of `verbs` starts its arguments with. -/
def leadingLiteral? (verbs : List Verb) (line : Text) : Option Text := do
  let call ← CallLine.ofLine? line
  let _ ← (Verb.ofName? call.name).filter verbs.contains
  let (value, _) ← firstLiteral? call.args
  return value

/-- The literal that a line inserts as text. -/
def Line.text? : Line → Option Text
  | .text literal => some literal
  | _ => none

/-- Is a literal a choice glyph behind white space? -/
def isIndentedChoice (literal : Text) : Bool :=
  literal.head?.any isWhite && isChoiceGlyph literal.trim

/-- A trimmed line that is one complete call, not one of layout, and whose literals no repair has
    reason to write anew. -/
structure IsFlat (line : Text) : Prop where
  trim_eq : Text.trim line = line
  lineEnd : '\n' ∉ line ∧ '\r' ∉ line ∧ '\u2028' ∉ line ∧ '\u2029' ∉ line
  verb : ∃ verb ∈ calledVerb? line, isLayoutVerb verb = false
  score : ∀ literal ∈ (Line.classify line).literal?, scorePoints? literal = none
  text : ∀ literal ∈ (Line.classify line).text?, looksLikeEquation literal = false ∧
    isTabIndicator literal = false ∧ isIndentedChoice literal = false
  primes : ∀ literal ∈ leadingLiteral? [.insertEquation, .insertLatexEquation] line,
    canonicalPrimes literal = literal

instance (line : Text) : Decidable (IsFlat line) :=
  decidable_of_iff
    (Text.trim line = line ∧
      ('\n' ∉ line ∧ '\r' ∉ line ∧ '\u2028' ∉ line ∧ '\u2029' ∉ line) ∧
      (∃ verb ∈ calledVerb? line, isLayoutVerb verb = false) ∧
      (∀ literal ∈ (Line.classify line).literal?, scorePoints? literal = none) ∧
      (∀ literal ∈ (Line.classify line).text?, looksLikeEquation literal = false ∧
        isTabIndicator literal = false ∧ isIndentedChoice literal = false) ∧
      ∀ literal ∈ leadingLiteral? [.insertEquation, .insertLatexEquation] line,
        canonicalPrimes literal = literal)
    ⟨fun h => ⟨h.1, h.2.1, h.2.2.1, h.2.2.2.1, h.2.2.2.2.1, h.2.2.2.2.2⟩,
      fun h => ⟨h.trim_eq, h.lineEnd, h.verb, h.score, h.text, h.primes⟩⟩

/-- Only spaces and tabs stand between the name and the parenthesis, so that a search for calls
    finds the one that the line is; or the search finds none in it, not even in its arguments. -/
def IsRecognized (line : Text) : Prop :=
  (callAt? true line).isSome = true ∨ mentionsCall line = false

instance (line : Text) : Decidable (IsRecognized line) :=
  inferInstanceAs (Decidable (_ ∨ _))

/-! ## Lines that are one call -/

section Call

variable {line : Text} {call : CallLine}

theorem closesLiterals_of_ofLine? (hcall : CallLine.ofLine? line = some call)
    (htrim : Text.trim line = line) : ClosesLiterals line := by
  obtain ⟨hname, hargs, _⟩ := CallLine.ofLine?_eq_some_iff.1 hcall
  obtain ⟨gap, hgap, hline⟩ := CallLine.exists_eq_of_ofLine? hcall htrim
  have hopen : Balance.feed {} '(' = { parens := 1 } := rfl
  refine closesLiterals_of_quote_eq ?_
  rw [hline, Balance.scan, Balance.feedAll_append, feedAll_name_gap hname hgap,
    Balance.feedAll_cons, hopen]
  exact Balance.quote_feedAll_of_untilClosed? hargs

/-- A call starts with a letter or an underscore and has a parenthesis, so it is no fence. -/
theorem isFence_of_ofLine? (hcall : CallLine.ofLine? line = some call) : isFence line = false := by
  obtain ⟨⟨c, name, hname, hc, _⟩, _, gap, _, hline⟩ := CallLine.ofLine?_eq_some_iff.1 hcall
  have htrim : Text.trim line = c :: (name ++ (gap ++ '(' :: (call.args ++ [')']))) := by
    rw [hline, hname, List.cons_append]
  have hparen : '(' ∈ Text.trim line := by
    rw [htrim]
    simp
  have hcode : Text.trim line ≠ "CODE".toList := by
    intro h
    rw [h] at hparen
    exact absurd hparen (by decide)
  have hmarker (rest : Text) : Text.trim line ≠ '[' :: rest := by
    intro h
    rw [htrim] at h
    rw [(List.cons.inj h).1] at hc
    exact absurd hc (by decide)
  have hticks : "```".toList.isPrefixOf (Text.trim line) = false := by
    have hne : '`' ≠ c := by
      rintro rfl
      exact absurd hc (by decide)
    rw [htrim]
    simp [List.isPrefixOf, hne]
  simp only [isFence, Bool.or_eq_false_iff, beq_eq_false_iff_ne]
  exact ⟨⟨⟨hticks, hmarker _⟩, hmarker _⟩, hcode⟩

theorem staysFolded_of_ofLine? (hcall : CallLine.ofLine? line = some call)
    (htrim : Text.trim line = line) (hnewline : '\n' ∉ line) (hfound : IsRecognized line) :
    StaysFolded line := by
  rcases hfound with hfound | hnone
  · obtain ⟨head, hhead⟩ := Option.isSome_iff_exists.1 hfound
    obtain ⟨hname, hargs, _⟩ := CallLine.ofLine?_eq_some_iff.1 hcall
    obtain ⟨gap, hgap, hline⟩ := CallLine.exists_eq_of_ofLine? hcall htrim
    obtain ⟨_, hspace, hlead⟩ := callAt?_eq_some_iff.1 hhead
    -- Both readings of the line agree on its name, and so on what is behind the parenthesis.
    have hsame : call.name ++ (gap ++ '(' :: (call.args ++ [')']))
        = head.verb.name ++ (head.gap ++ '(' :: head.rest) := by
      rw [← List.append_assoc, ← hline, hlead, CallHead.lead]
      simp
    have hrest : call.args ++ [')'] = head.rest :=
      (eq_of_name_append hname (isName_name head.verb) hgap
        (fun c hc => isWhite_of_isGap (hspace c hc)) hsame).2
    exact staysFolded_of_callAt? hhead (by rwa [← hrest]) hnewline
  · exact staysFolded_of_mentionsCall hnone hnewline

end Call

/-! ## Literals that stay -/

theorem updateLiteral_eq {verbs : List Verb} {f : Text → Text} {line : Text}
    (h : ∀ literal ∈ leadingLiteral? verbs line, f literal = literal) :
    updateLiteral verbs f line = line := by
  have hnone : updatedCall? verbs f line = none := by
    cases hupdated : updatedCall? verbs f line with
    | none => rfl
    | some updated =>
      obtain ⟨call, hcall, hupdated⟩ := Option.bind_eq_some_iff.1 hupdated
      obtain ⟨verb, hverb, hupdated⟩ := Option.bind_eq_some_iff.1 hupdated
      obtain ⟨⟨value, rest⟩, hfirst, hupdated⟩ := Option.bind_eq_some_iff.1 hupdated
      have hleading : leadingLiteral? verbs line = some value := by
        simp [leadingLiteral?, hcall, hverb, hfirst]
      simp [h value hleading] at hupdated
  rw [updateLiteral, hnone, Option.getD_none]

theorem isStructural_ofCall {verb : Verb} (h : isLayoutVerb verb = false) (args : Text) :
    (Line.ofCall verb args).isStructural = false := by
  cases hliteral : singleLiteral? args <;> cases verb <;>
    simp_all [isLayoutVerb, Line.ofCall, Line.isStructural]

/-- No repair finds anything to do in a flat line. -/
theorem IsFlat.isUntouched {line : Text} (h : IsFlat line) : IsUntouched line := by
  obtain ⟨verb, hverb, hlayout⟩ := h.verb
  obtain ⟨call, hcall, hname⟩ := Option.bind_eq_some_iff.1 hverb
  have hclassify : Line.classify line = Line.ofCall verb call.args := by
    simp only [Line.classify, hcall, hname]
  have hne : line ≠ [] := by
    obtain ⟨gap, _, hline⟩ := CallLine.exists_eq_of_ofLine? hcall h.trim_eq
    rw [hline]
    simp
  obtain ⟨hnewline, hreturn, hline, hparagraph⟩ := h.lineEnd
  have hlogical : IsLogicalLine line := ⟨hne, h.trim_eq, hnewline⟩
  have hlineEnd : ∀ c ∈ line, c ≠ '\r' ∧ c ≠ '\u2028' ∧ c ≠ '\u2029' := by
    intro c hc
    refine ⟨?_, ?_, ?_⟩ <;> rintro rfl
    · exact hreturn hc
    · exact hline hc
    · exact hparagraph hc
  refine ⟨⟨hlogical, hlineEnd, isFence_of_ofLine? hcall,
    closesLiterals_of_ofLine? hcall h.trim_eq⟩, updateLiteral_eq h.primes,
    splitJoinedCalls_eq (splitTopLevel_of_ofLine? hcall h.trim_eq), ?_, ?_, ?_, ?_, ?_⟩
  · -- A text that is no equation stays a text.
    unfold promoteLine
    split
    · next literal hkind =>
      have htext := h.text literal (by rw [hkind]; rfl)
      rw [htext.1, Bool.false_and, if_neg (by decide)]
    · rfl
  · -- The line is no template, zone request, opening or exit.
    rw [hclassify]
    exact isStructural_ofCall hlayout call.args
  · cases hliteral : (Line.classify line).literal? with
    | none => rw [Line.points?, hliteral, Option.bind_none]
    | some literal => rw [Line.points?, hliteral, Option.bind_some, h.score literal hliteral]
  · unfold insertsTab
    split
    · next literal hkind => exact (h.text literal (by rw [hkind]; rfl)).2.1
    · rfl
  · unfold stripChoice
    split
    · next literal hkind =>
      have htext := h.text literal (by rw [hkind]; rfl)
      rw [← isIndentedChoice, htext.2.2, if_neg (by decide)]
    · rfl

/-! ## Flat scripts -/

/-- A flat script whose calls are recognized is normalized. -/
theorem normalize_unlines_of_isFlat {lines : List Text} (hflat : ∀ l ∈ lines, IsFlat l)
    (hfound : ∀ l ∈ lines, IsRecognized l) :
    normalize (Text.unlines lines) = Text.unlines lines := by
  have hfold : foldCallNewlines (Text.unlines lines) = Text.unlines lines := by
    refine foldCallNewlines_unlines fun l hl => ?_
    obtain ⟨verb, hverb, _⟩ := (hflat l hl).verb
    obtain ⟨call, hcall, _⟩ := Option.bind_eq_some_iff.1 hverb
    exact staysFolded_of_ofLine? hcall (hflat l hl).trim_eq
      (hflat l hl).lineEnd.1 (hfound l hl)
  have hround : Pipeline.full.runOnce (Text.unlines lines) = Text.unlines lines :=
    runOnce_unlines_eq (fun l hl => (hflat l hl).isUntouched) hfold
  rw [normalize_eq_iterate, Function.iterate_fixed hround]

/-- Literals that hold separators, a comment, a call, a fence and choices, and a call with a wide
    space behind its name. -/
def codeInLiterals : List Text :=
  [ "insert_text('a + b; # insert_box() ```')".toList,
    "insert_equation(\"rm F prime = A_0\", 12, True)".toList, "set_bold (True)".toList,
    "insert_text('① ②')".toList, "insert_space\u3000()".toList ]

theorem normalize_codeInLiterals :
    (∀ l ∈ codeInLiterals, IsFlat l) ∧ (∀ l ∈ codeInLiterals, IsRecognized l) ∧
      normalize (Text.unlines codeInLiterals) = Text.unlines codeInLiterals := by
  have hflat : ∀ l ∈ codeInLiterals, IsFlat l := by decide +kernel
  have hfound : ∀ l ∈ codeInLiterals, IsRecognized l := by decide +kernel
  exact ⟨hflat, hfound, normalize_unlines_of_isFlat hflat hfound⟩

/-- With a wide space behind the name, the call in the literal is taken for one of the script, and
    its parenthesis is closed. -/
theorem normalize_ne_of_wide_space :
    (∀ l ∈ ["insert_text\u3000('insert_enter(')".toList], IsFlat l) ∧
      normalize (Text.unlines ["insert_text\u3000('insert_enter(')".toList])
        ≠ Text.unlines ["insert_text\u3000('insert_enter(')".toList] := by
  decide +kernel

end Scribe.Repair
