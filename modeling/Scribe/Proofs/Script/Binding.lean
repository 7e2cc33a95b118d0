import Scribe.Script.Operation
import Scribe.Proofs.Script.Value

set_option autoImplicit false

/-! # What calls are bound to

An operation carries the name of the call it was bound from. Where an argument list is one
literal, the grammar reads that one positional argument, so a call of it is bound to what the
literal says. -/

namespace Scribe

open Text (isWhite isBlank isIdentChar isIdentStart)

/-! ## Names -/

theorem Operation.exists_of_bind {α : Type} {x : Except ArgumentError α}
    {f : α → Except ArgumentError Operation} {op : Operation} (h : x >>= f = .ok op) :
    ∃ a, f a = .ok op := by
  cases x with
  | error e => simp [bind, Except.bind] at h
  | ok a => exact ⟨a, h⟩

/-- A call is bound to an operation of its own name. -/
theorem Operation.verb_of_ofInvocation {inv : Invocation} {op : Operation}
    (h : Operation.ofInvocation inv = .ok op) : op.verb = inv.verb := by
  unfold ofInvocation at h
  obtain ⟨slots, h⟩ := exists_of_bind h
  cases hverb : inv.verb with
  | insertText | focusPlaceholder | setBold | setUnderline | setCharWidthRatio =>
    simp only [hverb] at h
    obtain ⟨_, h⟩ := exists_of_bind h
    cases h
    rfl
  | insertEquation | insertLatexEquation =>
    simp only [hverb] at h
    obtain ⟨_, h⟩ := exists_of_bind h
    obtain ⟨_, h⟩ := exists_of_bind h
    cases h
    rfl
  | insertTemplate =>
    simp only [hverb] at h
    obtain ⟨_, h⟩ := exists_of_bind h
    split at h
    · cases h
      rfl
    · simp [throw, throwThe, MonadExceptOf.throw] at h
  | insertTable =>
    simp only [hverb] at h
    obtain ⟨_, h⟩ := exists_of_bind h
    obtain ⟨_, h⟩ := exists_of_bind h
    split at h
    · obtain ⟨_, h⟩ := exists_of_bind h
      obtain ⟨_, h⟩ := exists_of_bind h
      obtain ⟨_, h⟩ := exists_of_bind h
      cases h
      rfl
    · obtain ⟨_, h⟩ := exists_of_bind h
      obtain ⟨_, h⟩ := exists_of_bind h
      obtain ⟨_, h⟩ := exists_of_bind h
      cases h
      rfl
  | _ =>
    simp only [hverb] at h
    cases h
    rfl

theorem Operation.ofInvocation_focusPlaceholder (marker : Text) :
    ofInvocation ⟨.focusPlaceholder, [.str marker], []⟩
      = .ok (.focusPlaceholder (.ofMarker marker)) := rfl

theorem Operation.ofInvocation_insertTemplate (name : Text) :
    ofInvocation ⟨.insertTemplate, [.str name], []⟩
      = match Template.ofName? name with
        | some template => .ok (.insertTemplate template)
        | none => .error ⟨.insertTemplate, .unknownTemplate name⟩ := rfl

/-! ## One literal -/

namespace Grammar

/-- A literal does not look like a keyword. -/
theorem keyword?_of_scan? {s value rest : Text} (h : Literal.scan? s = some (value, rest)) :
    keyword? s = none := by
  have hquoted (c : Char) (hc : IsName [c]) {s : Text}
      (h : Literal.scanPlain? id s = some (value, rest)) : keyword? (c :: s) = none := by
    obtain ⟨q, u, hq, rfl, _, _⟩ := Literal.exists_of_scanPlain? h
    have hident : identifier ([c] ++ (q :: u ++ rest)) = ([c], q :: u ++ rest) := by
      refine identifier_append_eq hc fun d hd => ?_
      rw [← Option.some.inj hd]
      rcases Literal.isQuote_iff.1 hq with rfl | rfl <;> decide
    have hsep : separator? '=' (q :: u ++ rest) = none := by
      rcases Literal.isQuote_iff.1 hq with rfl | rfl <;> rfl
    rw [List.singleton_append] at hident
    simp only [keyword?, hident, hsep, Option.map_none, ite_self]
  unfold Literal.scan? at h
  split at h
  · exact hquoted 'r' ⟨'r', [], rfl, by decide, by simp⟩ h
  · exact hquoted 'R' ⟨'R', [], rfl, by decide, by simp⟩ h
  · obtain ⟨q, u, hq, rfl, _, _⟩ := Literal.exists_of_scanPlain? h
    rcases Literal.isQuote_iff.1 hq with rfl | rfl <;> rfl

/-- Nothing is read where an argument starts with white space. -/
theorem argument_of_isWhite {c : Char} (hwhite : isWhite c = true) (s : Text) :
    argument argumentValue (c :: s) = .mismatch := by
  have hne {d : Char} (hd : isWhite d = false) : c ≠ d := by
    rintro rfl
    rw [hwhite] at hd
    exact absurd hd (by decide)
  have hstart : isIdentStart c = false := by
    by_cases h : isIdentStart c = true
    · have hc := isWhite_of_isIdentChar (isIdentChar_of_isIdentStart h)
      rw [hwhite] at hc
      exact absurd hc (by decide)
    · simpa using h
  have hident := identifier_eq_nil hstart s
  have hdigit : c.isDigit = false := by
    by_cases h : c.isDigit = true
    · have hc := isWhite_of_isIdentChar (c := c) (by simp [isIdentChar, h, Char.isAlphanum])
      rw [hwhite] at hc
      exact absurd hc (by decide)
    · simpa using h
  have hnumber : number (c :: s) = .mismatch := number_eq_mismatch (hne (by decide)) hdigit s
  have hnot : c ∉ ['\'', '"', 'r', 'R', '[', '('] :=
    Text.not_mem_of_all (p := fun d => isWhite d = true) hwhite (by decide)
  have hvalue : argumentValue (c :: s) = .mismatch := by
    show valueOf (value maxNesting) (c :: s) = .mismatch
    rw [valueOf_cons_eq_scalar hnot, scalar, hnumber]
    simp [word, hident]
  have hkeyword : keyword? (c :: s) = none := by simp [keyword?, hident]
  rw [argument, hkeyword]
  simp only [hvalue, Parsed.map]

/-- White space holds no comma. -/
theorem separator?_of_isWhite {s : Text} (h : ∀ c ∈ s, isWhite c = true) :
    separator? ',' s = none := by
  unfold separator?
  split
  · rfl
  · next d r hskip =>
    have hd : d ∈ s := (List.dropWhile_sublist isBlank).mem (by
      rw [← skipBlank, hskip]
      exact List.mem_cons_self)
    rw [if_neg]
    rintro rfl
    exact absurd (h _ hd) (by decide)

/-- An argument list that is one literal means that literal, if it means anything. -/
theorem eq_of_parseArguments_of_singleLiteral? {args literal : Text}
    {found : List Value × List (Text × Value)} (h : parseArguments args = .ok found)
    (hliteral : singleLiteral? args = some literal) : found = ([.str literal], []) := by
  obtain ⟨⟨value, rest⟩, hfirst, hblank⟩ := Option.bind_eq_some_iff.1 hliteral
  simp only [Option.ite_none_right_eq_some, Option.some.injEq] at hblank
  obtain ⟨hrest, rfl⟩ := hblank
  obtain ⟨hscan, _⟩ := Option.filter_eq_some_iff.1 hfirst
  have hrest : ∀ c ∈ rest, isWhite c = true := List.all_eq_true.1 hrest
  obtain ⟨b, hb, hargs⟩ := exists_skipBlank args
  have hb : ∀ c ∈ b, isWhite c = true := fun c hc => isWhite_of_isBlank (hb c hc)
  by_cases hstart : (skipBlank args).head?.any isWhite = true
  · -- The grammar skips less white space than the literal does, and reads nothing here.
    obtain ⟨c, hc, hwhite⟩ := (Option.any_eq_true _ _).1 hstart
    obtain ⟨r, hr⟩ := List.head?_eq_some_iff.1 hc
    have hskip : skipBlank (c :: r) = c :: r := by rw [← hr, skipBlank_skipBlank]
    have hsep : separator? ',' (c :: r) = none := by
      unfold separator?
      rw [hskip]
      simp only
      rw [if_neg]
      rintro rfl
      exact absurd hwhite (by decide)
    simp [parseArguments, hr, arguments, items, separated, hskip, argument_of_isWhite hwhite, hsep,
      Parsed.map] at h
  · -- Both skip the same white space, and the grammar finds one value and no comma behind it.
    have htrim : args.trimStart = skipBlank args := by
      rw [hargs, Text.trimStart, List.dropWhile_append_of_pos hb, ← hargs]
      cases hs : skipBlank args with
      | nil => rfl
      | cons c r =>
        rw [hs] at hstart
        rw [List.dropWhile_cons_of_neg (by simpa using hstart)]
    rw [htrim] at hscan
    have hitem : argument argumentValue (skipBlank args) = .ok (.positional (.str value)) rest := by
      have hvalue : argumentValue (skipBlank args) = .ok (.str value) rest :=
        valueOf_of_scan? hscan
      rw [argument, keyword?_of_scan? hscan]
      simp only [hvalue, Parsed.map]
    have hfirst : argument argumentValue (skipBlank (skipBlank args))
        = .ok (.positional (.str value)) rest := by
      rw [skipBlank_skipBlank, hitem]
    rw [parseArguments, arguments, items_eq_singleton hfirst (separator?_of_isWhite hrest)] at h
    simp only [Parsed.map, skipBlank_skipBlank] at h
    split at h
    · cases h
      rfl
    · simp at h

end Grammar

end Scribe
