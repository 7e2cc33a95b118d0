import Mathlib.Data.List.Forall2
import Scribe.Proofs.Repair.FlatScripts

set_option autoImplicit false

/-! # Primes are respelled in leading literals only

Canonical primes are written into the equation literals of a script by taking a line apart that is
one call, and putting it together again around a new literal. The new literal may be quoted in the
other style, and what stands behind it may hold quotes and parentheses of its own. Main statement:
the new line is again one call of the same operation, its literal denotes the canonical value, and
the text behind the literal is the same; any other line is left alone. -/

namespace Scribe.Repair

open Text (isWhite)

/-! ## Lines that lead with a literal -/

/-- The line is one call of `verb`, its arguments start with a literal of this value, and `rest`
    stands behind the literal. -/
def LeadsWith (line : Text) (verb : Verb) (value rest : Text) : Prop :=
  ∃ args, CallLine.ofLine? line = some ⟨verb.name, args⟩ ∧ firstLiteral? args = some (value, rest)

section LeadsWith

variable {line : Text} {verb : Verb} {value rest : Text}

/-- Behind the literal, the arguments go on up to the end of the call. -/
theorem LeadsWith.argumentList?_rest (h : LeadsWith line verb value rest) :
    Balance.argumentList? (rest ++ [')']) = some (rest, []) := by
  obtain ⟨args, hcall, hfirst⟩ := h
  obtain ⟨_, hargs, _⟩ := CallLine.ofLine?_eq_some_iff.1 hcall
  obtain ⟨gap, literal, hgap, hsplit, hliteral⟩ := exists_of_firstLiteral? hfirst
  have hlead : Balance.IsClosed (gap ++ literal) :=
    (Balance.isClosed_of_isPlain fun c hc => Balance.isPlain_of_isWhite (hgap c hc)).append hliteral
  simp only at hargs
  rw [hsplit, List.append_assoc, Balance.argumentList?,
    hlead.untilClosed?_append _ _ rfl rfl Nat.one_pos] at hargs
  obtain ⟨⟨inner, behind⟩, hinner, heq⟩ := Option.map_eq_some_iff.1 hargs
  obtain ⟨hsame, rfl⟩ := Prod.mk.inj heq
  obtain rfl := List.append_cancel_left hsame
  exact hinner

/-- A call with another literal in place of the first one reads as such. -/
theorem LeadsWith.respell (h : LeadsWith line verb value rest) (new : Text) :
    LeadsWith (verb.name ++ '(' :: Literal.quote new ++ rest ++ [')']) verb new rest := by
  have hargs : Balance.argumentList? (Literal.quote new ++ rest ++ [')'])
      = some (Literal.quote new ++ rest, []) := by
    have hrest := h.argumentList?_rest
    rw [Balance.argumentList?] at hrest ⊢
    rw [List.append_assoc,
      (Literal.isClosed_quote new).untilClosed?_append _ _ rfl rfl Nat.one_pos, hrest]
    rfl
  refine ⟨Literal.quote new ++ rest, CallLine.ofLine?_eq_some_iff.2
    ⟨isName_name verb, hargs, [], by simp, ?_⟩, ?_⟩
  · have htrim := trim_call verb ('(' :: Literal.quote new ++ rest)
    simpa using htrim
  · obtain ⟨_, _, hfirst⟩ := h
    have hbehind := (Option.filter_eq_some_iff.1 hfirst).2
    have hquote : isWhite (Literal.quoteStyle new) = false := by
      rcases Literal.isQuote_iff.1 (Literal.isQuote_quoteStyle new) with hq | hq <;> rw [hq] <;> rfl
    have hstart : Text.trimStart (Literal.quote new ++ rest) = Literal.quote new ++ rest := by
      simp [Text.trimStart, Literal.quote, hquote]
    rw [firstLiteral?, hstart, Literal.scan?_quote]
    exact Option.filter_eq_some_iff.2 ⟨rfl, hbehind⟩

end LeadsWith

/-! ## Updated literals -/

section Update

variable {verbs : List Verb} {f : Text → Text} {line : Text} {verb : Verb} {value rest : Text}

theorem updateLiteral_of_leadsWith (hverb : verb ∈ verbs) (h : LeadsWith line verb value rest) :
    updateLiteral verbs f line = if f value = value then line
      else verb.name ++ '(' :: Literal.quote (f value) ++ rest ++ [')'] := by
  obtain ⟨args, hcall, hfirst⟩ := h
  have hfound : (Verb.ofName? verb.name).filter verbs.contains = some verb := by
    rw [Verb.ofName?_name]
    simpa [Option.filter] using hverb
  simp only [updateLiteral, updatedCall?, hcall, Option.bind_eq_bind, Option.bind_some, hfound,
    hfirst]
  split
  · rfl
  · rfl

theorem exists_leadsWith_of_leadingLiteral? (h : leadingLiteral? verbs line = some value) :
    ∃ verb ∈ verbs, ∃ rest, LeadsWith line verb value rest := by
  obtain ⟨⟨name, args⟩, hcall, h⟩ := Option.bind_eq_some_iff.1 h
  obtain ⟨verb, hverb, h⟩ := Option.bind_eq_some_iff.1 h
  obtain ⟨⟨_, rest⟩, hfirst, heq⟩ := Option.bind_eq_some_iff.1 h
  obtain ⟨hname, hmem⟩ := Option.filter_eq_some_iff.1 hverb
  cases heq
  refine ⟨verb, by simpa using hmem, rest, args, ?_, hfirst⟩
  rw [Verb.name_of_ofName? hname]
  exact hcall

end Update

/-! ## Equation lines -/

/-- Operations whose literal is an equation. -/
def equationVerbs : List Verb := [.insertEquation, .insertLatexEquation]

/-- `line'` is `line` with canonical primes in its leading equation literal: the same operation is
    called and the same text stands behind the literal. Without such a literal, or with primes that
    are canonical already, it is `line` itself. -/
structure RespellsPrimes (line line' : Text) : Prop where
  leadsWith : ∀ verb ∈ equationVerbs, ∀ value rest,
    LeadsWith line verb value rest → LeadsWith line' verb (canonicalPrimes value) rest
  verbatim : (∀ verb ∈ equationVerbs, ∀ value rest,
    LeadsWith line verb value rest → canonicalPrimes value = value) → line' = line
  newline_not_mem : '\n' ∉ line'

theorem respellsPrimes_updateLiteral {line : Text} (hnewline : '\n' ∉ line) :
    RespellsPrimes line (updateLiteral equationVerbs canonicalPrimes line) where
  leadsWith verb hverb value rest h := by
    rw [updateLiteral_of_leadsWith hverb h]
    split
    · next hcanonical => rwa [hcanonical]
    · exact h.respell _
  verbatim h := updateLiteral_eq fun literal hliteral => by
    obtain ⟨verb, hverb, rest, hleads⟩ := exists_leadsWith_of_leadingLiteral? hliteral
    exact h verb hverb literal rest hleads
  newline_not_mem := newline_not_mem_updateLiteral hnewline _ _

/-- Canonical primes are written into the leading equation literals of a script, line by line, and
    nothing else changes. -/
theorem respellsPrimes_canonicalizeEquations (s : Text) :
    ∃ lines, canonicalizeEquations s = Text.unlines lines ∧
      List.Forall₂ RespellsPrimes (Text.lines s) lines := by
  refine ⟨(Text.lines s).map (updateLiteral equationVerbs canonicalPrimes), rfl, ?_⟩
  rw [List.forall₂_map_right_iff]
  exact List.forall₂_same.2 fun line hline =>
    respellsPrimes_updateLiteral (Text.newline_not_mem_of_mem_lines hline)

end Scribe.Repair
