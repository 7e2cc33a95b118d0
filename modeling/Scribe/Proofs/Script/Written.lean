import Scribe.Proofs.Script.Binding
import Scribe.Proofs.Script.Tiers

set_option autoImplicit false

/-! # Written calls are read back

A call that is written with one literal is read back by every reader there is: as a line that is
one call, by the grammar, by the tolerant scanner, and as a bare argument list. Each reader finds
the end of the literal in a way of its own, so each has its own lemma. Scripts of written calls are
read call by call. -/

namespace Scribe

open Text (isBlank isGap)
open Balance (IsClosed)

/-! ## Literals -/

namespace Literal

/-- The value of the literal that a text starts with, and how many bytes the literal takes. -/
def extent? (s : Text) : Option (Text × Nat) :=
  (scan? s).map fun (value, rest) => (value, Text.utf8Length s - Text.utf8Length rest)

/-- A written literal takes exactly the bytes that were written. -/
theorem extent?_quote (value rest : Text) :
    extent? (quote value ++ rest) = some (value, Text.utf8Length (quote value)) := by
  simp only [extent?, scan?_quote, Option.map_some, Text.utf8Length_append, Nat.add_sub_cancel]

/-- A written literal starts with its quote, so no blank stands in front of it. -/
theorem skipBlank_quote (value rest : Text) :
    Grammar.skipBlank (quote value ++ rest) = quote value ++ rest := by
  have hq : isBlank (quoteStyle value) = false := by
    rcases isQuote_iff.1 (isQuote_quoteStyle value) with h | h <;> rw [h] <;> rfl
  rw [quote, List.cons_append, List.cons_append, Grammar.skipBlank,
    List.dropWhile_cons_of_neg (by simp [hq])]

end Literal

/-! ## The grammar -/

namespace Grammar

open Literal (quote)

theorem argument_quote (value rest : Text) :
    argument argumentValue (quote value ++ rest) = .ok (.positional (.str value)) rest := by
  have hscan := Literal.scan?_quote value rest
  have hvalue : argumentValue (quote value ++ rest) = .ok (.str value) rest :=
    valueOf_of_scan? hscan
  rw [argument, keyword?_of_scan? hscan]
  simp only [hvalue, Parsed.map]

/-- An argument list goes on behind a written literal only where a comma stands. -/
theorem arguments_quote (value : Text) {rest : Text} (hrest : separator? ',' rest = none) :
    arguments argumentValue (quote value ++ rest)
      = .ok [.positional (.str value)] (skipBlank rest) := by
  have hfirst : argument argumentValue (skipBlank (quote value ++ rest))
      = .ok (.positional (.str value)) rest := by
    rw [Literal.skipBlank_quote, argument_quote]
  rw [arguments, items_eq_singleton hfirst hrest]
  rfl

theorem parseArguments_quote (value : Text) :
    parseArguments (quote value) = .ok ([.str value], []) := by
  have hend : separator? ',' [] = none := rfl
  have hargs := arguments_quote value hend
  have hskip := Literal.skipBlank_quote value []
  rw [List.append_nil] at hargs hskip
  rw [parseArguments, hskip, hargs]
  rfl

/-- A written call, taken apart in front of what follows it. -/
theorem renderCall_append (verb : Verb) (value rest : Text) :
    renderCall verb value ++ rest = verb.name ++ '(' :: (quote value ++ ')' :: rest) := by
  simp [renderCall]

theorem call_renderCall (verb : Verb) (value rest : Text) :
    call argumentValue (renderCall verb value ++ rest)
      = .ok ⟨verb.name, [.str value], []⟩ rest := by
  have hident : identifier (verb.name ++ '(' :: (quote value ++ ')' :: rest))
      = (verb.name, '(' :: (quote value ++ ')' :: rest)) := by
    refine identifier_append_eq (isName_name verb) fun c hc => ?_
    rw [← Option.some.inj hc]
    decide
  have hname : verb.name.isEmpty = false := by
    simpa using (isName_name verb).ne_nil
  have hgap : ('(' :: (quote value ++ ')' :: rest)).dropWhile isGap
      = '(' :: (quote value ++ ')' :: rest) := rfl
  have hend : separator? ',' (')' :: rest) = none := rfl
  have hargs := arguments_quote value hend
  rw [renderCall_append, call, hident]
  simp only [hname, hgap, hargs]
  rfl

end Grammar

/-! ## Scripts of written calls -/

/-- The script that makes each call on a line of its own, with its one literal. -/
def renderScript (calls : List (Verb × Text)) : Text :=
  Text.unlines (calls.map fun call => renderCall call.1 call.2)

@[simp] theorem renderScript_nil : renderScript [] = [] := rfl

@[simp] theorem renderScript_singleton (call : Verb × Text) :
    renderScript [call] = renderCall call.1 call.2 := Text.unlines_singleton _

theorem renderScript_cons_cons (call next : Verb × Text) (calls : List (Verb × Text)) :
    renderScript (call :: next :: calls)
      = renderCall call.1 call.2 ++ '\n' :: renderScript (next :: calls) :=
  Text.unlines_cons_cons _ _ _

namespace Grammar

/-- A script of written calls starts with a name, so nothing idle stands in front of it. -/
theorem skipIdle_renderScript (calls : List (Verb × Text)) :
    skipIdle false (renderScript calls) = renderScript calls := by
  have hcall (call : Verb × Text) (rest : Text) :
      skipIdle false (renderCall call.1 call.2 ++ rest) = renderCall call.1 call.2 ++ rest := by
    obtain ⟨c, r, hname, hc, _⟩ := isName_name call.1
    have hblank : isBlank c = false := by
      by_cases hb : isBlank c = true
      · have hident := isIdentChar_of_isIdentStart hc
        rw [isIdentChar_of_isBlank hb] at hident
        exact absurd hident (by decide)
      · simpa using hb
    have hsemicolon : c ≠ ';' := by
      rintro rfl
      exact absurd hc (by decide)
    have hcomment : c ≠ '#' := by
      rintro rfl
      exact absurd hc (by decide)
    rw [renderCall_append, hname, List.cons_append, skipIdle]
    simp [hblank, hsemicolon, hcomment]
  cases calls with
  | nil => rfl
  | cons call calls =>
    cases calls with
    | nil =>
      have h := hcall call []
      rwa [List.append_nil, ← renderScript_singleton] at h
    | cons next calls =>
      rw [renderScript_cons_cons]
      exact hcall call _

/-- One step over a script: a written call, the end of its statement, and what follows. -/
theorem statements_renderCall (verb : Verb) (value : Text) {rest next : Text}
    (hend : statementEnd? rest = some next) (hnext : (skipIdle false next).length ≤ rest.length) :
    statements (renderCall verb value ++ rest)
      = (statements (skipIdle false next)).map (⟨verb.name, [.str value], []⟩ :: ·) := by
  have hne : (renderCall verb value ++ rest).isEmpty = false := by
    have hname := (isName_name verb).ne_nil
    simp [renderCall, hname]
  have hlt : (skipIdle false next).length < (renderCall verb value ++ rest).length := by
    rw [renderCall_append, List.length_append, List.length_cons, List.length_append,
      List.length_cons]
    omega
  rw [statements, hne, call_renderCall]
  simp only [hend, hlt, Bool.false_eq_true, if_false, if_true]

/-- The grammar reads a script of written calls as these calls. -/
theorem statements_renderScript (calls : List (Verb × Text)) :
    statements (renderScript calls)
      = .ok (calls.map fun call => ⟨call.1.name, [.str call.2], []⟩) := by
  induction calls with
  | nil =>
    rw [renderScript_nil, statements]
    rfl
  | cons call calls ih =>
    cases calls with
    | nil =>
      have hend : statementEnd? [] = some [] := rfl
      have hstep := statements_renderCall call.1 call.2 hend (Nat.le_refl _)
      rw [List.append_nil] at hstep
      rw [renderScript_singleton, hstep]
      have hnil : statements (skipIdle false []) = .ok [] := ih
      rw [hnil]
      rfl
    | cons next calls =>
      have hidle := skipIdle_renderScript (next :: calls)
      rw [renderScript_cons_cons, statements_renderCall call.1 call.2 rfl
        (by rw [hidle, List.length_cons]; omega), hidle, ih]
      rfl

theorem parseScript_renderScript (calls : List (Verb × Text)) :
    parseScript (renderScript calls)
      = .ok (calls.map fun call => { verb := call.1, args := [.str call.2] }) := by
  have hinvocation (call : Verb × Text) :
      RawCall.invocation? ⟨call.1.name, [.str call.2], []⟩
        = some { verb := call.1, args := [.str call.2] } := by
    rw [RawCall.invocation?, Verb.ofName?_name]
    rfl
  have hread : Grammar.calls (renderScript calls)
      = .ok (calls.map fun call => ⟨call.1.name, [.str call.2], []⟩) := by
    rw [Grammar.calls, skipIdle_renderScript, statements_renderScript]
    rfl
  rw [parseScript_eq, hread]
  simp only [Except.map, List.filterMap_map, Function.comp_def, hinvocation,
    List.filterMap_eq_map']

end Grammar

/-- The scanner finds exactly the calls of a script of written calls. -/
theorem Scanner.callsFrom_renderScript (calls : List (Verb × Text)) {before : Option Char}
    (hfree : isFreeAfter before = true) :
    callsFrom before (renderScript calls)
      = calls.map fun call => (call.1, Literal.quote call.2) := by
  -- A written call is found wherever a name may start, and the scan goes on behind it.
  have hcall (call : Verb × Text) {before : Option Char} (hfree : isFreeAfter before = true)
      (rest : Text) :
      callsFrom before (renderCall call.1 call.2 ++ rest)
        = (call.1, Literal.quote call.2) :: callsFrom (some ')') rest := by
    have hgap : ∀ c ∈ ([] : Text), isGap c = true := fun c hc => absurd hc List.not_mem_nil
    rw [Grammar.renderCall_append]
    exact callsFrom_call hfree hgap (Literal.isClosed_quote call.2) rest
  induction calls generalizing before with
  | nil =>
    rw [renderScript_nil, callsFrom]
    rfl
  | cons call calls ih =>
    cases calls with
    | nil =>
      have hone := hcall call hfree []
      rw [List.append_nil, callsFrom] at hone
      rw [renderScript_singleton, hone]
      rfl
    | cons next calls =>
      obtain ⟨hbreak, hfree'⟩ := callsFrom_of_isIdle (c := '\n') rfl (some ')')
        (renderScript (next :: calls))
      rw [renderScript_cons_cons, hcall call hfree, hbreak, ih hfree']
      rfl

/-! ## Reading back -/

/-- Every reader gives back what a written call says: the line reader its value, the grammar the
    one invocation with that one argument, the scanner the one call with the literal as its raw
    argument list, which means the value again; and the literal is read up to its last byte,
    whatever stands behind it. -/
theorem readBack_renderCall (verb : Verb) (value suffix : Text) :
    callLiteral? (renderCall verb value) verb = some value ∧
    Grammar.parseScript (renderCall verb value)
      = .ok [{ verb, args := [.str value], kwargs := [] }] ∧
    Scanner.calls (renderCall verb value) = [(verb, Literal.quote value)] ∧
    Grammar.parseArguments (Literal.quote value) = .ok ([.str value], []) ∧
    Literal.scan? (Literal.quote value ++ suffix) = some (value, suffix) ∧
    Literal.extent? (Literal.quote value ++ suffix)
      = some (value, Text.utf8Length (Literal.quote value)) := by
  have hscript := renderScript_singleton (verb, value)
  refine ⟨?line, ?grammar, ?scanner, ?arguments, ?literal, ?bytes⟩
  case line =>
    rw [callLiteral?, renderCall, CallLine.ofLine?_call verb (Literal.isClosed_quote value)]
    exact (if_pos rfl).trans (singleLiteral?_quote value)
  case grammar =>
    rw [← hscript]
    exact Grammar.parseScript_renderScript [(verb, value)]
  case scanner =>
    rw [← hscript]
    exact Scanner.callsFrom_renderScript [(verb, value)] rfl
  case arguments => exact Grammar.parseArguments_quote value
  case literal => exact Literal.scan?_quote value suffix
  case bytes => exact Literal.extent?_quote value suffix

end Scribe
