import Scribe.Script.Call

set_option autoImplicit false

/-! # Physical repairs

The first repairs see a script as one text. They settle its line ends and indentation, drop what
is no script, and mend literals and calls that were broken across lines, so that afterwards a call
stands on one line. -/

namespace Scribe.Repair

open Text (isGap)

/-! ## Line ends and indentation -/

/-- Every kind of line end as a line feed. -/
def unifyLineEnds : Text → Text
  | [] => []
  | '\r' :: '\n' :: s => '\n' :: unifyLineEnds s
  | c :: s =>
    (if c == '\r' || c == '\u2028' || c == '\u2029' then '\n' else c) :: unifyLineEnds s

/-- The least indentation of the lines that are not empty. -/
def commonIndent (lines : List Text) : Nat :=
  let indents := (lines.filter fun l => !l.isEmpty).map fun l => (l.takeWhile isGap).length
  indents.min?.getD 0

/-- Unifies line ends and drops trailing white space, the common indentation, and the empty lines
    around the script. -/
def canonicalizeWhitespace (s : Text) : Text :=
  let lines := (Text.lines (unifyLineEnds s)).map Text.trimEnd
  Text.trim (Text.unlines (lines.map fun l => l.drop (commonIndent lines)))

/-! ## Fences -/

/-- Is the line a code fence or a code marker, which no script contains? -/
def isFence (line : Text) : Bool :=
  let t := line.trim
  "```".toList.isPrefixOf t || t == "[CODE]".toList || t == "[/CODE]".toList || t == "CODE".toList

/-- Drops code fences and code markers wherever they stand. -/
def stripCodeFences (s : Text) : Text :=
  Text.unlines ((Text.lines s).filter fun l => !isFence l)

/-! ## Literals across lines -/

/-- Operations whose literal may have been broken across lines. -/
def isTextVerb : Verb → Bool
  | .insertText | .insertEquation | .insertLatexEquation => true
  | _ => false

/-- Does the line hold a call whose literal may go on in the next line? -/
def hasTextCall (line : Text) : Bool := anyCall isTextVerb true line

/-- Joins to a line whose literal is open the lines that follow it, until the literal is closed.
    `pending` is such a line with its balance; at the end of the script it is closed. -/
def joinOpenLines (pending : Option (Text × Balance)) : List Text → List Text
  | [] =>
    match pending with
    | none => []
    | some (line, b) => [b.closeOpen line]
  | next :: lines =>
    let (line, b, mayGoOn) := match pending with
      | none => (next, Balance.scan next, hasTextCall next)
      | some (line, b) => (line ++ ' ' :: next.trim, b.feedAll (' ' :: next.trim), true)
    if mayGoOn && b.inQuote then joinOpenLines (some (line, b)) lines
    else line :: joinOpenLines none lines

/-- Puts literals that were broken across lines on one line. -/
def joinMultilineLiterals (s : Text) : Text := Text.unlines (joinOpenLines none (Text.lines s))

/-! ## Line breaks inside calls -/

/-- The inside of a call on one line, up to its closing parenthesis, and the text behind it. A line
    break becomes a space, but one outside a literal with another call behind it ends the call. -/
def foldInside (b : Balance) (done : Text) (s : Text) : Text × Text :=
  match s with
  | [] => (b.closeOpen done.reverse, [])
  | c :: r =>
    if c = '\n' then
      let next := r.dropWhile isGap
      if !b.inQuote && (callAt? true next).isSome then (b.closeOpen done.reverse, '\n' :: next)
      else foldInside b (' ' :: done) next
    else
      let b := b.feed c
      if !b.inQuote && b.parens == 0 then ((c :: done).reverse, r)
      else foldInside b (c :: done) r
termination_by s.length
decreasing_by
  · have : (r.dropWhile isGap).length ≤ r.length := (List.dropWhile_sublist _).length_le
    simp only [List.length_cons]
    omega
  · simp

theorem foldInside_length_le (b : Balance) (done s : Text) :
    (foldInside b done s).2.length ≤ s.length := by
  have hgap (r : Text) : (r.dropWhile isGap).length ≤ r.length :=
    (List.dropWhile_sublist _).length_le
  fun_induction foldInside b done s with
  | case1 => simp
  | case2 b done r next =>
    simp only [List.length_cons]
    exact Nat.succ_le_succ (hgap r)
  | case3 b done r next _ ih => exact Nat.le_succ_of_le (Nat.le_trans ih (hgap r))
  | case4 => simp
  | case5 b done c r _ _ _ ih => exact Nat.le_succ_of_le ih

/-- Puts every call on one line, comments left alone; `free` tells whether a name may start here. -/
def foldCalls (free : Bool) (s : Text) : Text :=
  match s with
  | [] => []
  | c :: r =>
    if c = '#' then
      c :: r.takeWhile (· != '\n') ++ foldCalls true (r.dropWhile (· != '\n'))
    else match _hcall : callAt? free (c :: r) with
      | some head =>
        head.lead ++ (foldInside { parens := 1 } [] head.rest).1
          ++ foldCalls true (foldInside { parens := 1 } [] head.rest).2
      | none => c :: foldCalls (isFreeAfter (some c)) r
termination_by s.length
decreasing_by
  · have : (r.dropWhile (· != '\n')).length ≤ r.length := (List.dropWhile_sublist _).length_le
    simp only [List.length_cons]
    omega
  · have h := congrArg List.length (eq_append_of_callAt? _hcall)
    have := foldInside_length_le { parens := 1 } [] head.rest
    simp only [CallHead.lead, List.length_append, List.length_cons] at h ⊢
    omega
  · simp

/-- One call per line: line breaks inside calls become spaces. -/
def foldCallNewlines (s : Text) : Text := foldCalls true s

/-! ## Unterminated literals -/

/-- Closes what is open at the end of a line with a call whose literal is still open. -/
def closeQuotes (line : Text) : Text :=
  let b := Balance.scan line
  if mentionsCall line && b.inQuote then b.closeOpen line else line

/-- Closes literals that are open at the end of their line. -/
def closeUnterminatedQuotes (s : Text) : Text := Text.unlines ((Text.lines s).map closeQuotes)

end Scribe.Repair
