import Scribe.Repair.Line
import Scribe.Repair.Primes
import Scribe.Repair.Scores

set_option autoImplicit false

/-! # One statement per line

Calls joined on one line are put on lines of their own, and text that is written as an equation
becomes one. -/

namespace Scribe.Repair

/-- The pieces of a line between `+` and `;`, without empty ones. -/
def statementParts (line : Text) : List Text :=
  ((splitTopLevel (fun c => c == '+' || c == ';') line).map Text.trim).filter fun p => !p.isEmpty

/-- The line cut into its pieces, if at least two of them are calls. -/
def splitJoinedCalls (line : Text) : List Text :=
  let parts := statementParts line
  if (parts.filter fun p => (CallLine.ofLine? p).isSome).length < 2 then [line] else parts

/-- Puts calls joined by `+` or `;` on lines of their own. -/
def splitConcatenatedCalls (lines : List Text) : List Text := lines.flatMap splitJoinedCalls

/-- The line, as an equation if it inserts a text that is written as one. -/
def promoteLine (line : Text) : Text :=
  match Line.classify line with
  | .text literal =>
    if looksLikeEquation literal && (scorePoints? literal).isNone then
      renderCall .insertEquation (canonicalPrimes literal)
    else line
  | _ => line

/-- Turns text that is written in the equation notation into equations. -/
def promoteMathText (lines : List Text) : List Text := lines.map promoteLine

end Scribe.Repair
