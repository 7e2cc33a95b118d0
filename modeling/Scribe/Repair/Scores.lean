import Scribe.Decimal.Reading
import Scribe.Decimal.Layout
import Scribe.Repair.Line

set_option autoImplicit false

/-! # Score lines

The points of a question stand on a line of their own, set to the right: a break and a right
alignment in front, one break behind. -/

namespace Scribe.Repair

open Text (isWhite isDecimal)

/-! ## Score literals -/

/-- The greatest number of points that counts as a score. -/
def maxPoints : Nat := UInt32.size - 1

/-- The points of a score literal such as `[3점]`; white space may stand between its parts. -/
def scorePoints? (literal : Text) : Option Nat := do
  let s ← Text.stripStart? ['['] (literal.dropWhile isWhite)
  let s := s.dropWhile isWhite
  let digits := s.takeWhile isDecimal
  let s ← Text.stripStart? ['점'] ((s.dropWhile isDecimal).dropWhile isWhite)
  let rest ← Text.stripStart? [']'] (s.dropWhile isWhite)
  if rest.all isWhite then (Decimal.digits? digits).filter (· ≤ maxPoints) else none

/-- The literal of a score. -/
def scoreLiteral (points : Nat) : Text := '[' :: Decimal.natText points ++ ['점', ']']

/-- The points of a line that inserts a score. -/
def Line.points? (line : Line) : Option Nat := line.literal?.bind scorePoints?

/-! ## Isolation -/

/-- What is owed behind a score. -/
inductive AfterScore where
  | idle
  /-- The next line must start behind exactly one break. -/
  | awaitingBreak
  /-- The break is written; more of them are dropped. -/
  | collapsing
  deriving DecidableEq, Repr

/-- Does the line give way to a score behind it, which brings its own break and alignment? -/
def Line.yieldsToScore : Line → Bool
  | .lineBreak | .alignRight => true
  | _ => false

/-- What was written, last line first, with the score line in place behind it. -/
def writeScore (points : Nat) (written : List Text) : List Text :=
  let kept := written.dropWhile fun line => (Line.classify line).yieldsToScore
  let spaced := match kept with
    | [] => []
    | last :: _ => if (Line.classify last).isExit then kept else enterLine :: kept
  renderCall .insertText (scoreLiteral points) :: alignRightLine :: spaced

/-- Handles one line: what is owed and what was written, last line first. -/
def scoreStep (state : AfterScore × List Text) (line : Text) : AfterScore × List Text :=
  let (owed, written) := state
  let kind := Line.classify line
  match kind.points? with
  | some points => (.awaitingBreak, writeScore points written)
  | none =>
    match kind, owed with
    | .lineBreak, .awaitingBreak => (.collapsing, enterLine :: written)
    | .lineBreak, .collapsing => (.collapsing, written)
    | .exit, _ | .focus _, _ | .template _, _ => (.idle, line :: written)
    | _, .awaitingBreak => (.idle, line :: enterLine :: written)
    | _, _ => (.idle, line :: written)

/-- Puts every score on a right-aligned line of its own. -/
def isolateScoreLines (lines : List Text) : List Text :=
  (lines.foldl scoreStep (.idle, [])).2.reverse

end Scribe.Repair
