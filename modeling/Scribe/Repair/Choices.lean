import Scribe.Repair.Line

set_option autoImplicit false

/-! # Tab indicators and choice glyphs

A tab only matters as the indent of an equation, and the glyph of a choice starts its line. -/

namespace Scribe.Repair

/-! ## Tab indicators -/

/-- Does a literal stand for a tab? -/
def isTabIndicator (literal : Text) : Bool :=
  literal == ['\t'] || literal == ['\\', 't'] || literal == ['/', 't']

/-- Does the line insert an equation? -/
def insertsEquation (line : Text) : Bool :=
  match Line.classify line with
  | .equation _ => true
  | _ => false

/-- Does the line insert a tab indicator as text? -/
def insertsTab (line : Text) : Bool :=
  match Line.classify line with
  | .text literal => isTabIndicator literal
  | _ => false

/-- Makes a space of every tab that no equation follows. -/
def pruneTabIndicators : List Text → List Text
  | [] => []
  | line :: lines =>
    (if insertsTab line && !lines.head?.any insertsEquation then spaceLine else line)
      :: pruneTabIndicators lines

/-! ## Choice glyphs -/

/-- The glyphs of choices. -/
def choiceGlyphs : Text := ['①', '②', '③', '④', '⑤', '⑥', '⑦', '⑧', '⑨', '⑩']

/-- Is a text exactly one choice glyph? -/
def isChoiceGlyph (s : Text) : Bool :=
  match s with
  | [c] => choiceGlyphs.elem c
  | _ => false

/-- The line, without the white space around a choice glyph if some precedes it. -/
def stripChoice (line : Text) : Text :=
  match Line.classify line with
  | .text literal =>
    if literal.head?.any Text.isWhite && isChoiceGlyph literal.trim then
      renderCall .insertText literal.trim
    else line
  | _ => line

/-- Strips white space in front of choice glyphs. -/
def stripChoiceLeadingSpace (lines : List Text) : List Text := lines.map stripChoice

end Scribe.Repair
