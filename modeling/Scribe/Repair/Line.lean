import Scribe.Script.Marker

set_option autoImplicit false

/-! # Lines as the layout repairs see them

What a line does, as far as the later repairs care, and the lines that they write themselves. -/

namespace Scribe.Repair

/-! ## Lines the repairs write -/

/-- A paragraph break. -/
def enterLine : Text := "insert_enter()".toList

/-- A space. -/
def spaceLine : Text := "insert_space()".toList

/-- Opens a plain container. -/
def openBoxLine : Text := "insert_box()".toList

/-- Closes a container. -/
def exitBoxLine : Text := "exit_box()".toList

/-- Requests that the next line is set to the right. -/
def alignRightLine : Text := "set_align_right_next_line()".toList

/-- Requests that the next line is justified. -/
def alignJustifyLine : Text := "set_align_justify_next_line()".toList

/-! ## Kinds of lines -/

/-- What a line does. -/
inductive Line where
  /-- Inserts a template; none if the name means no known fragment. -/
  | template (template : Option Template)
  | focus (placeholder : Placeholder)
  /-- Opens a plain or a framed container. -/
  | opening (verb : Verb)
  | exit
  | lineBreak
  | text (literal : Text)
  | equation (literal : Text)
  | alignRight
  | alignJustify
  | space
  | other
  deriving DecidableEq, Repr

namespace Line

/-- What a call with these arguments does. -/
def ofCall (verb : Verb) (args : Text) : Line :=
  match verb with
  | .insertTemplate => .template ((singleLiteral? args).bind Template.ofName?)
  | .focusPlaceholder =>
    match singleLiteral? args with
    | some marker => .focus (.ofMarker marker)
    | none => .other
  | .insertBox | .insertViewBox => .opening verb
  | .exitBox => .exit
  | .insertEnter => .lineBreak
  | .insertText =>
    match singleLiteral? args with
    | some literal => .text literal
    | none => .other
  | .insertEquation | .insertLatexEquation =>
    match singleLiteral? args with
    | some literal => .equation literal
    | none => .other
  | .setAlignRightNextLine => .alignRight
  | .setAlignJustifyNextLine => .alignJustify
  | .insertSpace => .space
  | _ => .other

/-- What a line does; anything but a single call of the vocabulary is `other`. -/
def classify (line : Text) : Line :=
  match CallLine.ofLine? line with
  | none => .other
  | some call =>
    match Verb.ofName? call.name with
    | none => .other
    | some verb => ofCall verb call.args

/-- The zone that the line requests. -/
def zone? : Line → Option Zone
  | .focus (.zone z) => some z
  | _ => none

/-- The literal that the line inserts as text or as an equation. -/
def literal? : Line → Option Text
  | .text s => some s
  | .equation s => some s
  | _ => none

/-- Is this a paragraph break? -/
def isBreak : Line → Bool
  | .lineBreak => true
  | _ => false

/-- Does the line close a container? -/
def isExit : Line → Bool
  | .exit => true
  | _ => false

/-- Does the line insert a template, known or not? -/
def isTemplate : Line → Bool
  | .template _ => true
  | _ => false

/-- Does the line insert text or an equation? -/
def isContent (line : Line) : Bool := line.literal?.isSome

end Line

/-! ## Literals with a layout of their own -/

/-- Does a literal begin with the glyph of a list item? -/
def isListItem (literal : Text) : Bool :=
  match literal.trimStart with
  | glyph :: '.' :: _ => ['ㄱ', 'ㄴ', 'ㄷ', 'ㄹ'].contains glyph
  | _ => false

/-- Does a literal hold the choices of a question? -/
def isChoice (literal : Text) : Bool := literal.elem '①'

/-! ## Lines written last first -/

/-- Drops the breaks at the end of what was written; the lines are in reverse. -/
def dropBreaks (written : List Text) : List Text :=
  written.dropWhile fun line => (Line.classify line).isBreak

/-! ## Segments -/

/-- The lines before the first template line, and from each template line on the lines up to the
    next one. -/
def cutAtTemplates : List Text → List Text × List (List Text)
  | [] => ([], [])
  | line :: lines =>
    let (head, segments) := cutAtTemplates lines
    if (Line.classify line).isTemplate then ([], (line :: head) :: segments)
    else (line :: head, segments)

/-- The segments of a script: a leading one without a template unless a template comes first, and
    one from each template line on. -/
def segments (lines : List Text) : List (List Text) :=
  match cutAtTemplates lines with
  | ([], first :: more) => first :: more
  | (head, more) => head :: more

/-- Where consecutive segments start and end, counted in lines. -/
def bounds (start : Nat) : List (List Text) → List (Nat × Nat)
  | [] => []
  | s :: more => (start, start + s.length) :: bounds (start + s.length) more

end Scribe.Repair
