import Scribe.Document.Primitive

set_option autoImplicit false

/-! # The state of typing

What was typed so far decides how the next operation is typed: whether a line has begun, whether the
cursor is in a container, which alignment is asked for, and what stands before the cursor. -/

namespace Scribe

/-- An alignment other than left, asked for or in force for one line. -/
inductive LineAlignment where
  | none
  | right
  | justify
  deriving DecidableEq, Repr

namespace LineAlignment

/-- The command that brings an alignment into force. -/
def command? : LineAlignment → Option Command
  | .none => Option.none
  | .right => some .alignRight
  | .justify => some .alignJustify

/-- Is an alignment asked for? -/
def isSet : LineAlignment → Bool
  | .none => false
  | _ => true

end LineAlignment

/-- The state of typing into one document. -/
structure TypingState where
  /-- Nothing has been typed on the current line yet. -/
  lineStart : Bool := true
  insideContainer : Bool := false
  /-- The next run is the first of its line in a container and gets one leading space. -/
  containerLineStart : Bool := false
  /-- The alignment asked for the next line. -/
  pendingAlignment : LineAlignment := .none
  /-- The alignment of the current line; the next break takes it back. -/
  lineAlignment : LineAlignment := .none
  lastWasEquation : Bool := false
  bold : Bool := false
  underline : Bool := false
  hasWrittenFirstLine : Bool := false
  deriving DecidableEq, Repr

namespace TypingState

/-- At the start of a line, the alignment asked for is taken and governs that line. -/
def takeAlignment (s : TypingState) : LineAlignment × TypingState :=
  if s.lineStart then
    let taken := s.pendingAlignment
    (taken,
      { s with
        pendingAlignment := .none
        lineAlignment := if taken.isSet then taken else s.lineAlignment })
  else (.none, s)

/-- Is the next thing indented? So is every line after the first, outside containers. -/
def wantsIndent (s : TypingState) : Bool :=
  !s.insideContainer && s.lineStart && s.hasWrittenFirstLine

/-- Something was typed on the current line. -/
def markWritten (s : TypingState) : TypingState :=
  { s with lineStart := false, hasWrittenFirstLine := true }

/-- A run of text was typed. -/
def markText (s : TypingState) : TypingState := { s.markWritten with lastWasEquation := false }

/-- Typing goes on at the start of a line. -/
def startLine (s : TypingState) : TypingState :=
  { s with lineStart := true, lastWasEquation := false }

/-- A line was broken; a container keeps no first line to indent. -/
def breakLine (s : TypingState) : TypingState :=
  { s.startLine with
    containerLineStart := s.containerLineStart && !s.insideContainer
    lineAlignment := .none }

/-- The cursor is in a container whose first line was not begun. -/
def enterContainer (s : TypingState) : TypingState :=
  { s with insideContainer := true, containerLineStart := true }

/-- The cursor is in no container. -/
def leaveContainer (s : TypingState) : TypingState :=
  { s with insideContainer := false, containerLineStart := false }

end TypingState

end Scribe
