import Scribe.Typing.Editor

set_option autoImplicit false

/-! # Text, breaks and equations

How runs of text, line breaks and equations are typed, given the state. -/

namespace Scribe

/-- A text whose leading tab may be written as a backslash or a slash with a `t`. -/
def readTab : Text → Text
  | '\\' :: 't' :: rest => '\t' :: rest
  | '/' :: 't' :: rest => '\t' :: rest
  | text => text

/-- A text without one leading space. -/
def dropSpace : Text → Text
  | ' ' :: rest => rest
  | text => text

namespace Typing

/-! ## Breaks and spaces -/

/-- Breaks the line; an alignment that was in force for the line is taken back. -/
def breakLine : Typing Unit := do
  discard (require (.run .breakPara))
  let aligned := (← typingState).lineAlignment.isSet
  updateState .breakLine
  if aligned then discard (tryRun .alignLeft)

/-- Types a single space. -/
def insertSpace : Typing Unit := do
  write [' ']
  updateState .markText

/-- Brings the alignment asked for into force, if a line starts here. -/
def applyAlignment : Typing LineAlignment := do
  let (alignment, state) := (← typingState).takeAlignment
  updateState fun _ => state
  match alignment.command? with
  | some command => discard (tryRun command)
  | none => pure ()
  return alignment

/-! ## Text -/

/-- A run of text as the state asks for it: without leading blanks on a right-aligned line, without
    a leading space behind an equation. -/
def trimRun (alignment : LineAlignment) (state : TypingState) (text : Text) : Text :=
  let run := if alignment = .right then text.dropWhile Text.isGap else text
  if state.lastWasEquation then dropSpace run else run

/-- Types a run of text. A tab at the start of a line other than the first breaks the line before
    it, and the first run in a container is set off by a space. -/
def insertText (text : Text) : Typing Unit := do
  unless text.isEmpty do
    let text := readTab text
    let state ← typingState
    if state.lineStart && text.head? == some '\t' && state.hasWrittenFirstLine then breakLine
    let alignment ← applyAlignment
    let state ← typingState
    let run := trimRun alignment state text
    if state.insideContainer && state.containerLineStart && run.head? != some ' ' then
      updateState fun s => { s with containerLineStart := false }
      write (' ' :: run)
    else write run
    updateState .markText

/-! ## Equations -/

/-- What an equation at the start of a later line is indented by. -/
def equationIndent : Text := "  ".toList

/-- Types an equation object and goes on behind it. -/
def insertObject (spec : EquationSpec) : Typing Unit := do
  discard (require (.createEquation spec))
  discard (require (.objectAnchor spec.treatAsChar))
  discard (require (.run .cancel))
  discard (require (.run .moveRight))

end Typing

namespace Typist

open Typing

variable {σ : Type} (t : Typist σ)

/-- A size in hundredths of a point, rounded; sizes below zero and no number count as zero. -/
def baseUnit (sizePt : Float) : Nat :=
  ((if sizePt > 0 then sizePt else 0) * 100).round.toUInt32.toNat

/-- The equation object of a text. -/
def equationSpec (text : Text) (style : EquationStyle) : EquationSpec where
  text := text
  fontName := t.settings.equationFont
  baseUnit := baseUnit (style.fontSizePt.getD t.settings.equationSizePt)
  treatAsChar := style.treatAsChar.getD true

/-- Types an equation. Tabs before it at the start of a line are typed as one tab, other lines than
    the first are indented, and a break that it brings belongs to it. -/
def insertEquation (text : Text) (style : EquationStyle) : Typing Unit := do
  let mut content := text
  if (← typingState).lineStart && text.head? == some '\t' then
    insertText ['\t']
    content := text.dropWhile (· == '\t')
  let alignment ← applyAlignment
  if alignment != .right && (← typingState).wantsIndent then
    write equationIndent
    updateState fun s => { s with lineStart := false }
  let equation := Text.trim content
  let ensureNewline := style.ensureNewline.getD false && !equation.isEmpty
  unless equation.isEmpty do
    insertObject (t.equationSpec equation style)
    if ensureNewline then breakLine
  updateState fun s =>
    { s with hasWrittenFirstLine := true, lineStart := ensureNewline, lastWasEquation := true }

end Typist

end Scribe
