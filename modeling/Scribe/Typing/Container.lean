import Scribe.Text.Path
import Scribe.Typing.Text

set_option autoImplicit false

/-! # Containers, templates and placeholders

How the cursor gets into boxes and into the zones of templates, and out again. -/

namespace Scribe

namespace TypingState

/-- Typing goes on in a zone of a template, or at a marker that is no zone. -/
def enterZone (s : TypingState) : Option Zone → TypingState
  | some .inside => s.startLine.enterContainer
  | some .before | some .after => s.startLine.leaveContainer
  | none => s.startLine

end TypingState

namespace Typing

/-! ## Cells -/

/-- Puts in a table of one cell as a container. -/
def bareContainer : Typing Unit := do
  discard (require (.createTable 1 1))
  discard (tryRun .moveToCell)

/-- Leaves the table around the cursor, by its closing delimiter or else downward. -/
def leaveCell : Typing Bool := do
  if ← tryRun .closeEx then return true
  tryRun .tableLowerCell

/-- Closes a container and goes on below it. -/
def closeContainer : Typing Unit := do
  let closed ← leaveCell
  if closed then discard (tryRun .moveDown)
  updateState .leaveContainer
  unless closed do throw .noContainer
  updateState .startLine

/-! ## Placeholders -/

/-- Takes the selected marker out of the document. -/
def eraseMarker : Typing Unit := do
  unless ← tryRun .delete do discard (tryRun .deleteBack)

/-- Goes on at a placeholder: at its marker from the cursor on, or else from the start of the
    document; without a marker, where the cursor is. An after zone whose marker is gone is where the
    cursor is, too, and an inside zone without one is the nearest cell. -/
def focusPlaceholder (placeholder : Placeholder) : Typing Unit := do
  let needles := match placeholder with
    | .zone zone => zone.markerVariants
    | .custom marker => [marker]
  let zone? := match placeholder with
    | .zone zone => some zone
    | .custom _ => none
  if ← findAny needles then eraseMarker
  else if zone? != some .after then
    discard (tryRun .moveDocBegin)
    if ← findAny needles then eraseMarker
    else if zone? == some .inside then discard (tryRun .moveToCell)
  updateState fun s => s.enterZone zone?

end Typing

namespace Typist

open Typing

variable {σ : Type} (t : Typist σ)

/-! ## Containers -/

/-- The fragment of a plain container. -/
def plainFragment : Text := "box_template_noheader.hwp".toList

/-- The fragment of a framed container. -/
def framedFragment : Text := "box_template.hwp".toList

/-- The header of a framed container. -/
def framedLabel : Text := "< 보 기 >".toList

/-- A file in the folder of templates. -/
def templatePath (file : Text) : Text := Path.join t.settings.templateDir file

/-- Builds a container without its fragment. -/
def buildContainer (framed : Bool) : Typing Unit := do
  let state ← typingState
  if !state.pendingAlignment.isSet && state.wantsIndent then write [' ']
  bareContainer
  if framed then
    discard (tryRun .alignCenter)
    t.boxTextStyle
    write framedLabel
    discard (require (.run .breakPara))
    discard (tryRun .alignLeft)

/-- Opens a container and goes on in it. -/
def openContainer (framed : Bool) : Typing Unit := do
  let path := t.templatePath (if framed then framedFragment else plainFragment)
  if ← require (.insertFragment path) then
    unless ← tryRun .moveToCell do bareContainer
  else t.buildContainer framed
  updateState fun s => s.enterContainer.markWritten
  t.boxTextStyle
  compactParagraph
  if framed then discard (tryRun .alignJustify)

/-! ## Templates -/

/-- Puts in a template. Behind a plain one, the first marker of an after zone is taken out of the
    document, since a later request for that zone would go there. -/
def insertTemplate (template : Template) : Typing Unit := do
  let path := t.templatePath template.fileName
  unless ← require (.insertFragment path) do throw (.templateMissing path)
  match template.flavor with
  | .framed => pure ()
  | .plain =>
    discard (tryRun .moveDocBegin)
    if ← findAny Zone.after.markerVariants then discard (tryRun .delete)
    discard (tryRun .moveDocBegin)

end Typist

end Scribe
