import Scribe.Typing.Container
import Scribe.Typing.Table

set_option autoImplicit false

/-! # Carrying out operations

Each operation of a script is carried out as a whole. When the session is lost on the way, the state
is put back, so that the operation can be carried out again. -/

namespace Scribe.Typist

open Typing

variable {σ : Type} (t : Typist σ)

/-- The colour of invisible borders. -/
def white : Nat := 0xFFFFFF

/-- What an operation does. -/
def act : Operation → Typing Unit
  | .insertText text => insertText text
  | .insertEquation text style => t.insertEquation text style
  | .insertLatexEquation latex style =>
    t.insertEquation (t.convert latex t.settings.converter.timeoutMs) style
  | .breakLine => breakLine
  | .insertParagraph => do
    breakLine
    insertSpace
  | .insertSmallParagraph => pure ()
  | .insertSpace => insertSpace
  | .openContainer => t.openContainer false
  | .openFramedContainer => t.openContainer true
  | .closeContainer => closeContainer
  | .insertTemplate template => t.insertTemplate template
  | .focusPlaceholder placeholder => focusPlaceholder placeholder
  | .insertTable spec => t.insertTable spec
  | .setBold enabled => do
    discard (require (.charShape { bold := some enabled }))
    updateState fun s => { s with bold := enabled }
  | .setUnderline enabled? => do
    let enabled := enabled?.getD !(← typingState).underline
    discard (require (.charShape { underline := some enabled }))
    updateState fun s => { s with underline := enabled }
  | .setBorderInvisible => do
    discard (require (.cellFormat { borderColor := some white }))
  | .alignRightNextLine => updateState fun s => { s with pendingAlignment := .right }
  | .alignJustifyNextLine => updateState fun s => { s with pendingAlignment := .justify }
  | .setCharWidthRatio percent => do
    discard (require (.charShape { widthRatio := some percent }))

/-- An operation behind a checkpoint; when the session is lost, the state is as it was before. -/
def operation (op : Operation) : Typing Unit := do
  checkpoint
  let before ← typingState
  tryCatch (t.act op) fun e => do
    if e.isGone then updateState fun _ => before
    throw e

/-- Carries out an operation at a desk. -/
def apply (op : Operation) : ExceptT TypingError (StateM (Desk σ)) Unit :=
  (t.operation op).carryOut t.editor

end Scribe.Typist
