import Scribe.Typing.Text

set_option autoImplicit false

/-! # Tables

A table is put in with all its cells, filled row by row, and left again. -/

namespace Scribe

namespace Typing

/-- Runs a command so many times. -/
def tryRunTimes (command : Command) : Nat → Typing Unit
  | 0 => pure ()
  | n + 1 => do
    discard (tryRun command)
    tryRunTimes command n

/-- Leaves the table, or else stays in its last cell. -/
def exitTable : Typing Unit := do
  if ← tryRun .closeEx then
    discard (tryRun .moveDown)
  else if ← tryRun .tableLowerCell then
    if ← tryRun .closeEx then
      discard (tryRun .moveDown)

end Typing

namespace Typist

open Typing

variable {σ : Type} (t : Typist σ)

/-- The lead of a cell value that is an equation. -/
def equationCellLead : Text := "EQ:".toList

/-- The format of a cell before its value is typed. -/
def cellStyle (alignCenter : Bool) : Typing Unit := do
  t.boxTextStyle
  compactParagraph
  if alignCenter then discard (tryRun .alignCenter)

/-- Types the value of a cell. -/
def fillCell (alignCenter : Bool) (value : Text) : Typing Unit := do
  t.cellStyle alignCenter
  match Text.stripStart? equationCellLead value with
  | some equation => t.insertEquation (Text.trim equation) {}
  | none => insertText value

/-- Types the values of a row into as many cells as there are left in it, and goes on from cell to
    cell; the answer counts the moves. -/
def fillRow (alignCenter : Bool) : Nat → List Text → Typing Nat
  | 0, _ => return 0
  | _ + 1, [] => return 0
  | left + 1, value :: values => do
    t.fillCell alignCenter value
    if left = 0 then return 0
    discard (tryRun .tableRightCell)
    return (← fillRow alignCenter left values) + 1

/-- Types rows of values into as many rows as there are left in the table. -/
def fillRows (alignCenter : Bool) (cols : Nat) : Nat → List (List Text) → Typing Unit
  | 0, _ => pure ()
  | _ + 1, [] => pure ()
  | left + 1, row :: rows => do
    let moves ← t.fillRow alignCenter cols row
    if left = 0 then return
    discard (tryRun .tableLowerCell)
    tryRunTimes .tableLeftCell moves
    fillRows alignCenter cols left rows

/-- Types a table. -/
def insertTable (spec : TableSpec) : Typing Unit := do
  unless 0 < spec.rows ∧ spec.rows < UInt32.size ∧ 0 < spec.cols ∧ spec.cols < UInt32.size do
    throw (.emptyTable spec.rows spec.cols)
  let rows := spec.rows.toNat
  let cols := spec.cols.toNat
  let state ← typingState
  if !state.pendingAlignment.isSet && state.wantsIndent then write [' ']
  discard (require (.createTable rows cols))
  updateState .markWritten
  discard (bestEffort (.cellFormat { margins := some 0 }))
  t.fillRows spec.alignCenter cols rows spec.cells
  if spec.exitAfter then
    exitTable
    discard (tryRun .alignLeft)
    updateState .startLine

end Typist

end Scribe
