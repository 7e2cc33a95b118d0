import Scribe.Script.Operation
import Scribe.Settings.Basic
import Scribe.Typing.Dialogue
import Scribe.Typing.State

set_option autoImplicit false

/-! # Typing by calls

A typist sends calls to an editor, one at a time and each behind a look at the cancellation token,
and reads failures by the strength of the call: a required call fails the operation, a best-effort
call that is refused counts as not done. A lost session and a cancellation end the operation in any
case. -/

namespace Scribe

/-- Why an operation stopped. -/
inductive TypingError where
  | cancelled
  | target (error : TargetError)
  | emptyTable (rows cols : Int)
  | noContainer
  | templateMissing (path : Text)
  deriving DecidableEq, Repr

namespace TypingError

/-- The wording of an error. -/
def message : TypingError → Text
  | .cancelled => "cancelled".toList
  | .target error => error.message
  | .emptyTable rows cols =>
    "table needs at least one row and one column, got ".toList ++ Decimal.intText rows ++ ['x']
      ++ Decimal.intText cols
  | .noContainer => "cursor is not inside a container".toList
  | .templateMissing path => "template not found: ".toList ++ path

/-- Is the session gone? -/
def isGone : TypingError → Bool
  | .target error => error.isGone
  | _ => false

end TypingError

/-- An action of typing: a dialogue that reads and changes the state of typing, and that an error
    may end. -/
abbrev Typing := ExceptT TypingError (StateT TypingState Dialogue)

/-- The means of typing: an editor, the settings, and a converter from LaTeX to equation notation
    that is given the time it may take in milliseconds. -/
structure Typist (σ : Type) where
  editor : Editor σ
  settings : Settings
  convert : Text → Nat → Text

/-! ## State -/

/-- Changes the state of typing. -/
def updateState (f : TypingState → TypingState) : Typing Unit := modify f

/-- The state of typing. -/
def typingState : Typing TypingState := get

/-! ## Calls -/

/-- Stops when the token was cancelled. -/
def checkpoint : Typing Unit := do
  if ← Dialogue.looked then throw .cancelled

namespace Typing

/-- Sends a call to the editor, behind a checkpoint. -/
def call (p : Primitive) : Typing (Except TargetError Bool) := do
  checkpoint
  Dialogue.asked (.call p)

/-- A required call. -/
def require (p : Primitive) : Typing Bool := do
  match ← call p with
  | .ok found => return found
  | .error e => throw (.target e)

/-- A command that counts as not done when it is refused. -/
def tryRun (command : Command) : Typing Bool := do
  match ← call (.run command) with
  | .ok found => return found
  | .error (.action _ _) => return false
  | .error e => throw (.target e)

/-- A call that may fail as long as the session lives; true when it found what it looked for. -/
def bestEffort (p : Primitive) : Typing Bool := do
  match ← call p with
  | .ok found => return found
  | .error e => if e.isGone then throw (.target e) else return false

/-- Types a run of text as it is; nothing is sent for the empty run. -/
def write (text : Text) : Typing Unit := do
  unless text.isEmpty do
    discard (require (.insertText text))

/-- Selects the first of several texts that is found from the cursor on. -/
def findAny : List Text → Typing Bool
  | [] => return false
  | needle :: needles => do
    if ← bestEffort (.findText needle .forward) then return true
    findAny needles

/-- The tight spacing of paragraphs in boxes and cells. -/
def compactParagraph : Typing Unit := do
  discard (bestEffort (.paraShape {}))

end Typing

/-- The font and size of text in boxes and cells. -/
def Typist.boxTextStyle {σ : Type} (t : Typist σ) : Typing Unit := do
  discard (Typing.bestEffort
    (.charShape (.font t.settings.equationFont t.settings.boxFontSizePt)))

/-! ## Desks -/

/-- What one operation works on. -/
structure Desk (σ : Type) where
  target : σ
  token : Token := {}
  state : TypingState := {}

/-- Carries out an action of typing at a desk. -/
def Typing.carryOut {σ α : Type} (e : Editor σ) (m : Typing α) :
    ExceptT TypingError (StateM (Desk σ)) α := fun desk =>
  let ((result, state), o) := ((m.run).run desk.state).hold e ⟨desk.target, desk.token⟩
  (result, { target := o.target, token := o.token, state })

end Scribe
