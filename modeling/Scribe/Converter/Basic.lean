import Scribe.Text.Basic

set_option autoImplicit false

/-! # Converting equations

LaTeX is converted into equation notation by a program that reads it and writes the result. A
conversion never fails: whatever goes wrong, the text stays as it is. -/

namespace Scribe.Converter

/-- What came of running a program. -/
inductive Outcome where
  /-- The program could not be started. -/
  | notStarted
  /-- The program did not end in time. -/
  | timedOut
  /-- The program ended with a code and had written something. -/
  | ended (code : Nat) (output : Text)
  deriving DecidableEq, Repr

/-- The text that a run of the converter leaves: what a successful program wrote, unless that is
    blank, and else the text itself. -/
def Outcome.result (text : Text) : Outcome → Text
  | .ended 0 output =>
    let converted := Text.trim output
    if converted.isEmpty then text else converted
  | _ => text

/-- Converts a text; a blank one is dropped without asking the program. -/
def convert (run : Text → Outcome) (text : Text) : Text :=
  if Text.isBlankText text then [] else (run text).result text

end Scribe.Converter
