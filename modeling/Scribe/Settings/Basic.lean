import Scribe.Text.Basic

set_option autoImplicit false

/-! # Settings

Where the template fragments lie, how equations and boxes look, which converter turns LaTeX into
equation notation, and how many scripts are generated at a time. -/

namespace Scribe

/-- An external program that converts LaTeX into equation notation. -/
structure ConverterSettings where
  program : Text := "node".toList
  args : List Text := ["hwp_eqn_cli.js".toList]
  /-- How long the program may take, in milliseconds. -/
  timeoutMs : Nat := 10000
  deriving DecidableEq, Repr

/-- The settings of a typing run. -/
structure Settings where
  templateDir : Text := "templates".toList
  maxWorkers : Nat := 3
  equationFont : Text := "HyhwpEQ".toList
  equationSizePt : Float := 8
  boxFontSizePt : Float := 8
  converter : ConverterSettings := {}

/-- The settings with at least one worker. -/
def Settings.clamp (s : Settings) : Settings := { s with maxWorkers := max s.maxWorkers 1 }

end Scribe
