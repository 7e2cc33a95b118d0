import Scribe.Decimal.Reading
import Scribe.Settings.Basic
import Scribe.Settings.Error

set_option autoImplicit false

/-! # Settings from the environment

Each setting has a variable. Variables are read in a fixed order, so the first faulty one decides
the error; absent ones leave the default. -/

namespace Scribe.Settings

/-- The value of each variable that is set. -/
abbrev Environment := Text → Option Text

/-- The value of a variable, read from its text without surrounding white space. -/
def fromVariable {α : Type} (read : Text → Option α) (env : Environment) (key : Text)
    (initial : α) : Except SettingsError α :=
  match env key with
  | none => .ok initial
  | some value =>
    match read (Text.trim value) with
    | some a => .ok a
    | none => .error (.invalidValue key value)

/-- A count of up to 64 bits. -/
def count? : Text → Option Nat := Decimal.natUpTo? (UInt64.size - 1)

/-- The program and the arguments of a converter command. -/
def command? (s : Text) : Option (Text × List Text) :=
  match Text.words s with
  | [] => none
  | program :: args => some (program, args)

/-- The settings that an environment gives. -/
def ofEnvironment (env : Environment) : Except SettingsError Settings := do
  let d : Settings := {}
  let templateDir := (env "TYPIST_TEMPLATE_DIR".toList).getD d.templateDir
  let maxWorkers ← fromVariable count? env "TYPIST_MAX_WORKERS".toList d.maxWorkers
  let equationFont := (env "TYPIST_EQUATION_FONT".toList).getD d.equationFont
  let equationSizePt ←
    fromVariable Decimal.float? env "TYPIST_EQUATION_SIZE_PT".toList d.equationSizePt
  let boxFontSizePt ←
    fromVariable Decimal.float? env "TYPIST_BOX_FONT_SIZE_PT".toList d.boxFontSizePt
  let (program, args) ← fromVariable command? env "TYPIST_EQN_CONVERTER".toList
    (d.converter.program, d.converter.args)
  let timeoutMs ← fromVariable count? env "TYPIST_EQN_TIMEOUT_MS".toList d.converter.timeoutMs
  return clamp
    { templateDir, maxWorkers, equationFont, equationSizePt, boxFontSizePt
      converter := { program, args, timeoutMs } }

end Scribe.Settings
