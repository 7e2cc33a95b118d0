import Scribe.Text.Quoted

set_option autoImplicit false

/-! # Faulty settings

Why settings could not be read. -/

namespace Scribe

/-- Why settings could not be read. -/
inductive SettingsError where
  /-- A variable holds a value that its setting cannot have. -/
  | invalidValue (key value : Text)
  /-- The file could not be read, for a reason that the system gives. -/
  | unreadable (path reason : Text)
  /-- The file does not hold settings. -/
  | malformed (path : Text)
  deriving DecidableEq, Repr

/-- The wording of an error. -/
def SettingsError.message : SettingsError → Text
  | .invalidValue key value =>
    "invalid value for ".toList ++ key ++ ": ".toList ++ Text.quoted value
  | .unreadable path reason => "failed to read ".toList ++ path ++ ": ".toList ++ reason
  | .malformed path => "failed to parse ".toList ++ path ++ ": malformed settings".toList

end Scribe
