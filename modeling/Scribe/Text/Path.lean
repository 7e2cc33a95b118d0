import Scribe.Text.Basic

set_option autoImplicit false

/-! # File paths

Paths are texts with slashes between their parts. -/

namespace Scribe.Path

/-- The last part of a path. Empty parts and single dots do not count, and a path that ends by going
    up has no last part. -/
def fileName (path : Text) : Text :=
  let parts := (Text.splitAll (· == '/') path).filter fun p => p != [] && p != ['.']
  match parts.getLast? with
  | some last => if last = ['.', '.'] then [] else last
  | none => []

/-- A file in a folder. -/
def join (folder file : Text) : Text :=
  if folder.isEmpty || folder.getLast? == some '/' then folder ++ file else folder ++ '/' :: file

end Scribe.Path
