import Scribe.CommandLine.Answer

set_option autoImplicit false

/-! # The program

Reads what a command line needs, and prints the answer to it. -/

namespace Scribe.Program

/-- Why a file cannot be read. -/
def reason (e : IO.Error) : Text :=
  match e with
  | .noFileOrDirectory _ _ _ => "No such file or directory (os error 2)".toList
  | .permissionDenied _ _ _ => "Permission denied (os error 13)".toList
  | _ => (toString e).toList

/-- The contents of a file. -/
def contents (path : Text) : IO FileContents := do
  try return .ok (← IO.FS.readFile (String.ofList path)).toList
  catch e => return .error (reason e)

/-- All that is left of a stream. -/
partial def readAll (stream : IO.FS.Stream) (read : String) : IO String := do
  let line ← stream.getLine
  if line.isEmpty then return read else readAll stream (read ++ line)

/-- The variables that settings are read from. -/
def settingVariables : List String :=
  [ "TYPIST_CONFIG", "TYPIST_TEMPLATE_DIR", "TYPIST_MAX_WORKERS", "TYPIST_EQUATION_FONT",
    "TYPIST_EQUATION_SIZE_PT", "TYPIST_BOX_FONT_SIZE_PT", "TYPIST_EQN_CONVERTER",
    "TYPIST_EQN_TIMEOUT_MS" ]

/-- The environment, as far as settings are read from it. -/
def environment : IO Settings.Environment := do
  let pairs ← settingVariables.filterMapM fun name => do
    return (← IO.getEnv name).map fun value => (name.toList, value.toList)
  let env : Settings.Environment := fun key => pairs.lookup key
  return env.withFile (← contents Settings.environmentFile).toOption

/-- Answers a command line. -/
def respond (args : List String) : IO Printout := do
  let env ← environment
  match CommandLine.ofArguments env (args.map String.toList) with
  | .error usage => return usage.answer
  | .ok c =>
    let source : FileContents ← match c.file with
      | some path => contents path
      | none => pure (.ok (← readAll (← IO.getStdin) "").toList)
    let configFile : FileContents ← match c.config with
      | some path => contents path
      | none => pure (.error [])
    return c.answer env source configFile

end Scribe.Program

/-- Prints the answer to the command line, and ends with its code. -/
def main (args : List String) : IO UInt32 := do
  let printout ← Scribe.Program.respond args
  (← IO.getStdout).putStr (String.ofList printout.stdout)
  (← IO.getStderr).putStr (String.ofList printout.stderr)
  return printout.code.toUInt32
