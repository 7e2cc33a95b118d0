import Scribe.CommandLine.Options
import Scribe.Converter.Shell
import Scribe.Document.Editor
import Scribe.Report.Record
import Scribe.Report.Values
import Scribe.Settings.File

set_option autoImplicit false

/-! # Answers to command lines

What a command line prints, given the script, the settings file and the environment. -/

namespace Scribe

/-- What the program prints and the code it ends with. -/
structure Printout where
  code : Nat := 0
  stdout : Text := []
  stderr : Text := []
  deriving DecidableEq, Repr

/-- The contents of a file, or the reason why it cannot be read. -/
abbrev FileContents := Except Text Text

namespace CommandLine

/-! ## Printing -/

/-- Printed lines. -/
def printed (lines : List Text) : Text := lines.flatMap (· ++ ['\n'])

/-- The end of a task that failed, after what it has printed. -/
def failed (format : OutputFormat) (before message : Text) : Printout :=
  match format with
  | .json => { code := 1, stdout := before ++ printed [(Report.ofError message).compact] }
  | .pretty => { code := 1, stdout := before, stderr := printed ["error: ".toList ++ message] }

/-- A numbered line of a list. -/
def numbered (i : Nat) (line : Text) : Text :=
  "  [".toList ++ Decimal.natText i ++ "] ".toList ++ line

/-- The lines of a list, numbered from zero. -/
def numberedLines (lines : List Text) : List Text := lines.mapIdx numbered

/-- The line that sums up a success. -/
def summary (verb : Text) (count : Nat) (tier : Tier) : Text :=
  "OK ".toList ++ verb ++ Decimal.natText count ++ " operation(s) via ".toList
    ++ (Record.ofTier tier).render ++ " interpreter".toList

/-! ## Errors -/

/-- The script could not be read. -/
def sourceMessage (file : Option Text) (reason : Text) : Text :=
  match file with
  | some path => (SettingsError.unreadable path reason).message
  | none => "failed to read stdin: ".toList ++ reason

/-- An error in the settings, followed by its reason. -/
def settingsMessage (e : SettingsError) : Text :=
  match e with
  | .unreadable _ reason => e.message ++ ": ".toList ++ reason
  | .invalidValue _ _ | .malformed _ => e.message

/-- An error that ended a run, followed by its reason. -/
def runMessage (e : RunError) : Text :=
  match e with
  | .unparseable failure => e.message ++ ": ".toList ++ failure.message
  | _ => e.message

/-! ## Tasks -/

/-- Shows the repaired script. -/
def showNormalized (format : OutputFormat) (script : Text) : Printout :=
  let normalized := normalize script
  match format with
  | .json =>
    { stdout := printed [(Report.object [("normalized".toList, .string normalized)]).compact] }
  | .pretty => { stdout := printed [normalized] }

/-- How a step is shown to readers. -/
def stepLine : Step → Text
  | .ok op => (Record.ofOperation op).render
  | .error e => "invalid ".toList ++ e.message

/-- Shows the operations of a script. -/
def showPlan (format : OutputFormat) (script : Text) : Printout :=
  match Plan.ofScript (normalize script) with
  | .error failure => failed format [] (RunError.unparseable failure).message
  | .ok plan =>
    match format with
    | .json => { stdout := printed [(Report.ofPlan plan).pretty 0] }
    | .pretty =>
      { stdout := printed (summary [] plan.steps.length plan.tier
          :: numberedLines (plan.steps.map stepLine)) }

/-- A typist on documents in memory. -/
def typist (settings : Settings) : Typist Document where
  editor := Document.editor {}
  settings
  convert text millis :=
    Converter.convert (Converter.run settings.converter.program settings.converter.args millis) text

/-- What a dry run shows of its document. -/
def showDocument (format : OutputFormat) (result : Except RunError RunReport) (doc : Document) :
    Text :=
  let log := doc.log.reverse
  match format with
  | .json =>
    let report := match result with
      | .ok report => Report.ofRun report
      | .error e => Report.ofError e.message
    printed [(Report.object
      [ ("report".toList, report), ("text".toList, .string doc.buffer.text),
        ("primitives".toList, .list (log.map Report.ofPrimitive)) ]).pretty 0]
  | .pretty =>
    printed
      ([ "Document".toList, doc.buffer.text, [],
        "Primitives (".toList ++ Decimal.natText log.length ++ " call(s))".toList ]
        ++ numberedLines (log.map fun p => (Record.ofPrimitive p).render))

/-- Types a script into a fresh document and shows it. -/
def dryRun (format : OutputFormat) (settings : Settings) (document script : Text) : Printout :=
  let session : Session Document := { desk := { target := .withStandardFragments document } }
  let (result, session) := session.run (typist settings) .full script none
  let shown := showDocument format result session.desk.target
  match result, format with
  | .error e, _ => failed format shown ("dry run stopped: ".toList ++ runMessage e)
  | .ok _, .json => { stdout := shown }
  | .ok report, .pretty =>
    { stdout := shown ++ printed [summary "typed ".toList report.applied report.tier] }

/-- The settings of a command line. -/
def settings (c : CommandLine) (env : Settings.Environment) (configFile : FileContents) :
    Except SettingsError Settings :=
  match c.config with
  | some path => Settings.ofFile path configFile
  | none => Settings.ofEnvironment env

/-- The answer to a command line, given the contents of its script and of its settings file. -/
def answer (c : CommandLine) (env : Settings.Environment) (source configFile : FileContents) :
    Printout :=
  match source with
  | .error reason => failed c.format [] (sourceMessage c.file reason)
  | .ok script =>
    match c.task with
    | .normalize => showNormalized c.format script
    | .parse => showPlan c.format script
    | .dryRun document =>
      match c.settings env configFile with
      | .error e => failed c.format [] (settingsMessage e)
      | .ok settings => dryRun c.format settings document script

end CommandLine

/-! ## Command lines without a task -/

/-- The name and version of the program. -/
def Usage.versionLine : Text := "typist 0.1.0".toList

/-- How the program is used. -/
def Usage.usageLine : Text :=
  "Usage: typist [--format json|pretty] [--config FILE] ".toList
    ++ "normalize|parse|dry-run [--file FILE]".toList

/-- The answer to a command line that names no task. -/
def Usage.answer : Usage → Printout
  | .version => { stdout := CommandLine.printed [Usage.versionLine] }
  | .help => { stdout := CommandLine.printed [Usage.usageLine] }
  | .wrong => { code := 2, stderr := CommandLine.printed [Usage.usageLine] }

end Scribe
