import Scribe.Settings.EnvironmentFile

set_option autoImplicit false

/-! # Command line options

A command line names one task and options with values. The options on the format and on the
settings file may stand before or after the task; the others belong to tasks. -/

namespace Scribe

/-- How a task answers. -/
inductive OutputFormat where
  | json
  | pretty
  deriving DecidableEq, Repr

/-- What a command line asks for. -/
inductive Task where
  /-- Show the repaired script. -/
  | normalize
  /-- Show the operations of a script. -/
  | parse
  /-- Type a script into a document in memory, and show the document. -/
  | dryRun (document : Text)
  deriving DecidableEq, Repr

/-- A command line that was understood. -/
structure CommandLine where
  task : Task
  format : OutputFormat
  /-- The settings file; without one, the environment gives the settings. -/
  config : Option Text
  /-- The script file; without one, the script is the input. -/
  file : Option Text
  deriving DecidableEq, Repr

/-- Why a command line names no task. -/
inductive Usage where
  | help
  | version
  | wrong
  deriving DecidableEq, Repr

namespace CommandLine

/-! ## Options -/

/-- An option with a value. -/
inductive OptionKey where
  | format
  | config
  | file
  | document
  deriving DecidableEq, Repr

/-- The option of a long name. -/
def OptionKey.ofLong? (name : Text) : Option OptionKey :=
  if name = "format".toList then some .format
  else if name = "config".toList then some .config
  else if name = "file".toList then some .file
  else if name = "document".toList then some .document
  else none

/-- The option of a letter. -/
def OptionKey.ofLetter? : Char → Option OptionKey
  | 'o' => some .format
  | 'f' => some .file
  | _ => none

/-- Values of options. -/
abbrev Options := List (OptionKey × Text)

/-- A token of a command line. -/
inductive Token where
  /-- An option, with its value if the token holds it. -/
  | option (key : OptionKey) (value : Option Text)
  | usage (usage : Usage)
  | positional

/-- What a token is. -/
def token (text : Text) : Token :=
  match text with
  | ['-', '-'] => .positional
  | '-' :: '-' :: s =>
    let name := s.takeWhile (· != '=')
    let value := if s.elem '=' then some (s.drop (name.length + 1)) else none
    if name = "help".toList then .usage .help
    else if name = "version".toList then .usage .version
    else match OptionKey.ofLong? name with
      | some key => .option key value
      | none => .usage .wrong
  | '-' :: c :: s =>
    if c = 'h' then .usage .help
    else if c = 'V' then .usage .version
    else match OptionKey.ofLetter? c, s with
      | some key, [] => .option key none
      | some key, '=' :: value => .option key (some value)
      | some key, value => .option key (some value)
      | none, _ => .usage .wrong
  | _ => .positional

/-- May an option have a value? -/
def accepts (key : OptionKey) (value : Text) : Bool :=
  match key with
  | .format => value == "json".toList || value == "pretty".toList
  | .config | .file => !value.isEmpty
  | .document => true

/-- One more option, which must be allowed, new, and have a proper value. -/
def addOption (allowed : List OptionKey) (options : Options) (key : OptionKey) (value : Text) :
    Except Usage Options :=
  if allowed.elem key && (options.lookup key).isNone && accepts key value then
    .ok ((key, value) :: options)
  else .error .wrong

/-- Reads options up to the first token that is none, and gives the tokens from there on. -/
def readOptions (allowed : List OptionKey) :
    List Text → Options → Except Usage (Options × List Text)
  | [], options => .ok (options, [])
  | text :: rest, options =>
    match token text with
    | .positional => .ok (options, text :: rest)
    | .usage usage => .error usage
    | .option key (some value) => do
      readOptions allowed rest (← addOption allowed options key value)
    | .option key none =>
      match rest with
      | [] => .error .wrong
      | value :: rest =>
        match value with
        | '-' :: _ :: _ => .error .wrong
        | _ => do readOptions allowed rest (← addOption allowed options key value)

/-! ## Tasks -/

/-- The document of a dry run that is given no other name. -/
def defaultDocument : Text := "dry-run.hwp".toList

/-- A task without its options, and the options that belong to it. -/
def task? (name : Text) : Option (Task × List OptionKey) :=
  if name = "normalize".toList then some (.normalize, [.file])
  else if name = "parse".toList then some (.parse, [.file])
  else if name = "dry-run".toList then some (.dryRun defaultDocument, [.file, .document])
  else none

/-- The options that may stand before the task. -/
def globalOptions : List OptionKey := [.format, .config]

/-- The task with the document that was named for it. -/
def withDocument (task : Task) (document : Option Text) : Task :=
  match task, document with
  | .dryRun _, some document => .dryRun document
  | task, _ => task

/-- The variable that names the settings file. -/
def configVariable : Text := "TYPIST_CONFIG".toList

/-- Reads a command line. An option given behind the task goes before one given in front of it, and
    the settings file may be named in the environment. -/
def ofArguments (env : Settings.Environment) (args : List Text) : Except Usage CommandLine := do
  let (leading, rest) ← readOptions globalOptions args []
  match rest with
  | [] => throw .wrong
  | name :: rest =>
    if name = "help".toList then throw .help
    match task? name with
    | none => throw .wrong
    | some (task, own) =>
      let (trailing, rest) ← readOptions (own ++ globalOptions) rest []
      unless rest = [] ∨ rest = [['-', '-']] do throw .wrong
      let options := trailing ++ leading
      let config := (options.lookup .config).or (env configVariable)
      if config = some [] then throw .wrong
      return {
        task := withDocument task (options.lookup .document)
        format := if options.lookup .format = some "json".toList then .json else .pretty
        config
        file := options.lookup .file }

end CommandLine

end Scribe
