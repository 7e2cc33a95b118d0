import Scribe.Converter.Basic
import Scribe.Decimal.Reading
import Scribe.Text.Utf8

set_option autoImplicit false

/-! # Converter programs

The programs that conversions can be handed to: one that copies, one that exchanges bytes, and a
small shell that puts such programs together. Every other program counts as missing. -/

namespace Scribe.Converter

open Utf8 (Bytes)

/-! ## Programs -/

/-- How a program has ended. -/
structure Ending where
  code : Nat := 0
  output : Bytes := []
  /-- How long it took, in milliseconds. -/
  millis : Nat := 0
  /-- What it left of its input. -/
  unread : Bytes := []

/-- The bytes of a fixed text. -/
def bytes (s : String) : Bytes := Utf8.encode s.toList

/-- A line feed. -/
def lineFeed : UInt8 := 10

/-- The byte of an escape of one letter. -/
def escape? (c : Char) : Option UInt8 :=
  match c with
  | '\\' => some 92
  | 'a' => some 7
  | 'b' => some 8
  | 't' => some 9
  | 'n' => some lineFeed
  | 'v' => some 11
  | 'f' => some 12
  | 'r' => some 13
  | _ => none

/-- Is a character an octal digit? -/
def isOctal (c : Char) : Bool := '0' ≤ c && c ≤ '7'

/-- The byte that octal digits write. -/
def octalByte (digits : Text) : UInt8 :=
  UInt8.ofNat (digits.foldl (fun n c => 8 * n + (c.toNat - '0'.toNat)) 0)

/-- What stands behind a backslash: an octal escape of up to `width` digits or an escape of one
    letter, with the text behind it. -/
def escaped? (width : Nat) (s : Text) : Option (UInt8 × Text) :=
  match (s.take width).takeWhile isOctal, s with
  | [], c :: rest => (escape? c).map fun byte => (byte, rest)
  | [], [] => none
  | digits, _ => some (octalByte digits, s.drop digits.length)

/-- The bytes from one character to another. -/
def byteRange (a b : Char) : Bytes :=
  (List.range (b.toNat + 1 - a.toNat)).map fun i => UInt8.ofNat (a.toNat + i)

/-- The classes of bytes that have names. -/
def byteClasses : List (Text × Bytes) :=
  [ ("[:lower:]".toList, byteRange 'a' 'z'), ("[:upper:]".toList, byteRange 'A' 'Z'),
    ("[:digit:]".toList, byteRange '0' '9') ]

/-- The class that a text starts with, and the text behind its name. -/
def byteClass? (s : Text) : Option (Bytes × Text) :=
  byteClasses.findSome? fun (name, set) => (Text.stripStart? name s).map fun rest => (set, rest)

/-- The bytes that a set of the exchanging program names: classes, backslash escapes, ranges, and
    single bytes. -/
def byteSet : Nat → Text → Bytes
  | 0, _ | _, [] => []
  | fuel + 1, '[' :: s =>
    match byteClass? ('[' :: s) with
    | some (set, rest) => set ++ byteSet fuel rest
    | none => 91 :: byteSet fuel s
  | fuel + 1, '\\' :: s =>
    match escaped? 3 s, s with
    | some (byte, rest), _ => byte :: byteSet fuel rest
    | none, c :: rest => Utf8.encode [c] ++ byteSet fuel rest
    | none, [] => [92]
  | fuel + 1, a :: '-' :: b :: s => byteRange a b ++ byteSet fuel s
  | fuel + 1, c :: s => Utf8.encode [c] ++ byteSet fuel s

/-- What a byte is exchanged for: its partner in the other set, whose last byte stands in for those
    that it is short of. -/
def exchange (source target : Bytes) (byte : UInt8) : UInt8 :=
  match source.idxOf? byte with
  | some i => (target[i]?.or target.getLast?).getD byte
  | none => byte

/-- The simple programs. -/
def simple? (program : Text) (args : List Text) (input : Bytes) : Option Ending :=
  let set (s : Text) : Bytes := byteSet s.length s
  if program = "cat".toList then
    if args.all (· = ['-']) then some { output := input }
    else some { code := 1, unread := input }
  else if program = "tr".toList then
    match args with
    | [source, target] =>
      if source = ['-', 'd'] then
        some { output := input.filter fun byte => !(set target).elem byte }
      else some { output := input.map (exchange (set source) (set target)) }
    | _ => some { code := 1, unread := input }
  else none

/-! ## Reading shell scripts -/

/-- When a command runs, given how the one before it has ended. -/
inductive Condition where
  | always
  | onSuccess
  | onFailure
  /-- At the same time as the one before it, whose output it reads. -/
  | piped
  deriving DecidableEq, Repr

/-- A command of the shell. -/
structure ShellCommand where
  condition : Condition
  words : List Text
  /-- Is what the command writes thrown away? -/
  silent : Bool
  deriving DecidableEq, Repr

/-- How far a script was read: the quote that is open, the word and the command that were begun,
    both in reverse, and the commands before them, the latest first. -/
structure ShellReading where
  quote : Option Char := none
  escaped : Bool := false
  word : Option Text := none
  /-- Is the word the target of a redirection? -/
  isTarget : Bool := false
  words : List Text := []
  silent : Bool := false
  condition : Condition := .always
  commands : List ShellCommand := []

namespace ShellReading

/-- One more character of the word. -/
def push (r : ShellReading) (c : Char) : ShellReading :=
  { r with word := some (c :: r.word.getD []) }

/-- The word has ended. -/
def endWord (r : ShellReading) : ShellReading :=
  match r.word with
  | none => r
  | some word =>
    if r.isTarget then { r with word := none, isTarget := false }
    else { r with word := none, words := word.reverse :: r.words }

/-- The command has ended, and another one with a condition begins. -/
def endCommand (r : ShellReading) (condition : Condition) : ShellReading :=
  let r := r.endWord
  { r with
    words := []
    silent := false
    condition
    commands := ⟨r.condition, r.words.reverse, r.silent⟩ :: r.commands }

/-- A bar: two of them make a condition, one of them a pipe. -/
def bar (r : ShellReading) : ShellReading :=
  if r.condition = .piped ∧ r.words = [] ∧ r.word.isNone then { r with condition := .onFailure }
  else r.endCommand .piped

/-- A redirection begins; that of the second channel silences nothing. -/
def redirect (r : ShellReading) : ShellReading :=
  if r.word == some ['2'] then { r with word := none, isTarget := true }
  else if r.word == some ['1'] then { r with word := none, isTarget := true, silent := true }
  else { r.endWord with isTarget := true, silent := true }

/-- Reads a character. -/
def step (r : ShellReading) (c : Char) : ShellReading :=
  if r.escaped then
    let r := if r.quote = some '"' ∧ c ≠ '"' ∧ c ≠ '\\' then r.push '\\' else r
    { r.push c with escaped := false }
  else if c = '\\' ∧ r.quote ≠ some '\'' then { r with escaped := true }
  else
    match r.quote with
    | some q => if c = q then { r with quote := none } else r.push c
    | none =>
      if c = '"' ∨ c = '\'' then { r with quote := some c, word := some (r.word.getD []) }
      else if c = '>' then r.redirect
      else if r.isTarget ∧ r.word.isNone ∧ c = '&' then r.push c
      else if c = ';' ∨ c = '\n' then r.endCommand .always
      else if c = '&' then r.endCommand .onSuccess
      else if c = '|' then r.bar
      else if Text.isGap c then r.endWord
      else r.push c

end ShellReading

/-- The commands of a script; none where a quote stays open. -/
def shellCommands? (script : Text) : Option (List ShellCommand) :=
  let r := script.foldl ShellReading.step {}
  if r.quote.isSome || r.escaped then none else some (r.endCommand .always).commands.reverse

/-! ## Commands -/

/-- What a format with backslash escapes and placeholders for words writes, and the words that it
    has no placeholder for. -/
def formatOnce : Nat → Text → List Text → Bytes × List Text
  | 0, _, args | _, [], args => ([], args)
  | fuel + 1, '\\' :: s, args =>
    let (byte, rest) := (escaped? 3 s).getD (92, s)
    let (written, left) := formatOnce fuel rest args
    (byte :: written, left)
  | fuel + 1, '%' :: '%' :: s, args =>
    let (written, left) := formatOnce fuel s args
    (37 :: written, left)
  | fuel + 1, '%' :: 's' :: s, args =>
    let (written, left) := formatOnce fuel s args.tail
    (Utf8.encode (args.headD []) ++ written, left)
  | fuel + 1, c :: s, args =>
    let (written, left) := formatOnce fuel s args
    (Utf8.encode [c] ++ written, left)

/-- What a format writes that is used again as long as it takes up words. -/
def format (text : Text) : Nat → List Text → Bytes
  | 0, _ => []
  | fuel + 1, args =>
    let (written, left) := formatOnce text.length text args
    if left.isEmpty ∨ left.length = args.length then written else written ++ format text fuel left

/-- Words with a space between each two. -/
def echo (words : List Text) : Bytes := Utf8.encode (List.intercalate [' '] words)

/-- A number of seconds in milliseconds. -/
def millis (seconds : Text) : Nat :=
  ((Decimal.float? seconds).map fun x => (x * 1000).toUInt64.toNat).getD 0

/-- A command that the shell does not end with. -/
def simpleCommand (name : Text) (args : List Text) (input : Bytes) : Ending :=
  if name = "true".toList ∨ name = [':'] then { unread := input }
  else if name = "false".toList then { code := 1, unread := input }
  else if name = "sleep".toList then { millis := millis (args.headD []), unread := input }
  else if name = "echo".toList then
    if args.head? = some ['-', 'n'] then { output := echo args.tail, unread := input }
    else { output := echo args ++ [lineFeed], unread := input }
  else if name = "printf".toList then
    { output := format (args.headD []) (args.length + 1) args.tail, unread := input }
  else (simple? name args input).getD { code := 127, unread := input }

/-- A command of the shell; true when the shell ends with it. -/
def command (words : List Text) (input : Bytes) : Bool × Ending :=
  match words with
  | [] => (false, { unread := input })
  | name :: args =>
    if name = "exit".toList then
      (true, { code := (args.head?.bind Decimal.digits?).getD 0, unread := input })
    else if name = "exec".toList then
      match args with
      | [] => (false, { unread := input })
      | name :: args => (true, simpleCommand name args input)
    else (false, simpleCommand name args input)

/-- How far commands were run. -/
structure ShellRun where
  /-- What was written before the last command. -/
  written : Bytes := []
  /-- How the last command ended. -/
  last : Ending

namespace ShellRun

/-- Everything that was written. -/
def output (r : ShellRun) : Bytes := r.written ++ r.last.output

/-- Does a command run after these? -/
def reaches (r : ShellRun) (c : ShellCommand) : Bool :=
  match c.condition with
  | .always | .piped => !c.words.isEmpty
  | .onSuccess => !c.words.isEmpty && r.last.code == 0
  | .onFailure => !c.words.isEmpty && r.last.code != 0

/-- What a command writes, if it is not thrown away. -/
def shown (c : ShellCommand) (output : Bytes) : Bytes := if c.silent then [] else output

/-- Runs a command; true when the shell ends with it. A piped command reads what the last one has
    written and leaves the input of the shell alone. -/
def step (r : ShellRun) (c : ShellCommand) : Bool × ShellRun :=
  match c.condition with
  | .piped =>
    let (_, ending) := command c.words r.last.output
    (false,
      { written := r.written
        last :=
          { ending with
            output := shown c ending.output
            millis := max r.last.millis ending.millis
            unread := r.last.unread } })
  | _ =>
    let (ends, ending) := command c.words r.last.unread
    (ends,
      { written := r.output
        last :=
          { ending with
            output := shown c ending.output
            millis := r.last.millis + ending.millis } })

/-- Runs commands in order. -/
def steps (r : ShellRun) : List ShellCommand → ShellRun
  | [] => r
  | c :: cs =>
    if r.reaches c then
      match r.step c with
      | (true, r) => r
      | (false, r) => r.steps cs
    else r.steps cs

end ShellRun

/-- Runs a script of the shell. -/
def shell (script : Text) (input : Bytes) : Ending :=
  match shellCommands? script with
  | some commands =>
    let r := ShellRun.steps { last := { unread := input } } commands
    { r.last with output := r.output }
  | none => { code := 2 }

/-! ## Runs -/

/-- Runs a program on an input, for at most so many milliseconds. -/
def run (program : Text) (args : List Text) (timeoutMs : Nat) (text : Text) : Outcome :=
  let input := Utf8.encode text
  let ending? : Option Ending :=
    if program = "sh".toList then
      match args with
      | option :: script :: _ =>
        some (if option = ['-', 'c'] then shell script input else { code := 2 })
      | _ => some { code := 2 }
    else simple? program args input
  match ending? with
  | none => .notStarted
  | some e => if timeoutMs ≤ e.millis then .timedOut else .ended e.code (Utf8.decode e.output)

end Scribe.Converter
