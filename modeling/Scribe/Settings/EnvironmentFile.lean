import Scribe.Settings.Environment
import Scribe.Text.Classes

set_option autoImplicit false

/-! # Environment files

A file may give values to variables: a name, an equals sign, and a value that may be quoted, refer
to other variables and, between quotes, run over several lines. What the environment sets already
stays as it is, and of two values for one name the first one counts. Nothing is read from the first
fault on. -/

namespace Scribe.Settings

/-! ## Lines -/

/-- How far a line was read. -/
inductive LineReading where
  /-- Nothing but white space was read. -/
  | fresh
  | plain
  /-- The last character was white space, so a comment may begin. -/
  | spaced
  | escaped
  | quoted (mark : Char)
  | quotedEscape (mark : Char)
  | comment
  deriving DecidableEq, Repr

namespace LineReading

/-- The reading behind a character that stands outside quotes. -/
def behind (c : Char) : LineReading :=
  if c = '\\' then .escaped else if c = '\'' ∨ c = '"' then .quoted c else .plain

/-- Reads a character. A single blank lets a comment begin, and so does every second one of
    several. -/
def step (r : LineReading) (c : Char) : LineReading :=
  match r with
  | .fresh => if c = '#' then .comment else if Text.isWhite c then .fresh else behind c
  | .plain => if Text.isWhite c ∧ c ≠ '\n' ∧ c ≠ '\r' then .spaced else behind c
  | .spaced => if c = '#' then .comment else behind c
  | .escaped => .plain
  | .quoted mark =>
    if c = '\\' then .quotedEscape mark else if c = mark then .plain else .quoted mark
  | .quotedEscape mark => .quoted mark
  | .comment => .comment

/-- May a line end here? -/
def mayEnd : LineReading → Bool
  | .fresh | .plain | .comment => true
  | _ => false

end LineReading

/-- The lines of a text without their comments, given how the first one stands. Quoted line breaks
    do not end a line, and a last line that may not end is left out. -/
def cutLines : LineReading → Text → List Text
  | r, [] => if r.mayEnd then [[]] else []
  | r, c :: s =>
    let r := r.step c
    if c = '\n' ∧ r.mayEnd then [] :: cutLines .fresh s
    else
      match cutLines r s with
      | [] => []
      | l :: ls => (if r = .comment then l else c :: l) :: ls

/-! ## Values -/

/-- A reference to a variable that is being read. -/
structure Reference where
  inBraces : Bool := false
  /-- The name so far, in reverse. -/
  written : Text := []
  deriving DecidableEq, Repr

/-- How far a value was read. -/
structure ValueReading where
  /-- The value so far, in reverse. -/
  written : Text := []
  quote : Option Char := none
  reference : Option Reference := none
  escaped : Bool := false
  /-- Only a comment may follow. -/
  ended : Bool := false
  comment : Bool := false
  deriving DecidableEq, Repr

namespace ValueReading

/-- The reading with one more character of the value. -/
def push (r : ValueReading) (c : Char) : ValueReading := { r with written := c :: r.written }

/-- The reading with the value of the variable that is referred to; variables that are not set are
    empty. -/
def settle (env : Environment) (r : ValueReading) : ValueReading :=
  match r.reference with
  | some ref =>
    let value := (env ref.written.reverse).getD []
    { r with written := value.reverse ++ r.written, reference := none }
  | none => r

/-- The character that stands for itself, or for a line feed, behind a backslash. -/
def escape? (c : Char) : Option Char :=
  if c = 'n' then some '\n' else if "\\'\"$ ".toList.elem c then some c else none

/-- Is a character part of a name without braces? -/
def isNamePart (c : Char) : Bool := c != '_' && Text.isWord c

/-- Reads a character of a reference. A name without braces ends before the first character that is
    no part of it, and that character is taken as it is unless it begins another reference. -/
def referenceStep (env : Environment) (r : ValueReading) (ref : Reference) (c : Char) :
    ValueReading :=
  let longer : ValueReading := { r with reference := some { ref with written := c :: ref.written } }
  if isNamePart c then longer
  else if ref.inBraces then if c = '\x7d' then r.settle env else longer
  else if c = '\x7b' ∧ ref.written = [] then { r with reference := some { inBraces := true } }
  else if c = '$' then { r.settle env with reference := some {} }
  else (r.settle env).push c

/-- Reads a character. -/
def step (env : Environment) (r : ValueReading) (c : Char) : Option ValueReading :=
  if r.comment then some r
  else if r.ended then
    if Text.isGap c then some r else if c = '#' then some { r with comment := true } else none
  else if r.escaped then (escape? c).map fun c => { r.push c with escaped := false }
  else if r.quote = some '\'' then
    some (if c = '\'' then { r with quote := none } else r.push c)
  else if let some ref := r.reference then some (r.referenceStep env ref c)
  else if c = '$' then some { r with reference := some {} }
  else if c = '\\' then some { r with escaped := true }
  else if r.quote.isSome then some (if c = '"' then { r with quote := none } else r.push c)
  else if c = '\'' ∨ c = '"' then some { r with quote := some c }
  else if Text.isGap c then some { r with ended := true }
  else some (r.push c)

end ValueReading

/-- The value that a text writes; none where quotes or braces stay open. -/
def value? (env : Environment) (s : Text) : Option Text := do
  let r ← s.foldlM (ValueReading.step env) {}
  if r.quote.isSome ∨ r.reference.any Reference.inBraces then none
  return (r.settle env).written.reverse

/-! ## Assignments -/

/-- A name and what follows it. -/
def name? (s : Text) : Option (Text × Text) :=
  match s with
  | c :: _ =>
    let isPart (c : Char) : Bool := c.isAlphanum || c == '_' || c == '.'
    if c.isAlpha || c == '_' then some (s.takeWhile isPart, Text.trimStart (s.dropWhile isPart))
    else none
  | [] => none

/-- The variable that a line sets, and its value; the word `export` may stand before it. -/
def assignment? (env : Environment) (line : Text) : Option (Text × Text) := do
  let (name, rest) ← name? line
  let (name, rest) ←
    if name = "export".toList ∧ rest.head? ≠ some '=' then name? rest else some (name, rest)
  match rest with
  | '=' :: written =>
    let written := Text.trimStart written
    if written.head?.all (· == '#') then return (name, []) else return (name, ← value? env written)
  | _ => none

/-! ## Environments -/

/-- The environment with a variable set, unless it was set before. -/
def Environment.add (env : Environment) (key value : Text) : Environment :=
  fun k => (env k).or (if k = key then some value else none)

/-- The environment with what lines set, up to the first faulty one. -/
def Environment.addLines (env : Environment) : List Text → Environment
  | [] => env
  | line :: lines =>
    let line := Text.trim line
    if line.head?.all (· == '#') then env.addLines lines
    else
      match assignment? env line with
      | some (key, value) => (env.add key value).addLines lines
      | none => env

/-- The name of the file in the folder that the program runs in. -/
def environmentFile : Text := ".env".toList

/-- The environment with what a file, if there is one, adds to it. The file may begin with a byte
    order mark. -/
def Environment.withFile (env : Environment) (contents : Option Text) : Environment :=
  let text := contents.getD []
  let text := (Text.stripStart? ['\ufeff'] text).getD text
  env.addLines (cutLines .fresh text)

end Scribe.Settings
