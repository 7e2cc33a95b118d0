import Scribe.Decimal.Reading
import Scribe.Script.Failure
import Scribe.Script.Arithmetic
import Scribe.Script.Operation

set_option autoImplicit false

/-! # The grammar of scripts

```text
script    := blank (call end blank)*
call      := name '(' (argument (',' argument)* ','?)? ')'
argument  := name '=' value | value
value     := string | number | list | tuple | helper call | constant
end       := space* comment? (newline | ';' | end of text)
```

Blanks may surround arguments, commas and `=`. A call of a name outside the vocabulary is read and
dropped. Values nest at most 64 deep: the reader of values is built level by level from a budget,
so its recursion is structural. -/

namespace Scribe.Grammar

open Text (isGap isBlank)

/-! ## Outcomes -/

/-- What a reader finds at the start of a text. -/
inductive Parsed (α : Type) where
  /-- A value, and the text behind it. -/
  | ok (value : α) (rest : Text)
  /-- Nothing that it reads: another reader may try. -/
  | mismatch
  /-- A mistake at the start of `rest`, which no other reader can mend. -/
  | stop (cause : ParseCause) (rest : Text)

/-- Passes the value read through `f`. -/
def Parsed.map {α β : Type} (f : α → β) : Parsed α → Parsed β
  | .ok value rest => .ok (f value) rest
  | .mismatch => .mismatch
  | .stop cause rest => .stop cause rest

/-! ## Blanks and separators -/

/-- Skips the spaces, tabs and line breaks at the start. -/
def skipBlank (s : Text) : Text := s.dropWhile isBlank

/-- A single character between blanks. -/
def separator? (c : Char) (s : Text) : Option Text :=
  match skipBlank s with
  | [] => none
  | d :: r => if d = c then some (skipBlank r) else none

/-- Skips what may stand between statements: blanks, semicolons, and comments up to the end of
    their line. -/
def skipIdle (inComment : Bool) : Text → Text
  | [] => []
  | c :: s =>
    if inComment then skipIdle (c != '\n') s
    else if isBlank c || c == ';' then skipIdle false s
    else if c == '#' then skipIdle true s
    else c :: s

/-- The text behind the end of a statement. -/
def statementEnd? (s : Text) : Option Text :=
  let s := s.dropWhile isGap
  let s := match s with
    | '#' :: r => r.dropWhile (· != '\n')
    | _ => s
  match s with
  | [] => some []
  | '\n' :: r => some r
  | ';' :: r => some r
  | _ => none

/-- Items with commas between them: all that can be read, and the text behind the last one. A
    comma that no item follows is left unread. -/
def separated {α : Type} (item : Text → Parsed α) (s : Text) : Parsed (List α) :=
  match item (skipBlank s) with
  | .mismatch => .ok [] s
  | .stop cause rest => .stop cause rest
  | .ok value rest => more value rest
where
  /-- Goes on behind an item: `rest` is what follows it. -/
  more (value : α) (rest : Text) : Parsed (List α) :=
    let here := skipBlank rest
    match separator? ',' here with
    | none => .ok [value] here
    | some next =>
      match item next with
      | .mismatch => .ok [value] here
      | .stop cause rest => .stop cause rest
      | .ok value' rest' =>
        if rest'.length < rest.length then (more value' rest').map (value :: ·)
        else .ok [value] here
  termination_by rest.length

/-- Items with commas between them and perhaps one behind the last; says whether there was one. -/
def items {α : Type} (item : Text → Parsed α) (s : Text) : Parsed (List α × Bool) :=
  match separated item s with
  | .ok values rest =>
    match separator? ',' rest with
    | some rest => .ok (values, true) rest
    | none => .ok (values, false) rest
  | .mismatch => .mismatch
  | .stop cause rest => .stop cause rest

/-! ## Calls -/

/-- An argument of a call. -/
inductive Argument where
  | positional (value : Value)
  | keyword (name : Text) (value : Value)

/-- The positional and the keyword arguments, each in order. -/
def splitArguments (arguments : List Argument) : List Value × List (Text × Value) :=
  ( arguments.filterMap fun
      | .positional value => some value
      | .keyword _ _ => none,
    arguments.filterMap fun
      | .positional _ => none
      | .keyword name value => some (name, value) )

/-- The text behind `name =`, with the name, if an argument starts so. -/
def keyword? (s : Text) : Option (Text × Text) :=
  let (name, rest) := identifier s
  if name.isEmpty then none else (separator? '=' rest).map fun rest => (name, rest)

/-- An argument, whose value `value` reads. What looks like a keyword but has no value behind it
    is read as a value itself. -/
def argument (value : Text → Parsed Value) (s : Text) : Parsed Argument :=
  match keyword? s with
  | none => (value s).map .positional
  | some (name, rest) =>
    match value rest with
    | .mismatch => (value s).map .positional
    | parsed => parsed.map (.keyword name)

/-- An argument list without its parentheses. -/
def arguments (value : Text → Parsed Value) (s : Text) : Parsed (List Argument) :=
  (items (argument value) s).map Prod.fst

/-- A call of any name. -/
structure RawCall where
  name : Text
  args : List Value
  kwargs : List (Text × Value)

/-- A call: a name, an opening parenthesis on the same line, arguments and the closing one. -/
def call (value : Text → Parsed Value) (s : Text) : Parsed RawCall :=
  let (name, rest) := identifier s
  if name.isEmpty then .mismatch
  else match rest.dropWhile isGap with
    | '(' :: inner =>
      match arguments value inner with
      | .mismatch => .mismatch
      | .stop cause rest => .stop cause rest
      | .ok arguments rest =>
        match skipBlank rest with
        | ')' :: rest =>
          let (args, kwargs) := splitArguments arguments
          .ok ⟨name, args, kwargs⟩ rest
        | rest => .stop (.expected .closingParenthesis) rest
    | _ => .mismatch

/-! ## Values -/

/-- A number: an integer of 64 bits, or a decimal if there is a point. -/
def number (s : Text) : Parsed Value :=
  let (sign, unsigned) := match s with
    | '-' :: r => (['-'], r)
    | _ => ([], s)
  let whole := unsigned.takeWhile Char.isDigit
  let rest := unsigned.dropWhile Char.isDigit
  if whole.isEmpty then .mismatch
  else match rest with
    | '.' :: r =>
      let text := sign ++ whole ++ '.' :: r.takeWhile Char.isDigit
      match Decimal.float? text with
      | some x => .ok (.float x) (r.dropWhile Char.isDigit)
      | none => .stop .invalidStatement s
    | _ =>
      match Decimal.int64? (sign ++ whole) with
      | some n => .ok (.int n) rest
      | none => .stop .invalidStatement s

/-- The values behind an opening bracket or parenthesis, up to `close`, and whether a comma
    followed the last one. -/
def enclosed (value : Text → Parsed Value) (close : Char) (what : Expectation) (s : Text) :
    Parsed (List Value × Bool) :=
  match items value s with
  | .ok found rest =>
    match rest with
    | [] => .stop (.expected what) rest
    | c :: r => if c = close then .ok found r else .stop (.expected what) rest
  | parsed => parsed

/-- What a parenthesised sequence of values means: one value without a comma is just that value. -/
def tupleValue : List Value × Bool → Value
  | ([value], false) => value
  | (values, _) => .list values

/-- The constant of a name. -/
def constant? (name : Text) : Option Value :=
  if name = "True".toList ∨ name = "true".toList then some (.bool true)
  else if name = "False".toList ∨ name = "false".toList then some (.bool false)
  else if name = "None".toList ∨ name = "null".toList then some .none
  else none

/-- A constant, or the value of a helper call. -/
def word (value : Text → Parsed Value) (s : Text) : Parsed Value :=
  let (name, rest) := identifier s
  if name.isEmpty then .mismatch
  else match rest.dropWhile isGap with
    | '(' :: _ =>
      match call value s with
      | .mismatch => .mismatch
      | .stop cause rest => .stop cause rest
      | .ok helper rest =>
        if !helper.kwargs.isEmpty then .stop (.expected .positionalArguments) s
        else match Helper.eval? helper.name helper.args with
          | some result => .ok result rest
          | none => .stop (.expected .pureHelper) s
    | _ =>
      match constant? name with
      | some result => .ok result rest
      | none => .stop (.expected .literalValue) s

/-- A value whose inner values `inner` reads. -/
def valueOf (inner : Text → Parsed Value) (s : Text) : Parsed Value :=
  match Literal.scan? s with
  | some (value, rest) => .ok (.str value) rest
  | none =>
    match s with
    | '[' :: r => (enclosed inner ']' .closingBracket r).map fun found => .list found.1
    | '(' :: r => (enclosed inner ')' .closingParenthesis r).map tupleValue
    | _ =>
      match number s with
      | .mismatch => word inner s
      | parsed => parsed

/-- A value, with `budget` levels of nesting to spend on it. -/
def value : Nat → Text → Parsed Value
  | 0, s => .stop (.expected .shallowNesting) s
  | budget + 1, s => valueOf (value budget) s

/-- How deep lists, tuples and helper calls may nest. -/
def maxNesting : Nat := 64

/-- A value in argument position. -/
def argumentValue : Text → Parsed Value := value (maxNesting + 1)

/-! ## Scripts -/

/-- The statements from here on; `s` does not start with anything idle. -/
def statements (s : Text) : Except (ParseCause × Text) (List RawCall) :=
  if s.isEmpty then .ok []
  else match call argumentValue s with
    | .mismatch => .error (.invalidStatement, s)
    | .stop cause rest => .error (cause, rest)
    | .ok found rest =>
      match statementEnd? rest with
      | none => .error (.invalidStatement, s)
      | some rest =>
        let next := skipIdle false rest
        if next.length < s.length then (statements next).map (found :: ·)
        else .error (.invalidStatement, s)
termination_by s.length

/-- A failure of a reader of `source`. -/
def failure (source : Text) (mistake : ParseCause × Text) : ParseFailure :=
  ⟨.ofRest source mistake.2, mistake.1⟩

/-- Every call of a script. -/
def calls (script : Text) : Except ParseFailure (List RawCall) :=
  (statements (skipIdle false script)).mapError (failure script)

/-- The calls of the vocabulary in a script; other calls are dropped. -/
def parseScript (script : Text) : Except ParseFailure (List Invocation) :=
  (calls script).map fun found => found.filterMap fun raw =>
    (Verb.ofName? raw.name).map fun verb => { verb, args := raw.args, kwargs := raw.kwargs }

/-- Reads a bare argument list. -/
def parseArguments (text : Text) : Except ParseFailure (List Value × List (Text × Value)) :=
  match arguments argumentValue (skipBlank text) with
  | .ok found rest =>
    match skipBlank rest with
    | [] => .ok (splitArguments found)
    | rest => .error (failure text (.invalidStatement, rest))
  | .mismatch => .error (failure text (.invalidStatement, skipBlank text))
  | .stop cause rest => .error (failure text (cause, rest))

end Scribe.Grammar
