import Scribe.Decimal.Layout

set_option autoImplicit false

/-! # Parse failures

Why a script could not be read, and where. -/

namespace Scribe

/-- A place in a text, counted from one; columns count characters. -/
structure Position where
  line : Nat
  column : Nat
  deriving DecidableEq, Repr

namespace Position

/-- The place directly behind `head`. -/
def behind (head : Text) : Position :=
  ⟨head.count '\n' + 1, (head.reverse.takeWhile (· != '\n')).length + 1⟩

/-- The place `offset` bytes into a text. Beyond the end, and inside a character, it is the end of
    the text. -/
def atByte (source : Text) (offset : Nat) : Position :=
  match Text.splitAtByte? offset source with
  | some (head, _) => behind head
  | none => behind source

/-- The place at which `rest`, an end of `source`, begins. -/
def ofRest (source rest : Text) : Position := behind (source.take (source.length - rest.length))

/-- A message about a place. -/
def describe (p : Position) (message : Text) : Text :=
  "line ".toList ++ Decimal.natText p.line ++ ", column ".toList ++ Decimal.natText p.column
    ++ ": ".toList ++ message

end Position

/-- What the grammar asked for in vain. -/
inductive Expectation where
  | closingParenthesis
  | closingBracket
  | literalValue
  | positionalArguments
  | pureHelper
  | shallowNesting
  deriving DecidableEq, Repr

/-- Why a script could not be read. -/
inductive ParseCause where
  | expected (what : Expectation)
  | invalidStatement
  | noCalls
  deriving DecidableEq, Repr

/-- The wording of a cause. -/
def ParseCause.message : ParseCause → Text
  | .expected .closingParenthesis => "expected closing parenthesis".toList
  | .expected .closingBracket => "expected closing bracket".toList
  | .expected .literalValue => "expected a literal value".toList
  | .expected .positionalArguments => "expected positional helper arguments".toList
  | .expected .pureHelper => "expected a pure helper with valid arguments".toList
  | .expected .shallowNesting => "expected at most 64 levels of nesting".toList
  | .invalidStatement => "invalid statement".toList
  | .noCalls => "no operation calls found".toList

/-- A script that could not be read. -/
structure ParseFailure where
  position : Position
  cause : ParseCause
  deriving DecidableEq, Repr

/-- The wording of a parse failure. -/
def ParseFailure.message (f : ParseFailure) : Text := f.position.describe f.cause.message

end Scribe
