import Scribe.Text.Basic
import Scribe.Text.WordRanges
import Scribe.Text.EscapedRanges

set_option autoImplicit false

/-! # Character classes

The classes that decide where an identifier, a word or a number ends. Identifiers of the script
language are ASCII; the notation rules and the score pattern see words and digits of every
script. -/

namespace Scribe.Text

/-- Does a code point lie in one of the inclusive ranges? -/
def inRanges (ranges : List (Nat × Nat)) (n : Nat) : Bool :=
  ranges.any fun (low, high) => low ≤ n && n ≤ high

/-- A letter, digit or underscore of ASCII: what an identifier is made of. -/
def isIdentChar (c : Char) : Bool := c.isAlphanum || c == '_'

/-- A letter or underscore of ASCII: what an identifier starts with. -/
def isIdentStart (c : Char) : Bool := c.isAlpha || c == '_'

/-- A word character in the Unicode sense. -/
def isWord (c : Char) : Bool :=
  if c.toNat < 128 then isIdentChar c else inRanges wordRanges c.toNat

/-- A decimal digit of any script. -/
def isDecimal (c : Char) : Bool :=
  if c.toNat < 128 then c.isDigit else inRanges digitRanges c.toNat

/-- Must quoted diagnostic text write this character as a numeric escape? -/
def isEscaped (c : Char) : Bool :=
  if c.toNat < 128 then c.toNat < 32 || c.toNat == 127 else inRanges escapedRanges c.toNat

end Scribe.Text
