import Scribe.Text.Basic

set_option autoImplicit false

/-! # Placed characters

The characters of a settings file together with the places where they stand, since indentation
decides what belongs to what. The spellings of a line break are made one, apart from the line and
paragraph separators. -/

namespace Scribe.Yaml

/-! ## Characters -/

/-- May a settings file hold a character? Controls other than the blanks are refused. -/
def isAllowed (c : Char) : Bool :=
  let n := c.toNat
  n == 9 || n == 10 || n == 13 || (0x20 ≤ n && n ≤ 0x7E) || n == 0x85
    || (0xA0 ≤ n && n ≤ 0xFFFD) || 0x10000 ≤ n

/-- Does a character end a line? -/
def isBreak (c : Char) : Bool := c == '\n' || c == '\u2028' || c == '\u2029'

/-- A space, a tab or a line break. -/
def isSpace (c : Char) : Bool := Text.isGap c || isBreak c

/-- Does a character delimit the values between brackets? -/
def isFlowMark (c : Char) : Bool := ",[]\x7b\x7d".toList.elem c

/-- May a character stand in the name of an anchor or of a tag? -/
def isNameChar (c : Char) : Bool := c.isAlphanum || c == '_' || c == '-'

/-! ## Places -/

/-- A character and where it stands. -/
structure Placed where
  char : Char
  /-- How many characters precede it in the file. -/
  offset : Nat
  /-- How many lines precede its line. -/
  line : Nat
  /-- How many characters precede it on its line. -/
  column : Nat
  deriving DecidableEq, Repr

/-- A settings file, or what is left of it to read. -/
abbrev Source := List Placed

/-- The characters of a text that begins at a place. -/
def place (offset line column : Nat) : Text → Source
  | [] => []
  | '\r' :: '\n' :: s => ⟨'\n', offset, line, column⟩ :: place (offset + 2) (line + 1) 0 s
  | c :: s =>
    let c := if c == '\r' || c == '\u0085' then '\n' else c
    let rest :=
      if isBreak c then place (offset + 1) (line + 1) 0 s
      else place (offset + 1) line (column + 1) s
    ⟨c, offset, line, column⟩ :: rest

/-- The characters of a file; none where one of them is not allowed. -/
def sourceOf? (s : Text) : Option Source := if s.all isAllowed then some (place 0 0 0 s) else none

/-- The characters without their places. -/
def textOf (s : Source) : Text := s.map Placed.char

/-- The longest beginning of characters that satisfy `p`, and what follows it. -/
def run (p : Char → Bool) (s : Source) : Text × Source :=
  (textOf (s.takeWhile fun x => p x.char), s.dropWhile fun x => p x.char)

theorem length_run_le (p : Char → Bool) (s : Source) : (run p s).2.length ≤ s.length :=
  (List.dropWhile_sublist _).length_le

/-- Does the source begin with a character that satisfies `p`? -/
def starts (p : Char → Bool) (s : Source) : Bool := s.head?.any fun x => p x.char

/-- Is the source at its end or at a blank? -/
def atGap (s : Source) : Bool := s.head?.all fun x => isSpace x.char

/-- Does a line begin here with `mark`, three times and apart from the rest? -/
def atMarker (mark : Char) : Source → Bool
  | a :: b :: c :: s =>
    a.column == 0 && a.char == mark && b.char == mark && c.char == mark && atGap s
  | _ => false

/-- Does a line begin here with the mark of a new document or of the end of one? -/
def atDocumentMarker (s : Source) : Bool := atMarker '-' s || atMarker '.' s

/-- What follows a line of which nothing but blanks and a comment is left. -/
def nextLine? (s : Source) : Option Source :=
  let (_, s) := run Text.isGap s
  let s := if starts (· == '#') s then (run (!isBreak ·) s).2 else s
  match s with
  | [] => some []
  | x :: s => if isBreak x.char then some s else none

end Scribe.Yaml
