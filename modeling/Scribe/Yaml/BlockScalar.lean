import Scribe.Yaml.Source

set_option autoImplicit false

/-! # Scalars on lines of their own

A scalar may fill the indented lines below its mark. Literal scalars keep their line breaks, and
folded ones join lines by spaces, except around lines that are indented further. What becomes of
the breaks at the end is said beside the mark. -/

namespace Scribe.Yaml

/-! ## Headers -/

/-- What becomes of the line breaks at the end. -/
inductive Chomping where
  /-- All of them are dropped. -/
  | strip
  /-- The first one stays. -/
  | clip
  /-- All of them stay. -/
  | keep
  deriving DecidableEq, Repr

/-- A sign for the breaks at the end. -/
def chomping? (s : Source) : Option (Chomping × Source) :=
  match s with
  | x :: s =>
    if x.char == '-' then some (.strip, s) else if x.char == '+' then some (.keep, s) else none
  | [] => none

/-- A digit that says how far the lines are indented, zero if there is none; and the rest. -/
def indentation? (s : Source) : Option (Nat × Source) :=
  match s with
  | x :: s =>
    if x.char == '0' then none
    else if x.char.isDigit then some (x.char.toNat - '0'.toNat, s)
    else some (0, x :: s)
  | [] => some (0, [])

/-- What stands beside the mark of a scalar, in either order, and the lines below. -/
def header? (s : Source) : Option (Chomping × Nat × Source) := do
  match chomping? s with
  | some (chomping, s) =>
    let (width, s) ← indentation? s
    return (chomping, width, ← nextLine? s)
  | none =>
    let (width, s) ← indentation? s
    let (chomping, s) := (chomping? s).getD (.clip, s)
    return (chomping, width, ← nextLine? s)

/-! ## Lines -/

/-- The breaks of the blank lines up to the next line that holds something, the deepest column
    reached, and that line from its content on. Spaces count as indentation up to column `indent`,
    or all of them if that is zero, and tabs do not. -/
def blankLines? (indent deepest : Nat) : Source → Option (Text × Nat × Source)
  | [] => some ([], deepest, [])
  | x :: s =>
    let inIndentation := indent == 0 || x.column < indent
    if inIndentation && x.char == ' ' then blankLines? indent (max deepest (x.column + 1)) s
    else if inIndentation && x.char == '\t' then none
    else if isBreak x.char then
      (blankLines? indent (max deepest x.column) s).map fun (breaks, rest) =>
        (x.char :: breaks, rest)
    else some ([], max deepest x.column, x :: s)

/-- A line of a scalar. -/
structure BlockLine where
  text : Text := []
  /-- Its line break; empty at the end of the file. -/
  ending : Text := []
  /-- The breaks of the blank lines below it. -/
  blanks : Text := []

/-- Is a line indented further than the scalar? -/
def BlockLine.isIndented (l : BlockLine) : Bool := l.text.head?.any Text.isGap

/-- The first lines, at most `bound` of them, that are indented to column `indent`. -/
def blockLines? (indent : Nat) : Nat → Source → Option (List BlockLine × Source)
  | 0, s => some ([], s)
  | _ + 1, [] => some ([], [])
  | bound + 1, x :: s =>
    if x.column != indent then some ([], x :: s)
    else do
      let (text, ending) := run (!isBreak ·) (x :: s)
      let (blanks, _, below) ← blankLines? indent 0 (ending.drop 1)
      let (lines, rest) ← blockLines? indent bound below
      return (⟨text, textOf (ending.take 1), blanks⟩ :: lines, rest)

/-! ## Text -/

/-- What stands between two lines of a scalar. -/
def between (folds : Bool) (above below : BlockLine) : Text :=
  if folds && above.ending == ['\n'] && !above.isIndented && !below.isIndented then
    if above.blanks.isEmpty then [' '] else above.blanks
  else above.ending ++ above.blanks

/-- What stands behind the last line of a scalar. -/
def Chomping.tail (chomping : Chomping) (last : BlockLine) : Text :=
  match chomping with
  | .strip => []
  | .clip => last.ending
  | .keep => last.ending ++ last.blanks

/-- The text of the lines below a line. -/
def joinLines (folds : Bool) (chomping : Chomping) : BlockLine → List BlockLine → Text
  | above, [] => chomping.tail above
  | above, l :: ls => between folds above l ++ l.text ++ joinLines folds chomping l ls

/-- The scalar whose mark stands before a source, inside a collection that takes `margin` columns,
    and what follows it. -/
def blockScalar? (folds : Bool) (margin : Nat) (s : Source) : Option (Text × Source) := do
  let (chomping, width, s) ← header? s
  let (blanks, deepest, s) ← blankLines? (if width = 0 then 0 else margin - 1 + width) 0 s
  let indent := if width = 0 then max 1 (max margin deepest) else margin - 1 + width
  let (lines, rest) ← blockLines? indent s.length s
  return (joinLines folds chomping { blanks } lines, rest)

end Scribe.Yaml
