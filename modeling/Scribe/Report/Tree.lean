import Scribe.Decimal.Layout

set_option autoImplicit false

/-! # Report trees

What a run reports to other programs is a tree of values, written as JSON: on one line, or over
several lines with two blanks for each level. The members of an object are written in the order of
their names. -/

namespace Scribe

/-- A value of a report. -/
inductive Report where
  | null
  | bool (value : Bool)
  | int (value : Int)
  | decimal (value : Float)
  | string (value : Text)
  | list (items : List Report)
  | object (members : List (Text × Report))

namespace Report

/-! ## Scalars -/

/-- A character between the quotes of a string. -/
def quotedChar (c : Char) : Text :=
  match c with
  | '"' => ['\\', '"']
  | '\\' => ['\\', '\\']
  | '\n' => ['\\', 'n']
  | '\r' => ['\\', 'r']
  | '\t' => ['\\', 't']
  | '\x08' => ['\\', 'b']
  | '\x0c' => ['\\', 'f']
  | _ =>
    if c.toNat < 32 then
      "\\u00".toList ++ [Nat.digitChar (c.toNat / 16), Nat.digitChar (c.toNat % 16)]
    else [c]

/-- A string. -/
def quoted (s : Text) : Text := '"' :: s.flatMap quotedChar ++ ['"']

/-- A decimal; there is no way to write one that is not finite. -/
def decimalText (x : Float) : Text := (Decimal.Layout.report.finiteText? x).getD "null".toList

/-- Members in the order of their names. -/
def sorted {α : Type} (members : List (Text × α)) : List (Text × α) :=
  members.mergeSort fun a b => !decide (b.1 < a.1)

/-! ## Layouts -/

/-- Pieces with a separator between them. -/
def separated (separator : Text) (pieces : List Text) : Text := List.intercalate separator pieces

mutual

/-- The tree on one line. -/
def compact : Report → Text
  | .null => "null".toList
  | .bool true => "true".toList
  | .bool false => "false".toList
  | .int n => Decimal.intText n
  | .decimal x => decimalText x
  | .string s => quoted s
  | .list items => '[' :: separated [','] (compactItems items) ++ [']']
  | .object members =>
    '\x7b' :: separated [','] ((sorted (compactMembers members)).map fun (name, value) =>
      quoted name ++ ':' :: value) ++ ['\x7d']

/-- The items of a list, each on one line. -/
def compactItems : List Report → List Text
  | [] => []
  | item :: items => compact item :: compactItems items

/-- The members of an object, each on one line. -/
def compactMembers : List (Text × Report) → List (Text × Text)
  | [] => []
  | (name, value) :: members => (name, compact value) :: compactMembers members

end

/-- The beginning of a line at a level. -/
def newLine (level : Nat) : Text := '\n' :: List.replicate (2 * level) ' '

/-- Pieces between brackets, each on a line of its own. -/
def bracketed (opening closing : Char) (level : Nat) (pieces : List Text) : Text :=
  if pieces.isEmpty then [opening, closing]
  else
    opening :: separated [','] (pieces.map (newLine (level + 1) ++ ·)) ++ newLine level ++ [closing]

mutual

/-- The tree over several lines, at a level. -/
def pretty (level : Nat) : Report → Text
  | .list items => bracketed '[' ']' level (prettyItems (level + 1) items)
  | .object members =>
    bracketed '\x7b' '\x7d' level
      ((sorted (prettyMembers (level + 1) members)).map fun (name, value) =>
        quoted name ++ ':' :: ' ' :: value)
  | .null => "null".toList
  | .bool true => "true".toList
  | .bool false => "false".toList
  | .int n => Decimal.intText n
  | .decimal x => decimalText x
  | .string s => quoted s

/-- The items of a list over several lines. -/
def prettyItems (level : Nat) : List Report → List Text
  | [] => []
  | item :: items => pretty level item :: prettyItems level items

/-- The members of an object over several lines. -/
def prettyMembers (level : Nat) : List (Text × Report) → List (Text × Text)
  | [] => []
  | (name, value) :: members => (name, pretty level value) :: prettyMembers level members

end

/-! ## Building -/

/-- An object of the members that are present. -/
def ofPresent (members : List (Text × Option Report)) : Report :=
  .object (members.filterMap fun (name, value) => value.map fun v => (name, v))

/-- A natural number. -/
def nat (n : Nat) : Report := .int n

end Report

end Scribe
