import Scribe.Text.Basic

set_option autoImplicit false

/-! # The vocabulary

The closed set of operation names that a layout script may call, with the parameters of each.
Every other call is inert. -/

namespace Scribe

/-- An operation name. -/
inductive Verb where
  | insertText
  | insertEquation
  | insertLatexEquation
  | insertEnter
  | insertParagraph
  | insertSmallParagraph
  | insertSpace
  | insertBox
  | insertViewBox
  | exitBox
  | insertTemplate
  | focusPlaceholder
  | insertTable
  | setBold
  | setUnderline
  | setTableBorderWhite
  | setAlignRightNextLine
  | setAlignJustifyNextLine
  | setCharWidthRatio
  deriving DecidableEq, Repr

/-- What kind of value a parameter takes. -/
inductive ParameterKind where
  | str
  | bool
  | int
  | float
  /-- Rows of cell values. -/
  | cells
  deriving DecidableEq, Repr

/-- A parameter of an operation. -/
structure Parameter where
  /-- Its name, as written before `=`. -/
  name : Text
  /-- The kind of its values. -/
  kind : ParameterKind
  deriving DecidableEq, Repr

/-- The word for a kind in error messages. -/
def ParameterKind.name : ParameterKind → Text
  | .str => "str".toList
  | .bool => "bool".toList
  | .int => "int".toList
  | .float => "float".toList
  | .cells => "list".toList

namespace Verb

/-- Every operation name, in the order of the vocabulary. -/
def all : List Verb :=
  [ .insertText, .insertEquation, .insertLatexEquation, .insertEnter, .insertParagraph,
    .insertSmallParagraph, .insertSpace, .insertBox, .insertViewBox, .exitBox, .insertTemplate,
    .focusPlaceholder, .insertTable, .setBold, .setUnderline, .setTableBorderWhite,
    .setAlignRightNextLine, .setAlignJustifyNextLine, .setCharWidthRatio ]

/-- The name as written in scripts. -/
def name : Verb → Text
  | .insertText => "insert_text".toList
  | .insertEquation => "insert_equation".toList
  | .insertLatexEquation => "insert_latex_equation".toList
  | .insertEnter => "insert_enter".toList
  | .insertParagraph => "insert_paragraph".toList
  | .insertSmallParagraph => "insert_small_paragraph".toList
  | .insertSpace => "insert_space".toList
  | .insertBox => "insert_box".toList
  | .insertViewBox => "insert_view_box".toList
  | .exitBox => "exit_box".toList
  | .insertTemplate => "insert_template".toList
  | .focusPlaceholder => "focus_placeholder".toList
  | .insertTable => "insert_table".toList
  | .setBold => "set_bold".toList
  | .setUnderline => "set_underline".toList
  | .setTableBorderWhite => "set_table_border_white".toList
  | .setAlignRightNextLine => "set_align_right_next_line".toList
  | .setAlignJustifyNextLine => "set_align_justify_next_line".toList
  | .setCharWidthRatio => "set_char_width_ratio".toList

/-- The operation of a name, if the vocabulary has it. -/
def ofName? (s : Text) : Option Verb := all.find? fun v => v.name = s

theorem name_of_ofName? {s : Text} {v : Verb} (h : ofName? s = some v) : v.name = s := by
  simpa using List.find?_some h

/-- The overrides that both equation operations take. -/
def equationOverrides : List Parameter :=
  [ ⟨"font_size_pt".toList, .float⟩, ⟨"treat_as_char".toList, .bool⟩,
    ⟨"ensure_newline".toList, .bool⟩ ]

/-- The parameters in positional order. -/
def parameters : Verb → List Parameter
  | .insertText => [⟨"text".toList, .str⟩]
  | .insertEquation => ⟨"text".toList, .str⟩ :: equationOverrides
  | .insertLatexEquation => ⟨"latex".toList, .str⟩ :: equationOverrides
  | .insertTemplate => [⟨"name".toList, .str⟩]
  | .focusPlaceholder => [⟨"marker".toList, .str⟩]
  | .insertTable =>
    [ ⟨"rows".toList, .int⟩, ⟨"cols".toList, .int⟩, ⟨"cell_data".toList, .cells⟩,
      ⟨"align_center".toList, .bool⟩, ⟨"exit_after".toList, .bool⟩ ]
  | .setBold | .setUnderline => [⟨"enabled".toList, .bool⟩]
  | .setCharWidthRatio => [⟨"percent".toList, .int⟩]
  | .insertEnter | .insertParagraph | .insertSmallParagraph | .insertSpace | .insertBox
  | .insertViewBox | .exitBox | .setTableBorderWhite | .setAlignRightNextLine
  | .setAlignJustifyNextLine => []

/-- Is the first argument of the operation a string literal? -/
def takesText : Verb → Bool
  | .insertText | .insertEquation | .insertLatexEquation | .insertTemplate
  | .focusPlaceholder => true
  | _ => false

end Verb

end Scribe
