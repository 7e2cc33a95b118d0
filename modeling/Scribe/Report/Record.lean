import Scribe.Document.Primitive
import Scribe.Script.Plan
import Scribe.Text.Path
import Scribe.Text.Quoted

set_option autoImplicit false

/-! # Operations and calls for readers

People are shown operations and calls as records: a name with its fields between braces, an option
as `Some` of something or `None`, and texts between double quotes. -/

namespace Scribe

/-- A value as readers see it. -/
inductive Record where
  /-- A name, a number or a truth value. -/
  | word (text : Text)
  | quoted (text : Text)
  | list (items : List Record)
  | wrapped (name : Text) (content : Record)
  | fields (name : Text) (members : List (Text × Record))

namespace Record

mutual

/-- How a record is shown. -/
def render : Record → Text
  | .word s => s
  | .quoted s => Text.quoted s
  | .list items => '[' :: List.intercalate ", ".toList (renderItems items) ++ [']']
  | .wrapped name content => name ++ '(' :: render content ++ [')']
  | .fields name members =>
    name ++ " \x7b ".toList ++ List.intercalate ", ".toList (renderFields members)
      ++ " \x7d".toList

/-- How the items of a list are shown. -/
def renderItems : List Record → List Text
  | [] => []
  | item :: items => render item :: renderItems items

/-- How the fields of a record are shown. -/
def renderFields : List (Text × Record) → List Text
  | [] => []
  | (name, value) :: members => (name ++ ": ".toList ++ render value) :: renderFields members

end

/-! ## Building -/

/-- A name that stands for itself. -/
def name (s : String) : Record := .word s.toList

/-- A record with fields. -/
def record (name : String) (members : List (String × Record)) : Record :=
  .fields name.toList (members.map fun (field, value) => (field.toList, value))

/-- A truth value. -/
def bool (b : Bool) : Record := if b then name "true" else name "false"

/-- An integer. -/
def int (n : Int) : Record := .word (Decimal.intText n)

/-- A natural number. -/
def nat (n : Nat) : Record := .word (Decimal.natText n)

/-- A decimal. -/
def decimal (x : Float) : Record := .word (Decimal.Layout.script.text x)

/-- Something that may be absent. -/
def option {α : Type} (f : α → Record) : Option α → Record
  | some a => .wrapped "Some".toList (f a)
  | none => name "None"

/-! ## Operations -/

/-- Overrides of an equation's look. -/
def ofStyle (s : EquationStyle) : Record :=
  record "EquationStyle"
    [ ("font_size_pt", option decimal s.fontSizePt), ("treat_as_char", option bool s.treatAsChar),
      ("ensure_newline", option bool s.ensureNewline) ]

/-- A zone. -/
def ofZone : Zone → Record
  | .before => name "Before"
  | .inside => name "Inside"
  | .after => name "After"

/-- A template. -/
def ofTemplate : Template → Record
  | .header => name "Header"
  | .box => name "Box"
  | .boxWhite => name "BoxWhite"

/-- A placeholder. -/
def ofPlaceholder : Placeholder → Record
  | .zone z => .wrapped "Zone".toList (ofZone z)
  | .custom marker => .wrapped "Custom".toList (.quoted marker)

/-- A table to insert. -/
def ofTable (t : TableSpec) : Record :=
  record "TableSpec"
    [ ("rows", int t.rows), ("cols", int t.cols),
      ("cells", .list (t.cells.map fun row => .list (row.map .quoted))),
      ("align_center", bool t.alignCenter), ("exit_after", bool t.exitAfter) ]

/-- An operation. -/
def ofOperation : Operation → Record
  | .insertText text => record "InsertText" [("text", .quoted text)]
  | .insertEquation text style =>
    record "InsertEquation" [("text", .quoted text), ("style", ofStyle style)]
  | .insertLatexEquation latex style =>
    record "InsertLatexEquation" [("latex", .quoted latex), ("style", ofStyle style)]
  | .breakLine => name "BreakLine"
  | .insertParagraph => name "InsertParagraph"
  | .insertSmallParagraph => name "InsertSmallParagraph"
  | .insertSpace => name "InsertSpace"
  | .openContainer => name "OpenContainer"
  | .openFramedContainer => name "OpenFramedContainer"
  | .closeContainer => name "CloseContainer"
  | .insertTemplate t => record "InsertTemplate" [("template", ofTemplate t)]
  | .focusPlaceholder p => record "FocusPlaceholder" [("placeholder", ofPlaceholder p)]
  | .insertTable t => .wrapped "InsertTable".toList (ofTable t)
  | .setBold enabled => record "SetBold" [("enabled", bool enabled)]
  | .setUnderline enabled => record "SetUnderline" [("enabled", option bool enabled)]
  | .setBorderInvisible => name "SetBorderInvisible"
  | .alignRightNextLine => name "AlignRightNextLine"
  | .alignJustifyNextLine => name "AlignJustifyNextLine"
  | .setCharWidthRatio percent => record "SetCharWidthRatio" [("percent", int percent)]

/-- A tier. -/
def ofTier : Tier → Record
  | .primary => name "Primary"
  | .fallback => name "Fallback"

/-! ## Calls -/

/-- A look of characters. -/
def ofCharShape (s : CharShape) : Record :=
  record "CharShape"
    [ ("face_name", option .quoted s.faceName), ("size_pt", option decimal s.sizePt),
      ("bold", option bool s.bold), ("underline", option bool s.underline),
      ("width_ratio", option int s.widthRatio) ]

/-- A spacing of paragraphs. -/
def ofParaShape (s : ParaShape) : Record :=
  record "ParaShape"
    [ ("line_spacing_percent", nat s.lineSpacingPercent), ("space_before", nat s.spaceBefore),
      ("space_after", nat s.spaceAfter) ]

/-- A format of cells. -/
def ofCellFormat (f : CellFormat) : Record :=
  record "CellFormat"
    [("margins", option nat f.margins), ("border_color", option nat f.borderColor)]

/-- An equation object. -/
def ofEquationSpec (s : EquationSpec) : Record :=
  record "EquationSpec"
    [ ("text", .quoted s.text), ("font_name", .quoted s.fontName), ("base_unit", nat s.baseUnit),
      ("treat_as_char", bool s.treatAsChar) ]

/-- A direction. -/
def ofDirection : Direction → Record
  | .forward => name "Forward"
  | .backward => name "Backward"

/-- A call. -/
def ofPrimitive : Primitive → Record
  | .insertText text => record "InsertText" [("text", .quoted text)]
  | .run command => record "Run" [("command", .word command.name)]
  | .charShape shape => record "CharShape" [("shape", ofCharShape shape)]
  | .paraShape shape => record "ParaShape" [("shape", ofParaShape shape)]
  | .cellFormat format => record "CellFormat" [("format", ofCellFormat format)]
  | .createTable rows cols => record "CreateTable" [("rows", nat rows), ("cols", nat cols)]
  | .createEquation spec => record "CreateEquation" [("spec", ofEquationSpec spec)]
  | .objectAnchor treatAsChar => record "ObjectAnchor" [("treat_as_char", bool treatAsChar)]
  | .insertFragment path => record "InsertFragment" [("name", .quoted (Path.fileName path))]
  | .findText needle direction =>
    record "FindText" [("needle", .quoted needle), ("direction", ofDirection direction)]

end Record

end Scribe
