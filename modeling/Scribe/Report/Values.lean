import Scribe.Document.Primitive
import Scribe.Report.Tree
import Scribe.Session
import Scribe.Text.Path

set_option autoImplicit false

/-! # Operations and calls in reports

How operations, calls and the outcome of a run are reported. -/

namespace Scribe

/-- The name of a zone in reports. -/
def Zone.reportName : Zone → Text
  | .before => "before".toList
  | .inside => "inside".toList
  | .after => "after".toList

/-- The name of a template in reports. -/
def Template.reportName : Template → Text
  | .header => "header".toList
  | .box => "box".toList
  | .boxWhite => "box_white".toList

/-- The name of a tier in reports. -/
def Tier.reportName : Tier → Text
  | .primary => "primary".toList
  | .fallback => "fallback".toList

/-- The name of a direction in reports. -/
def Direction.reportName : Direction → Text
  | .forward => "forward".toList
  | .backward => "backward".toList

namespace Report

/-! ## Operations -/

/-- A kind with members. -/
def tagged (tag : String) (kind : String) (members : List (Text × Report)) : Report :=
  .object ((tag.toList, .string kind.toList) :: members)

/-- Overrides of an equation's look. -/
def ofStyle (s : EquationStyle) : Report :=
  ofPresent
    [ ("font_size_pt".toList, s.fontSizePt.map .decimal),
      ("treat_as_char".toList, s.treatAsChar.map .bool),
      ("ensure_newline".toList, s.ensureNewline.map .bool) ]

/-- A placeholder: a zone or a marker. -/
def ofPlaceholder : Placeholder → Report
  | .zone z => .object [("zone".toList, .string z.reportName)]
  | .custom marker => .object [("custom".toList, .string marker)]

/-- An operation. -/
def ofOperation (op : Operation) : Report :=
  let operation (kind : String) (members : List (Text × Report)) : Report :=
    tagged "op" kind members
  match op with
  | .insertText text => operation "insert_text" [("text".toList, .string text)]
  | .insertEquation text style =>
    operation "insert_equation" [("text".toList, .string text), ("style".toList, ofStyle style)]
  | .insertLatexEquation latex style =>
    operation "insert_latex_equation"
      [("latex".toList, .string latex), ("style".toList, ofStyle style)]
  | .breakLine => operation "break_line" []
  | .insertParagraph => operation "insert_paragraph" []
  | .insertSmallParagraph => operation "insert_small_paragraph" []
  | .insertSpace => operation "insert_space" []
  | .openContainer => operation "open_container" []
  | .openFramedContainer => operation "open_framed_container" []
  | .closeContainer => operation "close_container" []
  | .insertTemplate t => operation "insert_template" [("template".toList, .string t.reportName)]
  | .focusPlaceholder p => operation "focus_placeholder" [("placeholder".toList, ofPlaceholder p)]
  | .insertTable t =>
    operation "insert_table"
      [ ("rows".toList, .int t.rows), ("cols".toList, .int t.cols),
        ("cells".toList, .list (t.cells.map fun row => .list (row.map .string))),
        ("align_center".toList, .bool t.alignCenter), ("exit_after".toList, .bool t.exitAfter) ]
  | .setBold enabled => operation "set_bold" [("enabled".toList, .bool enabled)]
  | .setUnderline enabled =>
    operation "set_underline" [("enabled".toList, (enabled.map .bool).getD .null)]
  | .setBorderInvisible => operation "set_border_invisible" []
  | .alignRightNextLine => operation "align_right_next_line" []
  | .alignJustifyNextLine => operation "align_justify_next_line" []
  | .setCharWidthRatio percent =>
    operation "set_char_width_ratio" [("percent".toList, .int percent)]

/-- A step: an operation, or the name that was called with the error in its arguments. -/
def ofStep : Step → Report
  | .ok op => ofOperation op
  | .error e =>
    .object [("op".toList, .string e.verb.name), ("error".toList, .string e.message)]

/-- A plan. -/
def ofPlan (p : Plan) : Report :=
  .object
    [("tier".toList, .string p.tier.reportName), ("steps".toList, .list (p.steps.map ofStep))]

/-! ## Calls -/

/-- A look of characters. -/
def ofCharShape (s : CharShape) : Report :=
  ofPresent
    [ ("face_name".toList, s.faceName.map .string), ("size_pt".toList, s.sizePt.map .decimal),
      ("bold".toList, s.bold.map .bool), ("underline".toList, s.underline.map .bool),
      ("width_ratio".toList, s.widthRatio.map .int) ]

/-- A spacing of paragraphs. -/
def ofParaShape (s : ParaShape) : Report :=
  .object
    [ ("line_spacing_percent".toList, nat s.lineSpacingPercent),
      ("space_before".toList, nat s.spaceBefore), ("space_after".toList, nat s.spaceAfter) ]

/-- A format of cells. -/
def ofCellFormat (f : CellFormat) : Report :=
  ofPresent
    [("margins".toList, f.margins.map nat), ("border_color".toList, f.borderColor.map nat)]

/-- An equation object. -/
def ofEquationSpec (s : EquationSpec) : Report :=
  .object
    [ ("text".toList, .string s.text), ("font_name".toList, .string s.fontName),
      ("base_unit".toList, nat s.baseUnit), ("treat_as_char".toList, .bool s.treatAsChar) ]

/-- A call. -/
def ofPrimitive (p : Primitive) : Report :=
  let primitive (kind : String) (members : List (Text × Report)) : Report :=
    tagged "primitive" kind members
  match p with
  | .insertText text => primitive "insert_text" [("text".toList, .string text)]
  | .run command => primitive "run" [("command".toList, .string command.name)]
  | .charShape shape => primitive "char_shape" [("shape".toList, ofCharShape shape)]
  | .paraShape shape => primitive "para_shape" [("shape".toList, ofParaShape shape)]
  | .cellFormat format => primitive "cell_format" [("format".toList, ofCellFormat format)]
  | .createTable rows cols =>
    primitive "create_table" [("rows".toList, nat rows), ("cols".toList, nat cols)]
  | .createEquation spec => primitive "create_equation" [("spec".toList, ofEquationSpec spec)]
  | .objectAnchor treatAsChar =>
    primitive "object_anchor" [("treat_as_char".toList, .bool treatAsChar)]
  | .insertFragment path =>
    primitive "insert_fragment" [("name".toList, .string (Path.fileName path))]
  | .findText needle direction =>
    primitive "find_text"
      [("needle".toList, .string needle), ("direction".toList, .string direction.reportName)]

/-! ## Runs -/

/-- What a finished run reports. -/
def ofRun (r : RunReport) : Report :=
  .object
    [ ("tier".toList, .string r.tier.reportName), ("applied".toList, nat r.applied),
      ("reattached".toList, .bool r.reattached), ("normalized".toList, .string r.normalized) ]

/-- An error by its wording. -/
def ofError (message : Text) : Report := .object [("error".toList, .string message)]

end Report

end Scribe
