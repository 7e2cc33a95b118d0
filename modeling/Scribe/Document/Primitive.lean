import Scribe.Text.Basic

set_option autoImplicit false

/-! # Editing primitives

A document is edited through single calls: a run of text, a named command, a shape, an object, a
search. `Primitive` is such a call and `TargetError` is what an editor answers when a call fails. -/

namespace Scribe

/-! ## Named commands -/

/-- A command that an editor knows by its name. -/
inductive Command where
  | breakPara
  | alignLeft
  | alignRight
  | alignCenter
  | alignJustify
  | moveDocBegin
  | moveDown
  | moveRight
  | moveToCell
  | closeEx
  | tableRightCell
  | tableLowerCell
  | tableLeftCell
  | delete
  | deleteBack
  | cancel
  deriving DecidableEq, Repr

namespace Command

/-- Every command. -/
def all : List Command :=
  [ .breakPara, .alignLeft, .alignRight, .alignCenter, .alignJustify, .moveDocBegin, .moveDown,
    .moveRight, .moveToCell, .closeEx, .tableRightCell, .tableLowerCell, .tableLeftCell, .delete,
    .deleteBack, .cancel ]

/-- The name that the editor knows a command by. -/
def name : Command → Text
  | .breakPara => "BreakPara".toList
  | .alignLeft => "ParagraphShapeAlignLeft".toList
  | .alignRight => "ParagraphShapeAlignRight".toList
  | .alignCenter => "ParagraphShapeAlignCenter".toList
  | .alignJustify => "ParagraphShapeAlignJustify".toList
  | .moveDocBegin => "MoveDocBegin".toList
  | .moveDown => "MoveDown".toList
  | .moveRight => "MoveRight".toList
  | .moveToCell => "MoveToCell".toList
  | .closeEx => "CloseEx".toList
  | .tableRightCell => "TableRightCell".toList
  | .tableLowerCell => "TableLowerCell".toList
  | .tableLeftCell => "TableLeftCell".toList
  | .delete => "Delete".toList
  | .deleteBack => "DeleteBack".toList
  | .cancel => "Cancel".toList

/-- The command of a name. -/
def ofName? (s : Text) : Option Command := all.find? fun c => c.name == s

end Command

/-! ## Shapes and objects -/

/-- The look of characters; what is not given stays as it is. -/
structure CharShape where
  faceName : Option Text := none
  sizePt : Option Float := none
  bold : Option Bool := none
  underline : Option Bool := none
  widthRatio : Option Int := none

namespace CharShape

/-- A font and its size. -/
def font (faceName : Text) (sizePt : Float) : CharShape :=
  { faceName := some faceName, sizePt := some sizePt }

/-- What `other` gives, and for the rest what was there. -/
def overlay (shape other : CharShape) : CharShape where
  faceName := other.faceName <|> shape.faceName
  sizePt := other.sizePt <|> shape.sizePt
  bold := other.bold <|> shape.bold
  underline := other.underline <|> shape.underline
  widthRatio := other.widthRatio <|> shape.widthRatio

end CharShape

/-- The spacing of a paragraph; without other values it is the tight spacing of containers and
    table cells. -/
structure ParaShape where
  lineSpacingPercent : Nat := 100
  spaceBefore : Nat := 0
  spaceAfter : Nat := 0

/-- The format of a table cell; what is not given stays as it is. -/
structure CellFormat where
  margins : Option Nat := none
  borderColor : Option Nat := none

/-- An equation object. -/
structure EquationSpec where
  text : Text
  fontName : Text
  /-- The size in hundredths of a point. -/
  baseUnit : Nat
  treatAsChar : Bool

/-- Where a search goes. -/
inductive Direction where
  | forward
  | backward
  deriving DecidableEq, Repr

/-! ## Calls -/

/-- A single call to an editor. -/
inductive Primitive where
  | insertText (text : Text)
  | run (command : Command)
  | charShape (shape : CharShape)
  | paraShape (shape : ParaShape)
  | cellFormat (format : CellFormat)
  | createTable (rows cols : Nat)
  | createEquation (spec : EquationSpec)
  | objectAnchor (treatAsChar : Bool)
  | insertFragment (path : Text)
  | findText (needle : Text) (direction : Direction)

/-- The name under which a failing call is reported. -/
def Primitive.action : Primitive → Text
  | .insertText _ => "InsertText".toList
  | .run command => command.name
  | .charShape _ => "CharShape".toList
  | .paraShape _ => "ParagraphShape".toList
  | .cellFormat _ => "CellBorderFill".toList
  | .createTable _ _ => "TableCreate".toList
  | .createEquation _ => "EquationCreate".toList
  | .objectAnchor _ => "ShapeObject".toList
  | .insertFragment _ => "InsertFile".toList
  | .findText _ _ => "RepeatFind".toList

/-! ## Errors -/

/-- Why a call to an editor failed. -/
inductive TargetError where
  /-- The session behind the editor is gone; attaching again may help. -/
  | sessionUnavailable (message : Text)
  | action (action message : Text)
  | documentNotFound (name : Text)
  deriving DecidableEq, Repr

namespace TargetError

/-- The wording of an error. -/
def message : TargetError → Text
  | .sessionUnavailable message => "document session unavailable: ".toList ++ message
  | .action call message => call ++ " failed: ".toList ++ message
  | .documentNotFound name => "document not found: ".toList ++ name

/-- The phrases by which an editor says that its session is gone. -/
def goneMarkers : List Text :=
  [ "RPC server is unavailable".toList, "RPC 서버를 사용할 수 없습니다".toList, "0x800706BA".toList,
    "-2147023174".toList ]

/-- The error of a failed call, told apart by its message. -/
def ofFailure (action message : Text) : TargetError :=
  if goneMarkers.any fun m => Text.mentions m message then .sessionUnavailable message
  else .action action message

/-- Is the session gone? -/
def isGone : TargetError → Bool
  | .sessionUnavailable _ => true
  | _ => false

/-- The error of every call after the session is gone. -/
def gone : TargetError :=
  .sessionUnavailable "The RPC server is unavailable. (0x800706BA)".toList

end TargetError

end Scribe
