import Scribe.Text.Quoted
import Scribe.Script.Marker
import Scribe.Script.Value

set_option autoImplicit false

/-! # Operations and argument binding

A call with literal arguments becomes a typed operation. Binding puts positional and keyword
arguments into the parameter slots of the operation, and coercion reads each slot as the type its
parameter has. Both readers of scripts go through here, so they agree on what arguments mean. -/

namespace Scribe

/-! ## Operations -/

/-- A call of the vocabulary with its literal arguments. -/
structure Invocation where
  verb : Verb
  args : List Value := []
  kwargs : List (Text × Value) := []

/-- Overrides of the configured look of one equation. -/
structure EquationStyle where
  fontSizePt : Option Float := none
  treatAsChar : Option Bool := none
  ensureNewline : Option Bool := none

/-- A table to insert. -/
structure TableSpec where
  rows : Int
  cols : Int
  /-- Cell values by row; a value that begins with `EQ:` is an equation. -/
  cells : List (List Text)
  alignCenter : Bool
  /-- Does typing go on below the table? -/
  exitAfter : Bool

/-- A typed operation, ready to be carried out. -/
inductive Operation where
  | insertText (text : Text)
  | insertEquation (text : Text) (style : EquationStyle)
  | insertLatexEquation (latex : Text) (style : EquationStyle)
  | breakLine
  | insertParagraph
  | insertSmallParagraph
  | insertSpace
  | openContainer
  | openFramedContainer
  | closeContainer
  | insertTemplate (template : Template)
  | focusPlaceholder (placeholder : Placeholder)
  | insertTable (spec : TableSpec)
  | setBold (enabled : Bool)
  /-- Sets underlining, or toggles it when nothing is given. -/
  | setUnderline (enabled : Option Bool)
  | setBorderInvisible
  | alignRightNextLine
  | alignJustifyNextLine
  | setCharWidthRatio (percent : Int)

/-- The name that calls an operation. -/
def Operation.verb : Operation → Verb
  | .insertText _ => .insertText
  | .insertEquation _ _ => .insertEquation
  | .insertLatexEquation _ _ => .insertLatexEquation
  | .breakLine => .insertEnter
  | .insertParagraph => .insertParagraph
  | .insertSmallParagraph => .insertSmallParagraph
  | .insertSpace => .insertSpace
  | .openContainer => .insertBox
  | .openFramedContainer => .insertViewBox
  | .closeContainer => .exitBox
  | .insertTemplate _ => .insertTemplate
  | .focusPlaceholder _ => .focusPlaceholder
  | .insertTable _ => .insertTable
  | .setBold _ => .setBold
  | .setUnderline _ => .setUnderline
  | .setBorderInvisible => .setTableBorderWhite
  | .alignRightNextLine => .setAlignRightNextLine
  | .alignJustifyNextLine => .setAlignJustifyNextLine
  | .setCharWidthRatio _ => .setCharWidthRatio

/-! ## Argument errors -/

/-- Why arguments do not fit an operation. -/
inductive ArgumentFault where
  | tooMany (most given : Nat)
  | unknownKeyword (keyword : Text)
  | duplicate (parameter : Text)
  | missing (parameter : Text)
  /-- The value found is described by its type or by its text. -/
  | wrongType (parameter expected found : Text)
  | unknownTemplate (name : Text)
  | mixedCells
  | nestedCell
  deriving DecidableEq, Repr

/-- Arguments that do not fit, with the operation they were given to. -/
structure ArgumentError where
  verb : Verb
  fault : ArgumentFault
  deriving DecidableEq, Repr

/-- The wording of an argument error. -/
def ArgumentError.message (e : ArgumentError) : Text :=
  e.verb.name ++ match e.fault with
    | .tooMany most given =>
      "() takes at most ".toList ++ Decimal.natText most ++ " argument(s) but ".toList
        ++ Decimal.natText given ++ " were given".toList
    | .unknownKeyword keyword =>
      "() got an unexpected keyword argument '".toList ++ keyword ++ ['\'']
    | .duplicate parameter =>
      "() got multiple values for argument '".toList ++ parameter ++ ['\'']
    | .missing parameter => "() missing required argument '".toList ++ parameter ++ ['\'']
    | .wrongType parameter expected found =>
      "(): argument '".toList ++ parameter ++ "' expected ".toList ++ expected ++ ", got ".toList
        ++ found
    | .unknownTemplate name => "(): unknown template '".toList ++ name ++ ['\'']
    | .mixedCells => "(): cell_data mixes rows and single values".toList
    | .nestedCell => "(): cell values must be scalars".toList

/-! ## Slots -/

/-- The parameter slots of an operation, in positional order, and what they were given. -/
structure Slots where
  verb : Verb
  values : List (Option Value)

namespace Slots

/-- Puts a keyword argument into its slot. -/
def setKeyword (slots : Slots) (keyword : Text) (value : Value) : Except ArgumentError Slots :=
  match slots.verb.parameters.findIdx? fun p => p.name = keyword with
  | none => .error ⟨slots.verb, .unknownKeyword keyword⟩
  | some i =>
    match slots.values[i]? with
    | some (some _) => .error ⟨slots.verb, .duplicate keyword⟩
    | _ => .ok { slots with values := slots.values.set i (some value) }

/-- Puts positional arguments into the first slots and keyword arguments into theirs. -/
def ofInvocation (inv : Invocation) : Except ArgumentError Slots :=
  let most := inv.verb.parameters.length
  if most < inv.args.length then .error ⟨inv.verb, .tooMany most inv.args.length⟩
  else
    let values := inv.args.map some ++ List.replicate (most - inv.args.length) none
    inv.kwargs.foldlM (fun slots (keyword, value) => slots.setKeyword keyword value)
      ⟨inv.verb, values⟩

/-- What a slot was given. -/
def given? (slots : Slots) (i : Nat) : Option Value := slots.values[i]?.join

/-- What a slot was given, where the absent value counts as nothing. -/
def present? (slots : Slots) (i : Nat) : Option Value :=
  (slots.given? i).filter fun v => !v.isNone

/-- The name of a parameter. -/
def parameterName (slots : Slots) (i : Nat) : Text :=
  match slots.verb.parameters[i]? with
  | some p => p.name
  | none => ['?']

/-- A slot holds a value of another type than its parameter has. -/
def wrongType (slots : Slots) (i : Nat) (expected : ParameterKind) (found : Value) :
    ArgumentError :=
  ⟨slots.verb, .wrongType (slots.parameterName i) expected.name found.typeName⟩

/-- A slot that must be given is empty. -/
def missing (slots : Slots) (i : Nat) : ArgumentError :=
  ⟨slots.verb, .missing (slots.parameterName i)⟩

/-- Reads a required string. -/
def string (slots : Slots) (i : Nat) : Except ArgumentError Text :=
  match slots.given? i with
  | some (.str s) => .ok s
  | some other => .error (slots.wrongType i .str other)
  | none => .error (slots.missing i)

/-- Reads an optional truth value; integers count as true unless they are zero. -/
def bool? (slots : Slots) (i : Nat) : Except ArgumentError (Option Bool) :=
  match slots.present? i with
  | none => .ok none
  | some (.bool b) => .ok (some b)
  | some (.int n) => .ok (some (n != 0))
  | some other => .error (slots.wrongType i .bool other)

/-- Reads an optional integer; finite decimals are cut toward zero and limited to 64 bits. -/
def int? (slots : Slots) (i : Nat) : Except ArgumentError (Option Int) :=
  match slots.present? i with
  | none => .ok none
  | some (.int n) => .ok (some n.toInt)
  | some (.float x) =>
    if x.isFinite then .ok (some x.toInt64.toInt) else .error (slots.wrongType i .int (.float x))
  | some other => .error (slots.wrongType i .int other)

/-- Reads a required integer. -/
def int (slots : Slots) (i : Nat) : Except ArgumentError Int := do
  match ← slots.int? i with
  | some n => .ok n
  | none => .error (slots.missing i)

/-- Reads an optional decimal. -/
def float? (slots : Slots) (i : Nat) : Except ArgumentError (Option Float) :=
  match slots.present? i with
  | none => .ok none
  | some (.int n) => .ok (some n.toFloat)
  | some (.float x) => .ok (some x)
  | some other => .error (slots.wrongType i .float other)

/-- Reads the overrides of an equation operation. -/
def equationStyle (slots : Slots) : Except ArgumentError EquationStyle := do
  let fontSizePt ← slots.float? 1
  let treatAsChar ← slots.bool? 2
  let ensureNewline ← slots.bool? 3
  return { fontSizePt, treatAsChar, ensureNewline }

end Slots

/-! ## Cell data -/

/-- The text of one table cell. -/
def cellText (verb : Verb) : Value → Except ArgumentError Text
  | .str s => .ok s
  | .none => .ok []
  | .list _ => .error ⟨verb, .nestedCell⟩
  | scalar => .ok scalar.text

/-- The list cut into pieces of `width`, the last of which may be shorter. -/
def chunks {α : Type} (width : Nat) (xs : List α) : List (List α) :=
  match xs with
  | [] => []
  | x :: rest =>
    (x :: rest.take (width - 1)) :: chunks width (rest.drop (width - 1))
termination_by xs.length
decreasing_by simp only [List.length_drop, List.length_cons]; omega

/-- The rows of a table: either a list of rows, or single values that fill rows of `cols`. -/
def tableCells (verb : Verb) (cols : Int) : Value → Except ArgumentError (List (List Text))
  | .list items =>
    if items.all fun v => !v.isList then do
      return chunks (max cols.toNat 1) (← items.mapM (cellText verb))
    else if items.all Value.isList then
      items.mapM fun row =>
        match row with
        | .list cells => cells.mapM (cellText verb)
        | _ => .ok []
    else .error ⟨verb, .mixedCells⟩
  | other =>
    .error ⟨verb, .wrongType "cell_data".toList ParameterKind.cells.name other.typeName⟩

/-! ## Binding -/

/-- The operation that a call means. -/
def Operation.ofInvocation (inv : Invocation) : Except ArgumentError Operation := do
  let slots ← Slots.ofInvocation inv
  match inv.verb with
  | .insertText => return .insertText (← slots.string 0)
  | .insertEquation => return .insertEquation (← slots.string 0) (← slots.equationStyle)
  | .insertLatexEquation => return .insertLatexEquation (← slots.string 0) (← slots.equationStyle)
  | .insertEnter => return .breakLine
  | .insertParagraph => return .insertParagraph
  | .insertSmallParagraph => return .insertSmallParagraph
  | .insertSpace => return .insertSpace
  | .insertBox => return .openContainer
  | .insertViewBox => return .openFramedContainer
  | .exitBox => return .closeContainer
  | .insertTemplate =>
    let name ← slots.string 0
    match Template.ofName? name with
    | some template => return .insertTemplate template
    | none => throw ⟨inv.verb, .unknownTemplate name⟩
  | .focusPlaceholder => return .focusPlaceholder (Placeholder.ofMarker (← slots.string 0))
  | .insertTable =>
    let rows ← slots.int 0
    let cols ← slots.int 1
    let cells ← match slots.present? 2 with
      | some value => tableCells inv.verb cols value
      | none => pure []
    let alignCenter := (← slots.bool? 3).getD false
    let exitAfter := (← slots.bool? 4).getD true
    return .insertTable { rows, cols, cells, alignCenter, exitAfter }
  | .setBold => return .setBold ((← slots.bool? 0).getD true)
  | .setUnderline => return .setUnderline (← slots.bool? 0)
  | .setTableBorderWhite => return .setBorderInvisible
  | .setAlignRightNextLine => return .alignRightNextLine
  | .setAlignJustifyNextLine => return .alignJustifyNextLine
  | .setCharWidthRatio => return .setCharWidthRatio ((← slots.int? 0).getD 100)

end Scribe
