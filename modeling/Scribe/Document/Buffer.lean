import Scribe.Document.Primitive

set_option autoImplicit false

/-! # Document buffers

The contents of a document are one run of elements: characters, equation objects, and the
delimiters of tables. Tables nest; the cells of a table follow each other row by row, with a break
between each two. The cursor stands between two elements, and a selection is a span of them. -/

namespace Scribe

/-! ## Elements -/

/-- One element of a document. -/
inductive Element where
  | char (c : Char)
  | equation (text : Text)
  | tableOpen (cols : Nat)
  | cellBreak
  | tableClose
  deriving DecidableEq, Repr

namespace Element

/-- How an element is shown. -/
def render : Element → Text
  | .char c => [c]
  | .equation text => '$' :: text ++ ['$']
  | .tableOpen _ => ['[']
  | .cellBreak => ['|']
  | .tableClose => [']']

/-- Does an element open a table? -/
def isOpen : Element → Bool
  | .tableOpen _ => true
  | _ => false

/-- Is an element an equation? -/
def isEquation : Element → Bool
  | .equation _ => true
  | _ => false

/-- The elements that a markup text stands for: its brackets and bars delimit tables of one
    column. -/
def ofMarkup (markup : Text) : List Element :=
  markup.map fun
    | '[' => .tableOpen 1
    | '|' => .cellBreak
    | ']' => .tableClose
    | c => .char c

/-- How a run of elements is shown. -/
def renderAll (elements : List Element) : Text := elements.flatMap render

/-! ## Table structure -/

/-- The offset of the delimiter that closes the current table, `depth` tables further out. -/
def closeOffset? : Nat → List Element → Option Nat
  | _, [] => none
  | depth, .tableOpen _ :: es => (closeOffset? (depth + 1) es).map (· + 1)
  | 0, .tableClose :: _ => some 0
  | depth + 1, .tableClose :: es => (closeOffset? depth es).map (· + 1)
  | depth, _ :: es => (closeOffset? depth es).map (· + 1)

/-- The places behind the breaks between the cells of the current table, `depth` tables further
    out, where the first element stands at `place`. -/
def breakPlaces (place : Nat) : Nat → List Element → List Nat
  | _, [] => []
  | depth, .tableOpen _ :: es => breakPlaces (place + 1) (depth + 1) es
  | 0, .tableClose :: _ => []
  | depth + 1, .tableClose :: es => breakPlaces (place + 1) depth es
  | 0, .cellBreak :: es => (place + 1) :: breakPlaces (place + 1) 0 es
  | depth, _ :: es => breakPlaces (place + 1) depth es

/-- How far back in a reversed run the delimiter stands that opens the current table, `depth` tables
    further out. -/
def openOffset? : Nat → List Element → Option Nat
  | _, [] => none
  | depth, .tableClose :: es => (openOffset? (depth + 1) es).map (· + 1)
  | 0, .tableOpen _ :: _ => some 0
  | depth + 1, .tableOpen _ :: es => (openOffset? depth es).map (· + 1)
  | depth, _ :: es => (openOffset? depth es).map (· + 1)

/-- The offset of the next line of the current cell, `depth` tables further out, or else of the end
    of the cell. -/
def lineOffset : Nat → List Element → Nat
  | _, [] => 0
  | depth, .tableOpen _ :: es => lineOffset (depth + 1) es + 1
  | 0, .tableClose :: _ => 0
  | depth + 1, .tableClose :: es => lineOffset depth es + 1
  | 0, .cellBreak :: _ => 0
  | 0, .char '\n' :: _ => 1
  | depth, _ :: es => lineOffset depth es + 1

/-! ## Searching -/

/-- Do the first elements spell a text? -/
def spells : Text → List Element → Bool
  | [], _ => true
  | c :: needle, .char d :: es => c == d && spells needle es
  | _ :: _, _ => false

/-- The first place at which the elements spell a text. -/
def firstSpelling? (needle : Text) : List Element → Option Nat
  | [] => none
  | e :: es =>
    if spells needle (e :: es) then some 0 else (firstSpelling? needle es).map (· + 1)

/-- The last of the first `count` places at which the elements spell a text. -/
def lastSpelling? (needle : Text) (count : Nat) (es : List Element) : Option Nat :=
  (List.range count).reverse.find? fun i => spells needle (es.drop i)

end Element

/-! ## Buffers -/

/-- The contents of a document with the cursor and the selection. -/
structure Buffer where
  elements : List Element := []
  cursor : Nat := 0
  selection : Option (Nat × Nat) := none
  deriving DecidableEq, Repr

namespace Buffer

/-- How the contents are shown. -/
def text (b : Buffer) : Text := Element.renderAll b.elements

/-- The selected elements. -/
def selected? (b : Buffer) : Option (List Element) :=
  b.selection.map fun (start, stop) => (b.elements.take stop).drop start

/-! ## Editing -/

/-- The contents without the span from `start` to `stop`; the cursor stands where it was. -/
def cut (b : Buffer) (start stop : Nat) : Buffer :=
  { elements := b.elements.take start ++ b.elements.drop stop, cursor := start }

/-- The contents without the selection. -/
def deleteSelection (b : Buffer) : Buffer :=
  match b.selection with
  | some (start, stop) => b.cut start stop
  | none => b

/-- The elements put in at a place, where they replace nothing. -/
def insertAt (b : Buffer) (place : Nat) (es : List Element) : Buffer :=
  { b with elements := b.elements.take place ++ es ++ b.elements.drop place }

/-- The selection replaced by elements, with the cursor behind them. -/
def insert (b : Buffer) (es : List Element) : Buffer :=
  let b := b.deleteSelection
  { b.insertAt b.cursor es with cursor := b.cursor + es.length }

/-- The selection deleted, or else one element from `start`; false when there is none. -/
def deleteFrom (b : Buffer) (start : Option Nat) : Bool × Buffer :=
  match b.selection, start with
  | some _, _ => (true, b.deleteSelection)
  | none, some start =>
    if start < b.elements.length then (true, b.cut start (start + 1)) else (false, b)
  | none, none => (false, b)

/-- The buffer without a selection and with the cursor at another place. -/
def goTo (b : Buffer) (place : Nat) : Buffer := { b with cursor := place, selection := none }

/-! ## Tables -/

/-- The place of the delimiter that opens the table around the cursor. -/
def enclosingOpen? (b : Buffer) : Option Nat :=
  (Element.openOffset? 0 (b.elements.take b.cursor).reverse).map
    fun back => (b.elements.take b.cursor).length - 1 - back

/-- The place of the delimiter that closes the table opened at `start`. -/
def close? (b : Buffer) (start : Nat) : Option Nat :=
  (Element.closeOffset? 0 (b.elements.drop (start + 1))).map (start + 1 + ·)

/-- The places at which the cells of the table opened at `start` begin. -/
def cellStarts (b : Buffer) (start : Nat) : List Nat :=
  (start + 1) :: Element.breakPlaces (start + 1) 0 (b.elements.drop (start + 1))

/-- Moves the cursor from the cell it is in to another one of the same table. -/
def moveCells (b : Buffer) (target : Nat → Nat → Option Nat) : Bool × Buffer :=
  match b.enclosingOpen? with
  | none => (false, b)
  | some start =>
    match b.elements[start]? with
    | some (.tableOpen cols) =>
      let starts := b.cellStarts start
      let current := (starts.filter (· ≤ b.cursor)).length - 1
      match (target current cols).bind fun i => starts[i]? with
      | some place => (true, { b with cursor := place })
      | none => (false, b)
    | _ => (false, b)

/-- Moves the cursor to the end of the first cell of the nearest table that opens before it. -/
def moveToCell (b : Buffer) : Bool × Buffer :=
  match (b.elements.take b.cursor).reverse.findIdx? Element.isOpen with
  | none => (false, b)
  | some back =>
    let start := (b.elements.take b.cursor).length - 1 - back
    let place := match (b.cellStarts start)[1]? with
      | some next => next - 1
      | none => (b.close? start).getD b.elements.length
    (true, b.goTo place)

/-- Moves the cursor out of the table around it. -/
def leaveTable (b : Buffer) : Bool × Buffer :=
  match b.enclosingOpen?.bind b.close? with
  | some close => (true, b.goTo (close + 1))
  | none => (false, b)

/-- A table in place of the selection, on a line that ends behind it, with the cursor in its first
    cell. -/
def insertTable (b : Buffer) (cols cells : Nat) : Buffer :=
  let b := b.deleteSelection
  let table := .tableOpen cols :: List.replicate (cells - 1) .cellBreak ++ [.tableClose]
  let ending := if (b.elements.drop b.cursor).head? = some (.char '\n') then [] else [.char '\n']
  { b.insertAt b.cursor (table ++ ending) with cursor := b.cursor + 1 }

/-- An equation in place of the selection; it becomes the selection, and the cursor stays before
    it. -/
def insertEquation (b : Buffer) (text : Text) : Buffer :=
  let b := b.deleteSelection
  { b.insertAt b.cursor [.equation text] with selection := some (b.cursor, b.cursor + 1) }

/-- Is the first selected element an equation? -/
def equationSelected (b : Buffer) : Bool :=
  match b.selection with
  | some (start, _) => (b.elements[start]?).any Element.isEquation
  | none => false

/-! ## Searching -/

/-- Selects the nearest text from the cursor on, in the given direction; the cursor ends on the far
    side of it. -/
def find (b : Buffer) (needle : Text) (direction : Direction) : Bool × Buffer :=
  if needle.isEmpty then (false, b)
  else
    match direction with
    | .forward =>
      match Element.firstSpelling? needle (b.elements.drop b.cursor) with
      | some offset =>
        let start := b.cursor + offset
        let stop := start + needle.length
        (true, { b with cursor := stop, selection := some (start, stop) })
      | none => (false, b)
    | .backward =>
      match Element.lastSpelling? needle (b.cursor + 1 - needle.length) b.elements with
      | some start =>
        (true, { b with cursor := start, selection := some (start, start + needle.length) })
      | none => (false, b)

/-! ## Commands -/

/-- Carries out a command that edits or moves; false when there was nothing to act on. Alignment
    does not touch the contents. -/
def run (b : Buffer) : Command → Bool × Buffer
  | .breakPara => (true, b.insert [.char '\n'])
  | .alignLeft | .alignRight | .alignCenter | .alignJustify => (true, b)
  | .moveDocBegin => (true, b.goTo 0)
  | .moveDown => (true, b.goTo (b.cursor + Element.lineOffset 0 (b.elements.drop b.cursor)))
  | .moveRight => (true, b.goTo (min (b.cursor + 1) b.elements.length))
  | .moveToCell => b.moveToCell
  | .closeEx => b.leaveTable
  | .tableRightCell => b.moveCells fun current _ => some (current + 1)
  | .tableLeftCell => b.moveCells fun current _ => if current = 0 then none else some (current - 1)
  | .tableLowerCell => b.moveCells fun current cols => some (current + cols)
  | .delete => b.deleteFrom (some b.cursor)
  | .deleteBack => b.deleteFrom (if b.cursor = 0 then none else some (b.cursor - 1))
  | .cancel => (true, { b with selection := none })

end Buffer

end Scribe
