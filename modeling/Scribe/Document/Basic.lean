import Scribe.Document.Buffer
import Scribe.Decimal.Layout
import Scribe.Text.Path

set_option autoImplicit false

/-! # Documents

A document in memory: a buffer with the fragments it can insert, the formats in force, and a log of
the calls that reached it. Faults can be planted in it, so that a later call fails as it would when
an editor refuses the call or its session dies. -/

namespace Scribe

/-- The alignment of the current paragraph. -/
inductive Alignment where
  | left
  | right
  | center
  | justify
  deriving DecidableEq, Repr

/-- How a planted fault strikes. -/
inductive FaultKind where
  /-- The session dies. -/
  | disconnect
  /-- One call is refused with a message. -/
  | reject (message : Text)
  deriving DecidableEq, Repr

/-- A fault that strikes after so many further calls have passed. -/
structure Fault where
  kind : FaultKind
  after : Nat
  deriving DecidableEq, Repr

/-- A document in memory. -/
structure Document where
  name : Text
  buffer : Buffer := {}
  /-- Registered fragments by file name; a later one replaces an earlier one of its name. -/
  fragments : List (Text × List Element) := []
  alignment : Alignment := .left
  charShape : CharShape := {}
  /-- The calls that were let through, the latest first. -/
  log : List Primitive := []
  fault : Option Fault := none
  disconnected : Bool := false
  attachments : Nat := 0

namespace Document

/-! ## Fragments -/

/-- The fragments of the known templates and containers, as markup. -/
def standardFragments : List (Text × Text) :=
  [ ("header.hwp".toList, "@@@\n[###]\n&&&".toList),
    ("box.hwp".toList, "@@@\n[###]\n&&&".toList),
    ("box_white.hwp".toList, "@@@\n[###]\n&&&".toList),
    ("box_template_noheader.hwp".toList, "[]\n".toList),
    ("box_template.hwp".toList, "[< 보 기 >\n]\n".toList) ]

/-- The document with one more fragment, given as markup. -/
def register (doc : Document) (file markup : Text) : Document :=
  { doc with fragments := (file, Element.ofMarkup markup) :: doc.fragments }

/-- An empty document that has the standard fragments. -/
def withStandardFragments (name : Text) : Document :=
  standardFragments.foldl (fun doc (file, markup) => doc.register file markup) { name }

/-- The fragment of a file name. -/
def fragment? (doc : Document) (file : Text) : Option (List Element) := doc.fragments.lookup file

/-! ## Faults -/

/-- Plants a fault in place of any other. -/
def inject (doc : Document) (fault : Fault) : Document := { doc with fault := some fault }

/-- Brings a dead session back and takes out the fault. -/
def revive (doc : Document) : Document := { doc with disconnected := false, fault := none }

/-- Lets a call through, or fails it: when the session is gone, or when the fault strikes. -/
def admission (doc : Document) (action : Text) : Except TargetError Unit × Document :=
  if doc.disconnected then (.error .gone, doc)
  else
    match doc.fault with
    | none => (.ok (), doc)
    | some ⟨kind, after + 1⟩ => (.ok (), { doc with fault := some ⟨kind, after⟩ })
    | some ⟨.reject message, 0⟩ => (.error (.ofFailure action message), { doc with fault := none })
    | some ⟨.disconnect, 0⟩ => (.error .gone, { doc with fault := none, disconnected := true })

/-! ## Calls -/

/-- The largest number of cells that a table may have. -/
def mostCells : Nat := 10000

/-- What a call does once it was let through; true unless there was nothing to act on. -/
def effect (doc : Document) (p : Primitive) : Except TargetError Bool × Document :=
  let edit (result : Bool × Buffer) : Except TargetError Bool × Document :=
    (.ok result.1, { doc with buffer := result.2 })
  let align (alignment : Alignment) : Except TargetError Bool × Document :=
    (.ok true, { doc with alignment })
  let fail (message : Text) : Except TargetError Bool × Document :=
    (.error (.ofFailure p.action message), doc)
  match p with
  | .insertText text => edit (true, doc.buffer.insert (text.map .char))
  | .run .alignLeft => align .left
  | .run .alignRight => align .right
  | .run .alignCenter => align .center
  | .run .alignJustify => align .justify
  | .run command => edit (doc.buffer.run command)
  | .charShape shape => (.ok true, { doc with charShape := doc.charShape.overlay shape })
  | .paraShape _ => (.ok true, doc)
  | .cellFormat _ =>
    if doc.buffer.enclosingOpen?.isSome then (.ok true, doc)
    else fail "cursor is not in a table".toList
  | .createTable rows cols =>
    if 1 ≤ rows * cols ∧ rows * cols ≤ mostCells then
      edit (true, doc.buffer.insertTable cols (rows * cols))
    else
      fail ("unsupported table size ".toList ++ Decimal.natText rows ++ ['x']
        ++ Decimal.natText cols)
  | .createEquation spec => edit (true, doc.buffer.insertEquation spec.text)
  | .objectAnchor _ =>
    if doc.buffer.equationSelected then (.ok true, doc) else fail "no object selected".toList
  | .insertFragment path =>
    match doc.fragment? (Path.fileName path) with
    | some es => edit (true, doc.buffer.insert es)
    | none => (.ok false, doc)
  | .findText needle direction => edit (doc.buffer.find needle direction)

/-- Carries out a call: a call that is let through is logged, whether it then succeeds or not. -/
def perform (p : Primitive) (doc : Document) : Except TargetError Bool × Document :=
  match doc.admission p.action with
  | (.error e, doc) => (.error e, doc)
  | (.ok (), doc) => { doc with log := p :: doc.log }.effect p

/-- The name of the document, as long as the session lives; asking does not count as a call. -/
def identity (doc : Document) : Except TargetError Text :=
  if doc.disconnected then .error .gone else .ok doc.name

/-! ## Attaching -/

/-- What happens to a document when an editor attaches to it. -/
structure Connection where
  /-- Does attaching bring a dead session back? -/
  revives : Bool := true
  /-- The number of calls after which a fresh attachment dies. -/
  dieAfter : Option Nat := none

/-- Attaches to the document, which must have the wanted name, if one is given. -/
def connect (c : Connection) (wanted : Option Text) (doc : Document) :
    Except TargetError Unit × Document :=
  let doc := if c.revives then doc.revive else doc
  if doc.disconnected then (.error .gone, doc)
  else
    match wanted.filter (· != doc.name) with
    | some name => (.error (.documentNotFound name), doc)
    | none =>
      let doc := { doc with attachments := doc.attachments + 1 }
      match c.dieAfter with
      | some after => (.ok (), doc.inject ⟨.disconnect, after⟩)
      | none => (.ok (), doc)

end Document

end Scribe
