import Scribe.Proofs.Document.Places
import Scribe.Proofs.Document.Moments

set_option autoImplicit false

/-! # Accesses of documents

Edits, moves and searches go through the elements of a buffer by their places, and here with each
access guarded. Main statement: from a new document on, whatever happens to it, no guard strikes,
and the cursor and the selection stay within the elements. -/

namespace Scribe

namespace Guarded

/-! ## Edits -/

variable {b : Buffer} {start : Nat}

/-- The buffer without the selection. -/
def deleteSelection (b : Buffer) : Option Buffer :=
  match b.selection with
  | some (start, stop) => do
    return { elements := ← drain b.elements start stop, cursor := start }
  | none => some b

/-- The selection replaced by elements, with the cursor behind them. -/
def insert (b : Buffer) (es : List Element) : Option Buffer := do
  let b ← deleteSelection b
  return { b with elements := ← splice b.elements b.cursor es, cursor := b.cursor + es.length }

/-- The selection deleted, or else the element behind the cursor. -/
def delete (b : Buffer) : Option (Bool × Buffer) := do
  if b.selection.isSome then return (true, ← deleteSelection b)
  else if b.cursor < b.elements.length then
    return (true, { b with elements := ← remove b.elements b.cursor })
  else return (false, b)

/-- The selection deleted, or else the element before the cursor. -/
def deleteBack (b : Buffer) : Option (Bool × Buffer) := do
  if b.selection.isSome then return (true, ← deleteSelection b)
  else if 0 < b.cursor then
    let place ← lower b.cursor 1
    return (true, { b with elements := ← remove b.elements place, cursor := place })
  else return (false, b)

/-- A table in place of the selection, and behind it the end of its line, unless one follows. -/
def insertTable (b : Buffer) (cols cells : Nat) : Option Buffer := do
  let b ← deleteSelection b
  let table := .tableOpen cols :: List.replicate (← lower cells 1) .cellBreak ++ [.tableClose]
  let elements ← splice b.elements b.cursor table
  let stop := b.cursor + table.length
  let elements ← if elements[stop]? = some (.char '\n') then some elements
    else splice elements stop [.char '\n']
  return { b with elements, cursor := b.cursor + 1 }

/-- An equation in place of the selection; it becomes the selection. -/
def insertEquation (b : Buffer) (text : Text) : Option Buffer := do
  let b ← deleteSelection b
  return { b with
    elements := ← splice b.elements b.cursor [.equation text]
    selection := some (b.cursor, b.cursor + 1) }

theorem deleteSelection_eq (h : b.IsWithin) : deleteSelection b = some b.deleteSelection := by
  unfold deleteSelection Buffer.deleteSelection
  cases hspan : b.selection with
  | none => rfl
  | some span =>
    obtain ⟨hlt, hstop⟩ := h.selection _ _ hspan
    simp only [drain_eq (Nat.le_of_lt hlt) hstop]
    rfl

-- a selection that reaches out of the elements is caught
example : deleteSelection ⟨[.char 'a'], 0, some (0, 2)⟩ = none := by decide

theorem insert_eq (h : b.IsWithin) (es : List Element) : insert b es = some (b.insert es) := by
  rw [insert, deleteSelection_eq h]
  simp only [Option.bind_eq_bind, Option.bind_some, splice_eq (h.cursor_deleteSelection_le)]
  rfl

theorem delete_eq (h : b.IsWithin) : delete b = some (b.deleteFrom (some b.cursor)) := by
  unfold delete Buffer.deleteFrom
  cases hspan : b.selection with
  | some span => simp [deleteSelection_eq h]
  | none =>
    by_cases hlt : b.cursor < b.elements.length
    · simp [hlt, remove_eq hlt, Buffer.cut]
    · simp [hlt]

theorem deleteBack_eq (h : b.IsWithin) :
    deleteBack b = some (b.deleteFrom (if b.cursor = 0 then none else some (b.cursor - 1))) := by
  unfold deleteBack Buffer.deleteFrom
  cases hspan : b.selection with
  | some span => simp [deleteSelection_eq h]
  | none =>
    rcases Nat.eq_zero_or_pos b.cursor with hzero | hpos
    · simp [hzero]
    · have hlt : b.cursor - 1 < b.elements.length := by have := h.cursor_le; omega
      simp [hpos, Nat.ne_of_gt hpos, lower_eq hpos, remove_eq hlt, Buffer.cut, hlt]

theorem insertTable_eq (h : b.IsWithin) (cols : Nat) {cells : Nat} (hcells : 1 ≤ cells) :
    insertTable b cols cells = some (b.insertTable cols cells) := by
  have hcursor := h.cursor_deleteSelection_le
  rw [insertTable, deleteSelection_eq h, Buffer.insertTable]
  generalize b.deleteSelection = b at hcursor ⊢
  simp only [Option.bind_eq_bind, Option.bind_some, lower_eq hcells, splice_eq hcursor]
  generalize Element.tableOpen cols :: List.replicate (cells - 1) Element.cellBreak ++
    [Element.tableClose] = table
  have hlen : (b.elements.take b.cursor ++ table).length = b.cursor + table.length := by
    rw [List.length_append, List.length_take_of_le hcursor]
  rw [← hlen, List.getElem?_append_right (Nat.le_refl _), Nat.sub_self, ← List.head?_eq_getElem?]
  split
  · simp only [Buffer.insertAt, List.append_nil]
    rfl
  · rw [splice_append]
    simp only [Buffer.insertAt, List.append_assoc]
    rfl

theorem insertEquation_eq (h : b.IsWithin) (text : Text) :
    insertEquation b text = some (b.insertEquation text) := by
  rw [insertEquation, deleteSelection_eq h]
  simp only [Option.bind_eq_bind, Option.bind_some, splice_eq (h.cursor_deleteSelection_le)]
  rfl

/-! ## Moves -/

/-- The place of the delimiter that opens the table around the cursor. -/
def enclosingOpen (b : Buffer) : Option (Option Nat) := openBefore b.elements b.cursor 0

/-- The place of the delimiter that closes the table opened at `start`. -/
def close (b : Buffer) (start : Nat) : Option (Option Nat) :=
  closeFrom b.elements (b.elements.length - (start + 1)) (start + 1) 0

/-- The places at which the cells of the table opened at `start` begin. -/
def cellStarts (b : Buffer) (start : Nat) : Option (List Nat) := do
  return (start + 1) :: (← breaksFrom b.elements (b.elements.length - (start + 1)) (start + 1) 0)

/-- Moves the cursor from the cell it is in to another one of the same table. -/
def moveCells (b : Buffer) (target : Nat → Nat → Option Nat) : Option (Bool × Buffer) := do
  match ← enclosingOpen b with
  | none => return (false, b)
  | some start =>
    match ← b.elements[start]? with
    | .tableOpen cols =>
      let starts ← cellStarts b start
      let current := (starts.filter (· ≤ b.cursor)).length - 1
      match (target current cols).bind fun i => starts[i]? with
      | some place => return (true, { b with cursor := place })
      | none => return (false, b)
    | _ => return (false, b)

/-- The end of the first cell of the table opened at `start`. -/
def firstCellEnd (b : Buffer) (start : Nat) : Option Nat := do
  match (← cellStarts b start)[1]? with
  | some next => lower next 1
  | none => return (← close b start).getD b.elements.length

/-- Moves the cursor to the end of the first cell of the nearest table that opens before it. -/
def moveToCell (b : Buffer) : Option (Bool × Buffer) := do
  match ← nearestOpen b.elements b.cursor with
  | none => return (false, b)
  | some start => return (true, b.goTo (← firstCellEnd b start))

/-- Moves the cursor out of the table around it. -/
def leaveTable (b : Buffer) : Option (Bool × Buffer) := do
  match ← enclosingOpen b with
  | none => return (false, b)
  | some start =>
    match ← close b start with
    | some stop => return (true, b.goTo (stop + 1))
    | none => return (false, b)

/-- Moves the cursor to the next line of its cell, or else to the end of the cell. -/
def moveDown (b : Buffer) : Option Buffer := do
  return b.goTo (← lineFrom b.elements (b.elements.length - b.cursor) b.cursor 0)

theorem enclosingOpen_eq (h : b.IsWithin) : enclosingOpen b = some b.enclosingOpen? := by
  rw [enclosingOpen, openBefore_eq 0 h.cursor_le, Buffer.enclosingOpen?,
    List.length_take_of_le h.cursor_le]

theorem close_eq (h : start < b.elements.length) : close b start = some (b.close? start) :=
  closeFrom_eq 0 (by omega)

theorem cellStarts_eq (h : start < b.elements.length) :
    cellStarts b start = some (b.cellStarts start) := by
  rw [cellStarts, breaksFrom_eq 0 (by omega)]
  rfl

theorem moveDown_eq (h : b.IsWithin) :
    moveDown b = some (b.goTo (b.cursor + Element.lineOffset 0 (b.elements.drop b.cursor))) := by
  rw [moveDown, lineFrom_eq 0 (Nat.add_sub_cancel' h.cursor_le)]
  rfl

theorem moveCells_eq (h : b.IsWithin) (target : Nat → Nat → Option Nat) :
    moveCells b target = some (b.moveCells target) := by
  rw [moveCells, enclosingOpen_eq h, Buffer.moveCells]
  cases hopen : b.enclosingOpen? with
  | none => rfl
  | some start =>
    have hstart := Buffer.enclosingOpen?_lt hopen
    obtain ⟨e, he, -⟩ := exists_read hstart
    cases e with
    | tableOpen cols =>
      simp only [Option.bind_eq_bind, Option.bind_some, he, cellStarts_eq hstart]
      cases (target _ cols).bind fun i => (b.cellStarts start)[i]? <;> rfl
    | _ => simp [he]

theorem firstCellEnd_eq (h : start < b.elements.length) :
    firstCellEnd b start = some (match (b.cellStarts start)[1]? with
      | some next => next - 1
      | none => (b.close? start).getD b.elements.length) := by
  rw [firstCellEnd, cellStarts_eq h, close_eq h]
  simp only [Option.bind_eq_bind, Option.bind_some]
  cases hnext : (b.cellStarts start)[1]? with
  | none => rfl
  | some next =>
    have hlt := Element.lt_of_mem_breakPlaces (List.mem_of_getElem? hnext)
    exact lower_eq (Nat.lt_of_le_of_lt (Nat.zero_le _) hlt)

theorem moveToCell_eq (h : b.IsWithin) : moveToCell b = some b.moveToCell := by
  rw [moveToCell, nearestOpen_eq h.cursor_le, Buffer.moveToCell,
    List.length_take_of_le h.cursor_le]
  cases hback : (b.elements.take b.cursor).reverse.findIdx? Element.isOpen with
  | none => rfl
  | some back =>
    have hstart : b.cursor - 1 - back < b.elements.length := by
      have hlt := (List.findIdx?_eq_some_iff_findIdx_eq.1 hback).1
      have hcursor := h.cursor_le
      simp only [List.length_reverse, List.length_take] at hlt
      omega
    simp only [Option.bind_eq_bind, Option.bind_some, Option.map_some, firstCellEnd_eq hstart]
    rfl

theorem leaveTable_eq (h : b.IsWithin) : leaveTable b = some b.leaveTable := by
  rw [leaveTable, enclosingOpen_eq h, Buffer.leaveTable]
  cases hopen : b.enclosingOpen? with
  | none => rfl
  | some start =>
    simp only [Option.bind_eq_bind, Option.bind_some, close_eq (Buffer.enclosingOpen?_lt hopen)]
    cases b.close? start <;> rfl

/-! ## Searches and selections -/

/-- The selected elements. -/
def selected (b : Buffer) : Option (Option (List Element)) :=
  match b.selection with
  | some (start, stop) => (span b.elements start stop).map some
  | none => some none

/-- Is the first selected element an equation? -/
def equationSelected (b : Buffer) : Option Bool :=
  match b.selection with
  | some (start, _) => (b.elements[start]?).map Element.isEquation
  | none => some false

/-- Selects the nearest text from the cursor on, in the given direction. -/
def find (b : Buffer) (needle : Text) (direction : Direction) : Option (Bool × Buffer) := do
  if needle.isEmpty ∨ b.elements.length < needle.length then return (false, b)
  else
    let last ← lower b.elements.length needle.length
    match direction with
    | .forward =>
      match ← firstFrom b.elements needle (last + 1 - b.cursor) b.cursor with
      | some start =>
        let stop := start + needle.length
        return (true, { b with cursor := stop, selection := some (start, stop) })
      | none => return (false, b)
    | .backward =>
      let count :=
        if needle.length ≤ b.cursor then min (b.cursor - needle.length) last + 1 else 0
      match ← lastBefore b.elements needle count with
      | some start =>
        return (true, { b with cursor := start, selection := some (start, start + needle.length) })
      | none => return (false, b)

theorem selected_eq (h : b.IsWithin) : selected b = some b.selected? := by
  unfold selected Buffer.selected?
  cases hspan : b.selection with
  | none => rfl
  | some span =>
    obtain ⟨hlt, hstop⟩ := h.selection _ _ hspan
    simp only [span_eq (Nat.le_of_lt hlt) hstop]
    rfl

theorem equationSelected_eq (h : b.IsWithin) : equationSelected b = some b.equationSelected := by
  unfold equationSelected Buffer.equationSelected
  cases hspan : b.selection with
  | none => rfl
  | some span =>
    obtain ⟨hlt, hstop⟩ := h.selection _ _ hspan
    obtain ⟨e, he, -⟩ := exists_read (Nat.lt_of_lt_of_le hlt hstop)
    simp only [he]
    rfl

theorem find_eq (h : b.IsWithin) (needle : Text) (direction : Direction) :
    find b needle direction = some (b.find needle direction) := by
  have hcursor := h.cursor_le
  by_cases hempty : needle.isEmpty
  · simp [find, Buffer.find, hempty]
  by_cases hlong : b.elements.length < needle.length
  · simp [find, hlong, h.find_of_length_lt hlong]
  have hne : needle ≠ [] := by simpa using hempty
  have hpos := List.length_pos_iff.2 hne
  simp only [find, Buffer.find, hempty, hlong, lower_eq (Nat.le_of_not_lt hlong),
    Bool.false_eq_true, or_self, if_false, Option.bind_eq_bind, Option.bind_some]
  cases direction with
  | forward =>
    have hleft : b.elements.length - needle.length + 1 - b.cursor =
        b.elements.length + 1 - (b.cursor + needle.length) := by omega
    have hfirst := firstFrom_eq hleft hne
    simp only [hfirst, Option.bind_some]
    cases Element.firstSpelling? needle (b.elements.drop b.cursor) <;> rfl
  | backward =>
    have hcount : (if needle.length ≤ b.cursor then
        min (b.cursor - needle.length) (b.elements.length - needle.length) + 1 else 0) =
        b.cursor + 1 - needle.length := by
      split <;> omega
    have hlast := lastBefore_eq (show b.cursor + 1 - needle.length + needle.length ≤
      b.elements.length + 1 by omega)
    simp only [hcount, hlast, Option.bind_some]
    cases Element.lastSpelling? needle (b.cursor + 1 - needle.length) b.elements <;> rfl

/-! ## Calls -/

/-- Carries out a command that edits or moves. -/
def run (b : Buffer) : Command → Option (Bool × Buffer)
  | .breakPara => do return (true, ← insert b [.char '\n'])
  | .alignLeft | .alignRight | .alignCenter | .alignJustify => some (true, b)
  | .moveDocBegin => some (true, b.goTo 0)
  | .moveDown => do return (true, ← moveDown b)
  | .moveRight => some (true, b.goTo (min (b.cursor + 1) b.elements.length))
  | .moveToCell => moveToCell b
  | .closeEx => leaveTable b
  | .tableRightCell => moveCells b fun current _ => some (current + 1)
  | .tableLeftCell => moveCells b fun current _ => lower current 1
  | .tableLowerCell => moveCells b fun current cols => some (current + cols)
  | .delete => delete b
  | .deleteBack => deleteBack b
  | .cancel => some (true, { b with selection := none })

/-- What a call does once it was let through. -/
def effect (doc : Document) (p : Primitive) : Option (Except TargetError Bool × Document) :=
  let edit (result : Bool × Buffer) : Except TargetError Bool × Document :=
    (.ok result.1, { doc with buffer := result.2 })
  let fail (message : Text) : Except TargetError Bool × Document :=
    (.error (.ofFailure p.action message), doc)
  match p with
  | .insertText text => do return edit (true, ← insert doc.buffer (text.map .char))
  | .run .alignLeft | .run .alignRight | .run .alignCenter | .run .alignJustify
  | .charShape _ | .paraShape _ => some (doc.effect p)
  | .run command => (run doc.buffer command).map edit
  | .cellFormat _ => do
    if (← enclosingOpen doc.buffer).isSome then return (.ok true, doc)
    else return fail "cursor is not in a table".toList
  | .createTable rows cols =>
    if 1 ≤ rows * cols ∧ rows * cols ≤ Document.mostCells then do
      return edit (true, ← insertTable doc.buffer cols (rows * cols))
    else some (doc.effect p)
  | .createEquation spec => do return edit (true, ← insertEquation doc.buffer spec.text)
  | .objectAnchor _ => do
    if ← equationSelected doc.buffer then return (.ok true, doc)
    else return fail "no object selected".toList
  | .insertFragment path =>
    match doc.fragment? (Path.fileName path) with
    | some es => do return edit (true, ← insert doc.buffer es)
    | none => some (.ok false, doc)
  | .findText needle direction => (find doc.buffer needle direction).map edit

/-- Carries out a call, if it is let through. -/
def perform (doc : Document) (p : Primitive) : Option (Except TargetError Bool × Document) :=
  match doc.admission p.action with
  | (.error e, doc) => some (.error e, doc)
  | (.ok (), doc) => effect { doc with log := p :: doc.log } p

theorem run_eq (h : b.IsWithin) (command : Command) : run b command = some (b.run command) := by
  cases command with
  | breakPara => simp [run, insert_eq h, Buffer.run]
  | moveDown => simp [run, moveDown_eq h, Buffer.run]
  | moveToCell => exact moveToCell_eq h
  | closeEx => exact leaveTable_eq h
  | tableRightCell | tableLowerCell => simp only [run, moveCells_eq h, Buffer.run]
  | tableLeftCell =>
    have hlower (current : Nat) :
        lower current 1 = if current = 0 then none else some (current - 1) := by
      cases current <;> rfl
    simp only [run, hlower, moveCells_eq h, Buffer.run]
  | delete => exact delete_eq h
  | deleteBack => exact deleteBack_eq h
  | _ => rfl

theorem effect_eq {doc : Document} (h : doc.buffer.IsWithin) (p : Primitive) :
    effect doc p = some (doc.effect p) := by
  cases p with
  | insertText text => simp [effect, insert_eq h, Document.effect]
  | run command =>
    have hrun := run_eq h command
    cases command <;> simp [effect, hrun, Document.effect]
  | cellFormat format =>
    simp only [effect, enclosingOpen_eq h, Document.effect, Option.bind_eq_bind, Option.bind_some]
    split <;> rfl
  | createTable rows cols =>
    simp only [effect, Document.effect]
    split
    · next hsize =>
      rw [insertTable_eq h cols hsize.1]
      rfl
    · rfl
  | createEquation spec => simp [effect, insertEquation_eq h, Document.effect]
  | objectAnchor treatAsChar =>
    simp only [effect, equationSelected_eq h, Document.effect, Option.bind_eq_bind,
      Option.bind_some]
    split <;> rfl
  | insertFragment path =>
    simp only [effect, Document.effect]
    cases doc.fragment? (Path.fileName path) with
    | some es => simp only [insert_eq h, Option.bind_eq_bind, Option.bind_some, Option.pure_def]
    | none => rfl
  | findText needle direction => simp [effect, find_eq h, Document.effect]
  | charShape shape | paraShape shape => rfl

theorem perform_eq {doc : Document} (h : doc.buffer.IsWithin) (p : Primitive) :
    perform doc p = some (doc.perform p) := by
  have hbuffer := (doc.sameContents_admission p.action).buffer
  unfold perform Document.perform
  generalize doc.admission p.action = admitted at hbuffer ⊢
  obtain ⟨_ | _, y⟩ := admitted
  · rfl
  · have hy : ({ y with log := p :: y.log } : Document).buffer.IsWithin := hbuffer ▸ h
    exact effect_eq hy p

end Guarded

/-! ## Documents -/

namespace Document

/-- What can happen to a document. -/
inductive Event where
  /-- A call reaches it: an edit, a command, a search. -/
  | call (p : Primitive)
  | register (file markup : Text)
  | inject (fault : Fault)
  | revive
  | attach (c : Connection) (wanted : Option Text)

/-- The document behind an event. -/
def undergo (doc : Document) : Event → Document
  | .call p => (doc.perform p).2
  | .register file markup => doc.register file markup
  | .inject fault => doc.inject fault
  | .revive => doc.revive
  | .attach c wanted => (doc.connect c wanted).2

/-- The document behind an event, if no guard strikes; calls alone touch the elements. -/
def undergo? (doc : Document) : Event → Option Document
  | .call p => (Guarded.perform doc p).map Prod.snd
  | event => some (doc.undergo event)

theorem undergo?_eq {doc : Document} (h : doc.buffer.IsWithin) (event : Event) :
    doc.undergo? event = some (doc.undergo event) := by
  cases event with
  | call p => rw [undergo?, Guarded.perform_eq h]; rfl
  | _ => rfl

theorem isProper_undergo {doc : Document} (h : doc.buffer.IsProper) (event : Event) :
    (doc.undergo event).buffer.IsProper := by
  cases event with
  | call p => exact isProper_perform h p
  | register | inject | revive => exact h
  | attach c wanted => exact (doc.sameContents_answer c (r := .connect wanted) rfl).buffer ▸ h

theorem isProper_new (name : Text) : ({ name } : Document).buffer.IsProper :=
  ⟨Nat.le_refl 0, .inl rfl⟩

theorem foldlM_undergo? {doc : Document} (h : doc.buffer.IsProper) (events : List Event) :
    events.foldlM undergo? doc = some (events.foldl undergo doc) ∧
      (events.foldl undergo doc).buffer.IsProper := by
  induction events generalizing doc with
  | nil => exact ⟨rfl, h⟩
  | cons event events ih =>
    rw [List.foldlM_cons, undergo?_eq h.isWithin]
    exact ih (isProper_undergo h event)

/-- Whatever happens to a new document, no access is out of range and no number is lowered below
    zero, also when the selection is read out; cursor and selection stay within the elements. -/
theorem isWithin_foldl_undergo (name : Text) (events : List Event) :
    let doc := events.foldl undergo { name }
    events.foldlM undergo? { name } = some doc ∧ doc.buffer.IsWithin ∧
      Guarded.selected doc.buffer = some doc.buffer.selected? := by
  obtain ⟨hguarded, hproper⟩ := foldlM_undergo? (isProper_new name) events
  exact ⟨hguarded, hproper.isWithin, Guarded.selected_eq hproper.isWithin⟩

end Document

end Scribe
