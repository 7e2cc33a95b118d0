import Scribe.Proofs.Document.Cells
import Scribe.Proofs.Typing.Undisturbed

set_option autoImplicit false

/-! # Filling tables

The cells of a new table are filled one after another: from each cell the cursor goes on to the
right, and from the end of a row it goes to the row below and back to the left. Main statement: in a
document that nobody disturbs, each value comes into its cell, whatever the lengths of the rows and
wherever the table is put in; all other cells stay empty, and so does the rest of the document but
for a space before the table and a break behind it. -/

namespace Scribe

/-! ## What values type -/

namespace TypingState

/-- What a value types into a cell, and the state behind it. -/
def typeValue (s : TypingState) (value : Text) : List Element × TypingState :=
  match Text.stripStart? Typist.equationCellLead value with
  | some equation =>
    (if (Text.trim equation).isEmpty then [] else [.equation (Text.trim equation)],
      { s.markWritten with lastWasEquation := true })
  | none =>
    if value.isEmpty then ([], s)
    else
      let run := Typing.trimRun .none s (readTab value)
      if s.insideContainer && s.containerLineStart && run.head? != some ' ' then
        ((' ' :: run).map .char, { s with containerLineStart := false }.markText)
      else (run.map .char, s.markText)

/-- What values type into cells, one after another, and the state behind them. -/
def typeValues (s : TypingState) : List Text → List (List Element) × TypingState
  | [] => ([], s)
  | value :: values =>
    let (cell, s) := s.typeValue value
    let (cells, s) := s.typeValues values
    (cell :: cells, s)

/-- What rows of values type into so many rows of `cols` cells. -/
def typeRows (cols : Nat) (s : TypingState) : Nat → List (List Text) → List (List Element)
  | 0, _ => []
  | left + 1, [] => List.replicate ((left + 1) * cols) []
  | left + 1, row :: rows =>
    let (cells, s) := s.typeValues (row.take cols)
    cells ++ List.replicate (cols - cells.length) [] ++ s.typeRows cols left rows

variable {s : TypingState} {cols : Nat}

theorem lineStart_typeValue (hs : s.lineStart = false) (value : Text) :
    (s.typeValue value).2.lineStart = false := by
  unfold typeValue
  split
  · rfl
  · dsimp only
    split
    · exact hs
    · split <;> rfl

theorem length_typeValues (s : TypingState) (values : List Text) :
    (s.typeValues values).1.length = values.length := by
  induction values generalizing s with
  | nil => rfl
  | cons value values ih => exact congrArg Nat.succ (ih _)

theorem lineStart_typeValues (hs : s.lineStart = false) (values : List Text) :
    (s.typeValues values).2.lineStart = false := by
  induction values generalizing s with
  | nil => exact hs
  | cons value values ih => exact ih (lineStart_typeValue hs value)

theorem typeValues_append (s : TypingState) (values more : List Text) :
    (s.typeValues (values ++ more)).2 = ((s.typeValues values).2.typeValues more).2 := by
  induction values generalizing s with
  | nil => rfl
  | cons value values ih => exact ih _

/-- A value is typed behind those before it. -/
theorem getElem?_typeValues (s : TypingState) (values : List Text) (i : Nat) :
    (s.typeValues values).1[i]? =
      values[i]?.map fun value => ((s.typeValues (values.take i)).2.typeValue value).1 := by
  induction values generalizing s i with
  | nil => rfl
  | cons value values ih =>
    cases i with
    | zero => rfl
    | succ i => exact ih _ i

theorem length_typeRows (cols : Nat) (s : TypingState) (left : Nat) (rows : List (List Text)) :
    (s.typeRows cols left rows).length = left * cols := by
  induction left generalizing s rows with
  | zero => simp [typeRows]
  | succ left ih =>
    cases rows with
    | nil => rw [typeRows, List.length_replicate]
    | cons row rows =>
      have hrow := length_typeValues s (row.take cols)
      simp only [typeRows, List.length_append, List.length_replicate, ih]
      rw [hrow, List.length_take, Nat.succ_mul]
      omega

/-- The values that are typed before the one in a row and a column. -/
def valuesBefore (cols : Nat) (rows : List (List Text)) (r c : Nat) : List Text :=
  (rows.take r).flatMap (·.take cols) ++ ((rows[r]?).getD []).take c

/-- What is typed into the cell in a row and a column. -/
def typedAt (cols : Nat) (rows : List (List Text)) (s : TypingState) (r c : Nat) : List Element :=
  match (rows[r]?).bind (·[c]?) with
  | some value => ((s.typeValues (valuesBefore cols rows r c)).2.typeValue value).1
  | none => []

theorem getElem?_typeRows (s : TypingState) {left : Nat} (rows : List (List Text)) {r c : Nat}
    (hr : r < left) (hc : c < cols) :
    (s.typeRows cols left rows)[r * cols + c]? = some (typedAt cols rows s r c) := by
  induction left generalizing s rows r with
  | zero => exact absurd hr (Nat.not_lt_zero r)
  | succ left ih =>
    cases rows with
    | nil =>
      rw [typeRows, List.getElem?_replicate, if_pos]
      · rfl
      · calc r * cols + c < r * cols + cols := Nat.add_lt_add_left hc _
          _ = (r + 1) * cols := (Nat.succ_mul r cols).symm
          _ ≤ (left + 1) * cols := Nat.mul_le_mul_right cols hr
    | cons row rows =>
      have hcells : (s.typeValues (row.take cols)).1.length = min cols row.length := by
        rw [length_typeValues, List.length_take]
      rw [typeRows]
      -- The cells of the first row are typed now; those of a later row follow `cols` cells on.
      cases r with
      | zero =>
        simp only [Nat.zero_mul, Nat.zero_add, typedAt, valuesBefore, List.getElem?_cons_zero,
          List.take_zero, List.flatMap_nil, List.nil_append, Option.bind_some, Option.getD_some]
        rw [List.append_assoc]
        by_cases hlt : c < row.length
        · rw [List.getElem?_append_left (by omega), getElem?_typeValues,
            List.getElem?_take_of_lt hc, List.take_take, Nat.min_eq_left (Nat.le_of_lt hc),
            List.getElem?_eq_getElem hlt]
          rfl
        · rw [List.getElem?_append_right (by omega), List.getElem?_append_left
            (by rw [List.length_replicate]; omega), List.getElem?_replicate, if_pos (by omega),
            List.getElem?_eq_none (Nat.le_of_not_lt hlt)]
      | succ r =>
        have hlength : ((s.typeValues (row.take cols)).1 ++ List.replicate
            (cols - (s.typeValues (row.take cols)).1.length) []).length = cols := by
          rw [List.length_append, List.length_replicate]
          omega
        have hindex : (r + 1) * cols + c - cols = r * cols + c := by
          rw [Nat.succ_mul]
          omega
        rw [List.getElem?_append_right (by rw [hlength, Nat.succ_mul]; omega), hlength, hindex,
          ih _ _ (Nat.lt_of_succ_lt_succ hr)]
        simp only [typedAt, valuesBefore, List.getElem?_cons_succ, List.take_succ_cons,
          List.flatMap_cons, List.append_assoc, typeValues_append]

end TypingState

/-! ## In a cell -/

/-- A document that nobody disturbs, with the cursor at the end of a cell. -/
structure Document.InCell (x : Document) (front : List Element) (cols : Nat)
    (pre : List (List Element)) (cell : List Element) (post : List (List Element))
    (back : List Element) : Prop where
  calm : x.IsCalm
  buffer : x.buffer.InCell front cols pre cell post back

namespace Typing

open TypingState

variable {t : Typist Document} {x : Document} {s : TypingState} {front back cell : List Element}
  {cols : Nat} {pre post : List (List Element)}

theorem succeeds_write {text : Text} {Q : Unit → TypingState → Document → Prop}
    (hx : x.InCell front cols pre cell post back)
    (hQ : ∀ x', x'.InCell front cols pre (cell ++ text.map .char) post back → Q () s x') :
    Succeeds (write text) Q s x := by
  obtain ⟨hanswer, hbuffer⟩ := Document.perform_insertText hx.calm text
  refine .write (fun htext => hQ x ?_) (fun _ => trivial) (fun _ => hanswer) fun _ => hQ _ ?_
  · subst htext
    simpa using hx
  · exact ⟨hx.calm.perform _, hbuffer ▸ hx.buffer.insert (Element.areContent_chars text)⟩

theorem succeeds_insertObject (hx : x.InCell front cols pre cell post back) (spec : EquationSpec)
    {Q : Unit → TypingState → Document → Prop}
    (hQ : ∀ x', x'.InCell front cols pre (cell ++ [.equation spec.text]) post back → Q () s x') :
    Succeeds (insertObject spec) Q s x := by
  obtain ⟨hcreated, hb₁⟩ := Document.perform_createEquation hx.calm spec
  have hcalm₁ := hx.calm.perform (.createEquation spec)
  have hselected : (x.perform (.createEquation spec)).2.buffer.equationSelected := by
    rw [hb₁]
    exact Buffer.equationSelected_insertEquation hx.buffer.splits.isProper _
  obtain ⟨hanchored, hb₂⟩ := Document.perform_objectAnchor hcalm₁ hselected spec.treatAsChar
  have hcalm₂ := hcalm₁.perform (.objectAnchor spec.treatAsChar)
  obtain ⟨hcancelled, hb₃⟩ := Document.perform_run hcalm₂ .cancel
  have hcalm₃ := hcalm₂.perform (.run .cancel)
  obtain ⟨hmoved, hb₄⟩ := Document.perform_run hcalm₃ .moveRight
  refine .bind (.discard (.require trivial hcreated ?_))
  refine .bind (.discard (.require trivial hanchored ?_))
  refine .bind (.discard (.require trivial hcancelled ?_))
  refine .discard (.require trivial hmoved (hQ _ ⟨hcalm₃.perform _, ?_⟩))
  rw [hb₄, hb₃, hb₂, hb₁]
  exact hx.buffer.insertEquation spec.text

/-- A command that is carried out in a cell. -/
theorem succeeds_run {command : Command} {Q : Bool → TypingState → Document → Prop}
    {found : Bool} {pre' post' : List (List Element)} {cell' : List Element}
    (hx : x.InCell front cols pre cell post back)
    (hrun : (x.buffer.run command).1 = found ∧
      (x.buffer.run command).2.InCell front cols pre' cell' post' back)
    (hQ : ∀ x', x'.InCell front cols pre' cell' post' back → Q found s x') :
    Succeeds (tryRun command) Q s x := by
  obtain ⟨hanswer, hbuffer⟩ := Document.perform_run hx.calm command
  rw [hrun.1] at hanswer
  exact .tryRun trivial hanswer (hQ _ ⟨hx.calm.perform _, hbuffer ▸ hrun.2⟩)

theorem succeeds_cellStyle (alignCenter : Bool) (hx : x.InCell front cols pre cell post back)
    {Q : Unit → TypingState → Document → Prop}
    (hQ : ∀ x', x'.InCell front cols pre cell post back → Q () s x') :
    Succeeds (t.cellStyle alignCenter) Q s x := by
  obtain ⟨hfont, hb₁⟩ := Document.perform_charShape hx.calm
    (.font t.settings.equationFont t.settings.boxFontSizePt)
  have hx₁ := hx.calm.perform (.charShape
    (.font t.settings.equationFont t.settings.boxFontSizePt))
  obtain ⟨hspacing, hb₂⟩ := Document.perform_paraShape hx₁ {}
  have hx₂ : Document.InCell _ front cols pre cell post back :=
    ⟨hx₁.perform (.paraShape {}), by rw [hb₂, hb₁]; exact hx.buffer⟩
  refine .bind (.discard (.bestEffort trivial hfont ?_))
  refine .bind (.discard (.bestEffort trivial hspacing ?_))
  cases alignCenter with
  | false => exact .pure (hQ _ hx₂)
  | true => exact .discard (succeeds_run hx₂ ⟨rfl, hx₂.buffer⟩ hQ)

/-! ## Filling a cell -/

theorem succeeds_insertText (hx : x.InCell front cols pre [] post back)
    (hs : s.lineStart = false) {value : Text}
    (hvalue : Text.stripStart? Typist.equationCellLead value = none)
    {Q : Unit → TypingState → Document → Prop}
    (hQ : ∀ x', x'.InCell front cols pre (s.typeValue value).1 post back →
      Q () (s.typeValue value).2 x') :
    Succeeds (insertText value) Q s x := by
  simp only [typeValue, hvalue] at hQ
  by_cases hempty : value.isEmpty
  · simp only [hempty, if_true] at hQ
    exact .ite_pos hempty (.pure (hQ x hx))
  · simp only [hempty, Bool.false_eq_true, if_false] at hQ
    refine .ite_neg hempty (.bind (.typingState (.ite_neg (by simp [hs]) ?_)))
    refine .bind (Attains.applyAlignment_of_lineStart hs (.bind (.typingState ?_)))
    by_cases hlead : (s.insideContainer && s.containerLineStart &&
        (trimRun .none s (readTab value)).head? != some ' ') = true
    · rw [if_pos hlead] at hQ
      refine .ite_pos hlead (.bind (.updateState (.bind (succeeds_write hx fun x' hx' => ?_))))
      exact .updateState (hQ x' hx')
    · rw [if_neg hlead] at hQ
      refine .ite_neg hlead (.bind (succeeds_write hx fun x' hx' => ?_))
      exact .updateState (hQ x' hx')

theorem succeeds_insertEquation (hx : x.InCell front cols pre [] post back)
    (hs : s.lineStart = false) {value equation : Text}
    (hvalue : Text.stripStart? Typist.equationCellLead value = some equation)
    {Q : Unit → TypingState → Document → Prop}
    (hQ : ∀ x', x'.InCell front cols pre (s.typeValue value).1 post back →
      Q () (s.typeValue value).2 x') :
    Succeeds (t.insertEquation (Text.trim equation) {}) Q s x := by
  simp only [typeValue, hvalue] at hQ
  refine .bind (.typingState (.ite_neg (by simp [hs]) ?_))
  refine .bind (Attains.applyAlignment_of_lineStart hs (.bind (.typingState ?_)))
  refine .ite_neg (by simp [wantsIndent, hs]) ?_
  rw [Text.trim_trim]
  by_cases hempty : (Text.trim equation).isEmpty
  · rw [if_pos hempty] at hQ
    exact .ite_pos hempty (.updateState (hQ x hx))
  · rw [if_neg hempty] at hQ
    refine .ite_neg hempty (.bind (succeeds_insertObject hx _ fun x' hx' => ?_))
    exact .ite_neg Bool.false_ne_true (.updateState (hQ x' hx'))

theorem succeeds_fillCell (alignCenter : Bool) (value : Text)
    (hx : x.InCell front cols pre [] post back) (hs : s.lineStart = false)
    {Q : Unit → TypingState → Document → Prop}
    (hQ : ∀ x', x'.InCell front cols pre (s.typeValue value).1 post back →
      Q () (s.typeValue value).2 x') :
    Succeeds (t.fillCell alignCenter value) Q s x := by
  refine .bind (succeeds_cellStyle alignCenter hx fun x' hx' => ?_)
  cases hvalue : Text.stripStart? Typist.equationCellLead value with
  | some equation => exact succeeds_insertEquation hx' hs hvalue hQ
  | none => exact succeeds_insertText hx' hs hvalue hQ

/-! ## Going from cell to cell -/

theorem succeeds_tableLeft (n : Nat) (hx : x.InCell front cols (pre ++ List.replicate n []) []
      post back) {Q : Unit → TypingState → Document → Prop}
    (hQ : ∀ x', x'.InCell front cols pre [] (List.replicate n [] ++ post) back → Q () s x') :
    Succeeds (tryRunTimes .tableLeftCell n) Q s x := by
  induction n generalizing post x with
  | zero => exact .pure (hQ x (by simpa using hx))
  | succ n ih =>
    have hcells : pre ++ List.replicate (n + 1) [] ++ [] :: post =
        pre ++ List.replicate n [] ++ [] :: ([] :: post) := by
      rw [List.replicate_succ']
      simp
    refine .bind (.discard (succeeds_run hx (hx.buffer.moveCells hcells ?_) fun x' hx' => ?_))
    · simp
    · refine ih hx' fun x' hx' => hQ x' ?_
      rwa [List.replicate_succ', List.append_assoc]

/-! ## Filling rows -/

/-- A row is filled from its first cell on; as many moves to the right as there were lead to the
    cell where the cursor ends. -/
theorem succeeds_fillRow (alignCenter : Bool) {left n : Nat} {values : List Text}
    (hx : x.InCell front cols pre [] (List.replicate n []) back) (hs : s.lineStart = false)
    (hleft : left ≤ n + 1) {Q : Nat → TypingState → Document → Prop}
    (hQ : ∀ moves pre' cell post x', moves ≤ left - 1 → pre'.length = pre.length + moves →
      pre' ++ cell :: post = pre ++ ((s.typeValues (values.take left)).1 ++
        List.replicate (n + 1 - (values.take left).length) []) →
      x'.InCell front cols pre' cell post back →
      Q moves (s.typeValues (values.take left)).2 x') :
    Succeeds (t.fillRow alignCenter left values) Q s x := by
  induction left generalizing values n pre x s Q with
  | zero =>
    refine .pure (hQ 0 pre [] (List.replicate n []) x (Nat.zero_le _) rfl ?_ hx)
    simp [typeValues, List.replicate_succ]
  | succ left ih =>
    cases values with
    | nil =>
      refine .pure (hQ 0 pre [] (List.replicate n []) x (Nat.zero_le _) rfl ?_ hx)
      simp [typeValues, List.replicate_succ]
    | cons value values =>
      refine .bind (succeeds_fillCell alignCenter value hx hs fun x₁ hx₁ => ?_)
      have hs₁ := lineStart_typeValue hs value
      -- The last cell is not left; behind every other one the cursor moves to the right.
      by_cases hlast : left = 0
      · subst hlast
        refine .ite_pos rfl (.pure (hQ 0 pre _ (List.replicate n []) x₁ (Nat.zero_le _) rfl ?_ hx₁))
        simp [typeValues]
      · obtain ⟨n, rfl⟩ : ∃ n', n = n' + 1 := ⟨n - 1, by omega⟩
        have hcells : pre ++ (s.typeValue value).1 :: List.replicate (n + 1) [] =
            pre ++ [(s.typeValue value).1] ++ [] :: List.replicate n [] := by
          simp [List.replicate_succ]
        refine .ite_neg hlast (.bind (.discard (succeeds_run hx₁
          (hx₁.buffer.moveCells hcells (by simp)) fun x₂ hx₂ => .bind ?_)))
        refine ih hx₂ hs₁ (by omega) fun moves pre' cell post x' hmoves hlength heq hx' => ?_
        refine .pure (hQ (moves + 1) pre' cell post x' (by omega) ?_ ?_ hx')
        · rw [hlength, List.length_append, List.length_singleton]
          omega
        · rw [heq]
          simp [typeValues]

/-- From the cell where a row ends, the way down and back leads to the first cell of the next row:
    below the row all cells are empty. -/
theorem succeeds_nextRow {n moves : Nat} {before typed : List (List Element)} {next : Typing Unit}
    {Q : Unit → TypingState → Document → Prop}
    (hx : x.InCell front cols pre cell post back)
    (hcells : pre ++ cell :: post = before ++ (typed ++ List.replicate (n + 1 - typed.length) []))
    (hlength : pre.length = before.length + moves) (hmoves : moves < cols)
    (htyped : typed.length ≤ cols) (hn : cols + cols ≤ n + 1)
    (hnext : ∀ x', x'.InCell front cols
      (before ++ (typed ++ List.replicate (cols - typed.length) [])) []
      (List.replicate (n - cols) []) back → Succeeds next Q s x') :
    Succeeds (do
      discard (tryRun .tableLowerCell)
      tryRunTimes .tableLeftCell moves
      next) Q s x := by
  have hbelow : pre ++ cell :: post =
      (before ++ (typed ++ List.replicate (cols - typed.length) []) ++ List.replicate moves []) ++
        [] :: List.replicate (n - moves - cols) [] := by
    rw [hcells]
    simp only [List.append_assoc, ← List.replicate_succ, List.replicate_append_replicate]
    congr 3
    omega
  refine .bind (.discard (succeeds_run hx (hx.buffer.moveCells hbelow ?_) fun x₁ hx₁ =>
    .bind (succeeds_tableLeft moves hx₁ fun x₂ hx₂ => hnext x₂ ?_)))
  · simp only [List.length_append, List.length_replicate, hlength]
    congr 1
    omega
  · have hrest : moves + (n - moves - cols) = n - cols := by omega
    rwa [List.replicate_append_replicate, hrest] at hx₂

/-- Rows are filled from the first cell of the first of them on. -/
theorem succeeds_fillRows (alignCenter : Bool) {left n : Nat} {rows : List (List Text)}
    (hx : x.InCell front cols pre [] (List.replicate n []) back) (hs : s.lineStart = false)
    (hcols : 0 < cols) (hn : n + 1 = (left + 1) * cols)
    {Q : Unit → TypingState → Document → Prop}
    (hQ : ∀ pre' cell post s' x', pre' ++ cell :: post = pre ++ s.typeRows cols (left + 1) rows →
      x'.InCell front cols pre' cell post back → Q () s' x') :
    Succeeds (t.fillRows alignCenter cols (left + 1) rows) Q s x := by
  induction left generalizing rows n pre x s with
  | zero =>
    rw [Nat.zero_add, Nat.one_mul] at hn
    cases rows with
    | nil =>
      refine .pure (hQ pre [] (List.replicate n []) s x ?_ hx)
      simp [typeRows, ← hn, List.replicate_succ]
    | cons row rows =>
      refine .bind (succeeds_fillRow alignCenter hx hs (Nat.le_of_eq hn.symm)
        fun moves pre' cell post x' _ _ heq hx' => ?_)
      refine .ite_pos rfl (.pure (hQ pre' cell post _ x' ?_ hx'))
      rw [heq, typeRows, hn, ← length_typeValues s]
      cases rows <;> simp [typeRows]
  | succ left ih =>
    have hsum : (left + 1 + 1) * cols = (left + 1) * cols + cols := Nat.succ_mul _ _
    have hcols_le : cols ≤ (left + 1) * cols := Nat.le_mul_of_pos_left cols (Nat.succ_pos left)
    cases rows with
    | nil =>
      refine .pure (hQ pre [] (List.replicate n []) s x ?_ hx)
      simp [typeRows, ← hn, List.replicate_succ]
    | cons row rows =>
      refine .bind (succeeds_fillRow alignCenter hx hs (by omega)
        fun moves pre' cell post x₁ hmoves hlength heq hx₁ => ?_)
      have htyped : (s.typeValues (row.take cols)).1.length ≤ cols := by
        rw [length_typeValues]
        exact List.length_take_le _ _
      rw [← length_typeValues s] at heq
      -- Where values are missing, the way to the next row leads over cells that stay empty.
      refine .ite_neg (Nat.succ_ne_zero _) (succeeds_nextRow hx₁ heq hlength (by omega) htyped
        (by omega) fun x₂ hx₂ => ?_)
      refine ih hx₂ (lineStart_typeValues hs (row.take cols)) (by omega)
        fun pre' cell post s' x' heq' hx' => hQ pre' cell post s' x' ?_ hx'
      rw [heq']
      simp [typeRows]

/-! ## Tables -/

theorem succeeds_exitTable {rest : List Element}
    (hx : x.InCell front cols pre cell post (.char '\n' :: rest))
    {Q : Unit → TypingState → Document → Prop}
    (hQ : ∀ x', x'.IsCalm → x'.buffer.Splits
      (front ++ Element.table cols (pre ++ cell :: post) ++ [.char '\n']) rest → Q () s x') :
    Succeeds exitTable Q s x := by
  obtain ⟨hclosed, hleft⟩ := hx.buffer.leaveTable
  obtain ⟨hanswer₁, hb₁⟩ := Document.perform_run hx.calm .closeEx
  have hcalm₁ := hx.calm.perform (.run .closeEx)
  have hclose : (x.buffer.run .closeEx).1 = true := hclosed
  rw [hclose] at hanswer₁
  obtain ⟨hanswer₂, hb₂⟩ := Document.perform_run hcalm₁ .moveDown
  refine .bind (.tryRun trivial hanswer₁ (.ite_pos rfl (.discard (.tryRun trivial hanswer₂ ?_))))
  refine hQ _ (hcalm₁.perform _) ?_
  rw [hb₂, hb₁]
  exact Buffer.Splits.moveDown_lineEnd hleft

end Typing

/-- What stands before a table on a later line that no alignment is asked for. -/
def TypingState.tableIndent (s : TypingState) : Text :=
  if !s.pendingAlignment.isSet && s.wantsIndent then [' '] else []

/-- A table that was typed between two runs holds in its cells what is typed into them, and the
    runs are as they were; the cursor is behind the line of the table, if typing goes on there. -/
structure Buffer.HoldsTable (b : Buffer) (spec : TableSpec) (s : TypingState)
    (front back : List Element) (cells : List (List Element)) : Prop where
  length_cells : cells.length = spec.rows.toNat * spec.cols.toNat
  cells_eq : ∀ r < spec.rows.toNat, ∀ c < spec.cols.toNat, cells[r * spec.cols.toNat + c]? =
    some (TypingState.typedAt spec.cols.toNat spec.cells s.markWritten r c)
  elements : b.elements = front ++ (s.tableIndent.map .char ++
    (Element.table spec.cols.toNat cells ++ (Splits.lineEnd back ++ back)))
  selection : b.selection = none
  behind : spec.exitAfter → ∃ rest, Splits.lineEnd back ++ back = .char '\n' :: rest ∧
    b.Splits (front ++ s.tableIndent.map .char ++ Element.table spec.cols.toNat cells ++
      [.char '\n']) rest

namespace Typing

open TypingState

variable {t : Typist Document} {x : Document} {s : TypingState} {front back : List Element}
  {spec : TableSpec}

/-- Behind the space that may stand before it, a table is put in, filled and left. -/
theorem succeeds_table (rows cols : Nat) (alignCenter exitAfter : Bool)
    (values : List (List Text)) (hcalm : x.IsCalm) (hx : x.buffer.Splits front back)
    (hrows : 0 < rows) (hcols : 0 < cols) (hsize : rows * cols ≤ Document.mostCells) :
    Succeeds (do
      discard (require (.createTable rows cols))
      updateState .markWritten
      discard (bestEffort (.cellFormat { margins := some 0 }))
      t.fillRows alignCenter cols rows values
      if exitAfter then
        exitTable
        discard (tryRun .alignLeft)
        updateState .startLine)
      (fun _ _ x' =>
        x'.buffer.elements = front ++
          (Element.table cols (s.markWritten.typeRows cols rows values) ++
            (Buffer.Splits.lineEnd back ++ back)) ∧ x'.buffer.selection = none ∧
        (exitAfter → ∃ rest, Buffer.Splits.lineEnd back ++ back = .char '\n' :: rest ∧
          x'.buffer.Splits (front ++ Element.table cols (s.markWritten.typeRows cols rows values) ++
            [.char '\n']) rest)) s x := by
  obtain ⟨left, rfl⟩ : ∃ left, rows = left + 1 := ⟨rows - 1, by omega⟩
  obtain ⟨n, hn⟩ : ∃ n, (left + 1) * cols = n + 1 :=
    Nat.exists_eq_succ_of_ne_zero (Nat.mul_ne_zero (Nat.succ_ne_zero left) (Nat.ne_of_gt hcols))
  obtain ⟨rest, hrest⟩ := Buffer.Splits.exists_lineEnd back
  obtain ⟨hcreated, hb₁⟩ := Document.perform_createTable hcalm (hn ▸ Nat.succ_pos n) hsize
  have hx₁ : (x.perform (.createTable (left + 1) cols)).2.InCell front cols [] []
      (List.replicate n []) (.char '\n' :: rest) := by
    refine ⟨hcalm.perform _, ?_⟩
    rw [hb₁, hn, ← hrest]
    exact hx.insertTable_inCell cols n
  obtain ⟨hformatted, hb₂⟩ := Document.perform_cellFormat hx₁.calm
    (by rw [hx₁.buffer.enclosingOpen?]; rfl) { margins := some 0 }
  have hx₂ : Document.InCell _ front cols [] [] (List.replicate n []) (.char '\n' :: rest) :=
    ⟨hx₁.calm.perform (.cellFormat { margins := some 0 }), hb₂ ▸ hx₁.buffer⟩
  refine .bind (.discard (.require trivial hcreated (.bind (.updateState
    (.bind (.discard (.bestEffort trivial hformatted (.bind ?_))))))))
  refine succeeds_fillRows alignCenter hx₂ rfl hcols hn.symm
    fun pre cell post s' x₃ hcells hx₃ => ?_
  rw [List.nil_append] at hcells
  rw [hrest, ← hcells]
  cases exitAfter with
  | false => exact .pure ⟨hx₃.buffer.elements, hx₃.buffer.splits.selection, nofun⟩
  | true =>
    refine .ite_pos rfl (.bind (succeeds_exitTable hx₃ fun x₄ hcalm₄ hx₄ => ?_))
    obtain ⟨hanswer, hb₅⟩ := Document.perform_run hcalm₄ .alignLeft
    refine .bind (.discard (.tryRun trivial hanswer (.updateState ?_)))
    rw [hb₅]
    refine ⟨?_, hx₄.selection, fun _ => ⟨rest, rfl, hx₄⟩⟩
    show x₄.buffer.elements = _
    rw [hx₄.elements]
    simp

theorem succeeds_insertTable (hcalm : x.IsCalm) (hx : x.buffer.Splits front back)
    (hrows : 1 ≤ spec.rows) (hcols : 1 ≤ spec.cols)
    (hsize : spec.rows * spec.cols ≤ Document.mostCells) :
    Succeeds (t.insertTable spec)
      (fun _ _ x' => ∃ cells, x'.buffer.HoldsTable spec s front back cells) s x := by
  obtain ⟨_, _, values, alignCenter, exitAfter⟩ := spec
  obtain ⟨rows, rfl⟩ := Int.eq_ofNat_of_zero_le (Int.le_trans (by decide) hrows)
  obtain ⟨cols, rfl⟩ := Int.eq_ofNat_of_zero_le (Int.le_trans (by decide) hcols)
  have hmost : rows * cols ≤ Document.mostCells := Int.ofNat_le.1 hsize
  have hrows_pos : 0 < rows := Int.ofNat_lt.1 hrows
  have hcols_pos : 0 < cols := Int.ofNat_lt.1 hcols
  have hcells : Document.mostCells < UInt32.size := by decide
  have hrows_le := Nat.le_mul_of_pos_right rows hcols_pos
  have hcols_le := Nat.le_mul_of_pos_left cols hrows_pos
  refine .ite_pos ⟨hrows, Int.ofNat_lt.2 (by omega), hcols, Int.ofNat_lt.2 (by omega)⟩
    (.bind (.typingState ?_))
  have htyped {front' : List Element} {x₁ : Document} (hcalm₁ : x₁.IsCalm)
      (hfront : front' = front ++ s.tableIndent.map .char) (hx₁ : x₁.buffer.Splits front' back) :=
    (succeeds_table (t := t) (s := s) rows cols alignCenter exitAfter values hcalm₁ hx₁ hrows_pos
      hcols_pos hmost).mono fun _ _ x' ⟨helements, hselection, hbehind⟩ =>
        show ∃ cells, x'.buffer.HoldsTable ⟨rows, cols, values, alignCenter, exitAfter⟩ s front back
            cells from
          ⟨_, length_typeRows _ _ _ _, fun r hr c hc => getElem?_typeRows _ _ hr hc,
            by rw [helements, hfront, List.append_assoc]; rfl, hselection, hfront ▸ hbehind⟩
  unfold tableIndent at htyped
  by_cases hindent : (!s.pendingAlignment.isSet && s.wantsIndent) = true
  · rw [if_pos hindent] at htyped
    obtain ⟨hanswer, hb₁⟩ := Document.perform_insertText hcalm [' ']
    refine .ite_pos hindent (.bind (.write nofun (fun _ => trivial) (fun _ => hanswer) fun _ => ?_))
    exact htyped (hcalm.perform _) rfl (hb₁ ▸ hx.insert _)
  · rw [if_neg hindent] at htyped
    exact .ite_neg hindent (htyped hcalm (List.append_nil front).symm hx)

end Typing

/-- A table that is typed into a document that nobody disturbs, with nothing selected and the cursor
    anywhere, has each value in its cell, whatever was typed before and however long the rows
    are. -/
theorem Document.apply_insertTable (c : Connection) (settings : Settings)
    (convert : Text → Nat → Text) {desk : Desk Document} {spec : TableSpec}
    {front back : List Element} (hcalm : desk.target.IsCalm) (htoken : desk.token.IsFree)
    (hcursor : desk.target.buffer.Splits front back) (hrows : 1 ≤ spec.rows)
    (hcols : 1 ≤ spec.cols) (hsize : spec.rows * spec.cols ≤ mostCells) :
    ∃ desk' cells, (typist c settings convert).apply (.insertTable spec) desk = (.ok (), desk') ∧
      desk'.target.buffer.HoldsTable spec desk.state front back cells := by
  have htable : Typing.Succeeds ((typist c settings convert).operation (.insertTable spec)) _
      desk.state desk.target :=
    .operation (Typing.succeeds_insertTable hcalm hcursor hrows hcols hsize)
  obtain ⟨_, s', x', hrun, cells, hholds⟩ := Typing.Succeeds.carryOut htable c htoken
  exact ⟨_, cells, hrun, hholds⟩

/-- A table with a row that is too long and a row that is too short. -/
def raggedTable : TableSpec where
  rows := 2
  cols := 2
  cells := [["EQ: x ".toList, " y".toList, "w".toList], ["z".toList]]
  alignCenter := true
  exitAfter := true

/-- A document with the cursor in the first cell of a table, at the start of a later line. -/
def Document.atNestedLine : Desk Document where
  target := { name := "doc".toList, buffer := ⟨Element.ofMarkup "a[b|c]".toList, 3, none⟩ }
  state := { hasWrittenFirstLine := true }

theorem Document.apply_insertTable_ragged :
    ∃ desk' cells, (typist {} {} fun latex _ => latex).apply (.insertTable raggedTable)
        atNestedLine = (.ok (), desk') ∧
      desk'.target.buffer.HoldsTable raggedTable atNestedLine.state
        (Element.ofMarkup "a[b".toList) (Element.ofMarkup "|c]".toList) cells :=
  apply_insertTable {} {} (fun latex _ => latex) ⟨rfl, rfl⟩ ⟨rfl, rfl⟩ ⟨rfl, rfl, rfl⟩
    (by decide) (by decide) (by decide)

/-- The space behind the equation is dropped, as it is in a line. -/
example : ((Document.typist {} {} fun latex _ => latex).apply (.insertTable raggedTable)
    Document.atNestedLine).2.target.buffer.text = "a[b [$x$|y|z|]\n|c]".toList := by
  decide +kernel

end Scribe
