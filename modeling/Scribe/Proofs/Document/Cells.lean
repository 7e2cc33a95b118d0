import Scribe.Proofs.Document.Cursors

set_option autoImplicit false

/-! # Cells of a table

The cells of a table are runs with a break between each two. As long as no cell holds a table of its
own, the places of the cells can be told by their lengths, and a move from cell to cell brings the
cursor to the start of the cell that is meant: the cursor is in cell `pre.length` of the table whose
cells are `pre ++ cell :: post`, at the end of `cell`. -/

namespace Scribe

namespace Element

variable {es back : List Element} {pre post cells : List (List Element)} {cell : List Element}
  {cols place : Nat}

/-! ## Runs of cells -/

/-- Cells with the break behind each. -/
def leftCells (cells : List (List Element)) : List Element := cells.flatMap (· ++ [.cellBreak])

/-- Cells with the break before each. -/
def rightCells (cells : List (List Element)) : List Element := cells.flatMap (.cellBreak :: ·)

/-- A table with its cells, row by row. -/
def table (cols : Nat) (cells : List (List Element)) : List Element :=
  .tableOpen cols :: List.intercalate [.cellBreak] cells ++ [.tableClose]

@[simp] theorem leftCells_nil : leftCells [] = [] := rfl

@[simp] theorem leftCells_cons (cell : List Element) (cells : List (List Element)) :
    leftCells (cell :: cells) = cell ++ .cellBreak :: leftCells cells := by
  simp [leftCells]

@[simp] theorem rightCells_nil : rightCells [] = [] := rfl

@[simp] theorem rightCells_cons (cell : List Element) (cells : List (List Element)) :
    rightCells (cell :: cells) = .cellBreak :: (cell ++ rightCells cells) := rfl

theorem intercalate_cons (cell : List Element) (cells : List (List Element)) :
    List.intercalate [.cellBreak] (cell :: cells) = cell ++ rightCells cells := by
  induction cells generalizing cell with
  | nil => simp [List.intercalate]
  | cons next cells ih => rw [List.intercalate_cons_cons, ih, rightCells_cons]; simp

/-- The cells before one, that one, and the cells behind it. -/
theorem intercalate_append (pre : List (List Element)) (cell : List Element)
    (post : List (List Element)) :
    List.intercalate [.cellBreak] (pre ++ cell :: post) =
      leftCells pre ++ (cell ++ rightCells post) := by
  induction pre with
  | nil => exact intercalate_cons cell post
  | cons first pre ih =>
    rw [List.cons_append, intercalate_cons, leftCells_cons, List.append_assoc, List.cons_append,
      ← ih]
    cases pre <;> simp [intercalate_cons]

theorem rightCells_replicate (n : Nat) :
    rightCells (List.replicate n []) = List.replicate n .cellBreak := by
  induction n with
  | zero => rfl
  | succ n ih => rw [List.replicate_succ, rightCells_cons, ih]; rfl

/-! ## Level runs -/

/-- No element of a run opens or closes a table. -/
def AreFlat (es : List Element) : Prop := ∀ e ∈ es, e.isDelimiter = false ∨ e = .cellBreak

theorem AreFlat.isLevel (h : AreFlat es) : IsLevel es := by
  induction es with
  | nil => rfl
  | cons e es ih =>
    have hes : IsLevel es := ih fun e he => h e (List.mem_cons_of_mem _ he)
    have he := h e List.mem_cons_self
    cases e with
    | char _ | equation _ | cellBreak => exact hes
    | tableOpen _ | tableClose => simp [isDelimiter] at he

theorem openOffset?_of_areFlat (h : AreFlat es) (back : List Element) :
    openOffset? 0 (es ++ .tableOpen cols :: back) = some es.length := by
  induction es with
  | nil => rfl
  | cons e es ih =>
    have hes := ih fun e he => h e (List.mem_cons_of_mem _ he)
    have he := h e List.mem_cons_self
    cases e with
    | char _ | equation _ | cellBreak => simp [openOffset?, hes]
    | tableOpen _ | tableClose => simp [isDelimiter] at he

theorem areFlat_leftCells (h : ∀ cell ∈ cells, AreContent cell) : AreFlat (leftCells cells) := by
  intro e he
  obtain ⟨cell, hcell, he⟩ := List.mem_flatMap.1 he
  rcases List.mem_append.1 he with he | he
  · exact .inl (h cell hcell e he)
  · exact .inr (List.mem_singleton.1 he)

theorem areFlat_rightCells (h : ∀ cell ∈ cells, AreContent cell) : AreFlat (rightCells cells) := by
  intro e he
  obtain ⟨cell, hcell, he⟩ := List.mem_flatMap.1 he
  rcases List.mem_cons.1 he with he | he
  · exact .inr he
  · exact .inl (h cell hcell e he)

theorem AreFlat.append {es' : List Element} (h : AreFlat es) (h' : AreFlat es') :
    AreFlat (es ++ es') := fun e he => (List.mem_append.1 he).elim (h e) (h' e)

/-! ## Places -/

/-- The places at which cells begin, where the first one begins at `place`. -/
def cellPlaces (place : Nat) : List (List Element) → List Nat
  | [] => []
  | cell :: cells => place :: cellPlaces (place + cell.length + 1) cells

theorem breakPlaces_of_areContent (h : AreContent es) (back : List Element) :
    breakPlaces place 0 (es ++ back) = breakPlaces (place + es.length) 0 back := by
  induction es generalizing place with
  | nil => rfl
  | cons e es ih =>
    have hes : AreContent es := fun e he => h e (List.mem_cons_of_mem _ he)
    have he := h e List.mem_cons_self
    rw [List.length_cons, Nat.add_comm es.length, ← Nat.add_assoc]
    cases e with
    | char _ | equation _ => exact ih hes
    | tableOpen _ | cellBreak | tableClose => cases he

theorem cellPlaces_eq (h : ∀ c ∈ cell :: cells, AreContent c) (back : List Element) :
    place :: breakPlaces place 0 (cell ++ (rightCells cells ++ .tableClose :: back)) =
      cellPlaces place (cell :: cells) := by
  induction cells generalizing place cell with
  | nil =>
    rw [breakPlaces_of_areContent (h cell List.mem_cons_self)]
    rfl
  | cons next cells ih =>
    rw [breakPlaces_of_areContent (h cell List.mem_cons_self), rightCells_cons, List.cons_append,
      List.append_assoc, cellPlaces, ← ih fun c hc => h c (List.mem_cons_of_mem _ hc)]
    rfl

theorem length_cellPlaces (place : Nat) (cells : List (List Element)) :
    (cellPlaces place cells).length = cells.length := by
  induction cells generalizing place with
  | nil => rfl
  | cons cell cells ih => rw [cellPlaces, List.length_cons, ih, List.length_cons]

theorem cellPlaces_append (place : Nat) (pre post : List (List Element)) :
    cellPlaces place (pre ++ post) =
      cellPlaces place pre ++ cellPlaces (place + (leftCells pre).length) post := by
  induction pre generalizing place with
  | nil => rfl
  | cons cell pre ih =>
    rw [List.cons_append, cellPlaces, cellPlaces, ih, List.cons_append, leftCells_cons,
      List.length_append, List.length_cons]
    congr 3
    omega

theorem le_of_mem_cellPlaces {i : Nat} (h : i ∈ cellPlaces place cells) : place ≤ i := by
  induction cells generalizing place with
  | nil => cases h
  | cons cell cells ih =>
    rcases List.mem_cons.1 h with rfl | h
    · exact Nat.le_refl _
    · have := ih h
      omega

theorem lt_of_mem_cellPlaces {i : Nat} (h : i ∈ cellPlaces place cells) :
    i < place + (leftCells cells).length := by
  induction cells generalizing place with
  | nil => cases h
  | cons cell cells ih =>
    rw [leftCells_cons, List.length_append, List.length_cons]
    rcases List.mem_cons.1 h with rfl | h
    · omega
    · have := ih h
      omega

/-- The place of the cell behind others. -/
theorem getElem?_cellPlaces (place : Nat) (pre : List (List Element)) (cell : List Element)
    (post : List (List Element)) :
    (cellPlaces place (pre ++ cell :: post))[pre.length]? =
      some (place + (leftCells pre).length) := by
  rw [cellPlaces_append, List.getElem?_append_right (Nat.le_of_eq (length_cellPlaces _ _)),
    length_cellPlaces, Nat.sub_self]
  rfl

/-- The cells that begin up to the end of a cell are that one and those before it. -/
theorem length_filter_cellPlaces (place : Nat) (pre : List (List Element)) (cell : List Element)
    (post : List (List Element)) :
    ((cellPlaces place (pre ++ cell :: post)).filter
      (· ≤ place + (leftCells pre).length + cell.length)).length = pre.length + 1 := by
  have hpre : (cellPlaces place pre).filter
      (· ≤ place + (leftCells pre).length + cell.length) = cellPlaces place pre := by
    refine List.filter_eq_self.2 fun i hi => decide_eq_true ?_
    have := lt_of_mem_cellPlaces hi
    omega
  have hpost : (cellPlaces (place + (leftCells pre).length + cell.length + 1) post).filter
      (· ≤ place + (leftCells pre).length + cell.length) = [] := by
    refine List.filter_eq_nil_iff.2 fun i hi => ?_
    have := le_of_mem_cellPlaces hi
    simp only [decide_eq_true_eq]
    omega
  rw [cellPlaces_append, List.filter_append, hpre, cellPlaces, List.filter_cons_of_pos (by simp),
    hpost, List.length_append, length_cellPlaces]
  rfl

end Element

namespace Buffer

open Element

/-! ## The cursor in a cell -/

/-- The cursor is at the end of a cell, and nothing is selected. -/
structure InCell (b : Buffer) (front : List Element) (cols : Nat) (pre : List (List Element))
    (cell : List Element) (post : List (List Element)) (back : List Element) : Prop where
  content : ∀ c ∈ pre ++ cell :: post, AreContent c
  splits : b.Splits (front ++ .tableOpen cols :: (leftCells pre ++ cell))
    (rightCells post ++ .tableClose :: back)

theorem Splits.insertTable_inCell {b : Buffer} {front back : List Element}
    (h : b.Splits front back) (cols n : Nat) :
    (b.insertTable cols (n + 1)).InCell front cols [] [] (List.replicate n [])
      (Splits.lineEnd back ++ back) where
  content c hc := by
    obtain rfl : c = [] := List.eq_of_mem_replicate (n := n + 1) hc
    exact nofun
  splits := by
    rw [rightCells_replicate]
    exact h.insertTable cols (n + 1)

namespace InCell

variable {b : Buffer} {front back cell : List Element} {cols : Nat}
  {pre post pre' post' : List (List Element)}

theorem elements (h : b.InCell front cols pre cell post back) :
    b.elements = front ++ (table cols (pre ++ cell :: post) ++ back) := by
  rw [h.splits.elements, table, intercalate_append]
  simp

theorem areFlat (h : b.InCell front cols pre cell post back) : AreFlat (leftCells pre ++ cell) :=
  (areFlat_leftCells fun c hc => h.content c (List.mem_append_left _ hc)).append fun e he =>
    .inl (h.content cell (by simp) e he)

theorem enclosingOpen? (h : b.InCell front cols pre cell post back) :
    b.enclosingOpen? = some front.length := by
  have hflat : AreFlat (leftCells pre ++ cell).reverse := fun e he =>
    h.areFlat e (List.mem_reverse.1 he)
  rw [Buffer.enclosingOpen?, h.splits.take_cursor, List.reverse_append, List.reverse_cons,
    List.append_assoc, List.singleton_append, openOffset?_of_areFlat hflat, Option.map_some]
  simp only [List.length_append, List.length_cons, List.length_reverse]
  congr 1
  omega

theorem cellStarts (h : b.InCell front cols pre cell post back) :
    b.cellStarts front.length = cellPlaces (front.length + 1) (pre ++ cell :: post) := by
  have hdrop : b.elements.drop (front.length + 1) =
      List.intercalate [.cellBreak] (pre ++ cell :: post) ++ .tableClose :: back := by
    rw [h.splits.drop_enclosing rfl, intercalate_append]
    simp
  obtain ⟨first, cells, hcells⟩ : ∃ first cells, pre ++ cell :: post = first :: cells :=
    List.exists_cons_of_ne_nil (by simp)
  rw [Buffer.cellStarts, hdrop, hcells, intercalate_cons, List.append_assoc,
    cellPlaces_eq (hcells ▸ h.content)]

/-- A move brings the cursor to the start of the cell that it is for. -/
theorem moveCells (h : b.InCell front cols pre cell post back)
    (hcells : pre ++ cell :: post = pre' ++ [] :: post') {target : Nat → Nat → Option Nat}
    (htarget : target pre.length cols = some pre'.length) :
    (b.moveCells target).1 = true ∧
      (b.moveCells target).2.InCell front cols pre' [] post' back := by
  have hopen : b.elements[front.length]? = some (.tableOpen cols) := by
    rw [h.elements]
    simp [table]
  have hcursor : b.cursor = front.length + 1 + (leftCells pre).length + cell.length := by
    rw [h.splits.cursor]
    simp only [List.length_append, List.length_cons]
    omega
  have hplace : (cellPlaces (front.length + 1) (pre ++ cell :: post))[pre'.length]? =
      some (front.length + 1 + (leftCells pre').length) := by
    rw [hcells, getElem?_cellPlaces]
  have hmove : b.moveCells target =
      (true, { b with cursor := front.length + 1 + (leftCells pre').length }) := by
    simp only [Buffer.moveCells, h.enclosingOpen?, hopen, h.cellStarts]
    rw [hcursor, length_filter_cellPlaces, Nat.add_sub_cancel, htarget, Option.bind_some, hplace]
  rw [hmove]
  refine ⟨rfl, hcells ▸ h.content, ?_, ?_, h.splits.selection⟩
  · rw [h.elements, hcells, table, intercalate_append]
    simp
  · simp only [List.length_append, List.length_cons, List.append_nil]
    omega

theorem insert (h : b.InCell front cols pre cell post back) {es : List Element}
    (hes : AreContent es) : (b.insert es).InCell front cols pre (cell ++ es) post back where
  content c hc := by
    simp only [List.mem_append, List.mem_cons] at hc
    rcases hc with hc | rfl | hc
    · exact h.content c (by simp [hc])
    · exact fun e he => (List.mem_append.1 he).elim (h.content cell (by simp) e) (hes e)
    · exact h.content c (by simp [hc])
  splits := by
    have hinsert := h.splits.insert es
    rwa [List.append_assoc, List.cons_append, List.append_assoc] at hinsert

/-- An equation is put into a cell, and the cursor goes behind it. -/
theorem insertEquation (h : b.InCell front cols pre cell post back) (text : Text) :
    (((b.insertEquation text).run .cancel).2.run .moveRight).2.InCell front cols pre
      (cell ++ [.equation text]) post back where
  content := (h.insert (areContent_equation text)).content
  splits := by
    have hinsert := h.splits.insertEquation text
    rwa [List.append_assoc, List.cons_append, List.append_assoc] at hinsert

/-- The table is left behind its closing delimiter. -/
theorem leaveTable (h : b.InCell front cols pre cell post back) :
    b.leaveTable.1 = true ∧
      b.leaveTable.2.Splits (front ++ table cols (pre ++ cell :: post)) back := by
  have hflat : AreFlat (leftCells pre ++ cell ++ rightCells post) :=
    h.areFlat.append (areFlat_rightCells fun c hc => h.content c (by simp [hc]))
  have hclose : b.close? front.length =
      some (front.length + 1 + (leftCells pre ++ cell ++ rightCells post).length) := by
    rw [close?, h.splits.drop_enclosing rfl, ← List.append_assoc,
      closeOffset?_append hflat.isLevel]
    rfl
  have hleave : b.leaveTable = (true, b.goTo
      (front.length + 1 + (leftCells pre ++ cell ++ rightCells post).length + 1)) := by
    simp only [Buffer.leaveTable, h.enclosingOpen?, Option.bind_some, hclose]
  rw [hleave]
  refine ⟨rfl, splits_goTo (by rw [h.elements, List.append_assoc]) ?_⟩
  rw [table, intercalate_append]
  simp only [List.length_append, List.length_cons, List.length_nil]
  omega

end InCell

/-! ## Behind a table -/

/-- Behind a new table its line ends. -/
theorem Splits.exists_lineEnd (back : List Element) :
    ∃ rest, Splits.lineEnd back ++ back = .char '\n' :: rest := by
  unfold Splits.lineEnd
  split
  · next h =>
    obtain ⟨rest, rfl⟩ := List.head?_eq_some_iff.1 h
    exact ⟨rest, rfl⟩
  · exact ⟨back, rfl⟩

/-- A move down from the end of a line passes its break. -/
theorem Splits.moveDown_lineEnd {b : Buffer} {front rest : List Element}
    (h : b.Splits front (.char '\n' :: rest)) :
    (b.run .moveDown).2.Splits (front ++ [.char '\n']) rest :=
  Splits.moveDown (a := [.char '\n']) h rfl

end Buffer

end Scribe
