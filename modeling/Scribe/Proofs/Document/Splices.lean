import Scribe.Proofs.Document.Faults

set_option autoImplicit false

/-! # Edits of documents

Every call edits the contents of a document in one place: a run of elements gives way to another
one. An element outside that run can be followed through the edit, and through any number of edits
one after another. -/

namespace Scribe

/-! ## Splices -/

/-- An edit of a run of elements: from `start` on, so many elements give way to others. -/
structure Splice where
  start : Nat := 0
  removed : Nat := 0
  inserted : List Element := []

namespace Splice

variable {p : Splice} {ps : List Splice} {es : List Element} {i i' j j' : Nat} {e : Element}

/-- The elements behind an edit. -/
def apply (p : Splice) (es : List Element) : List Element :=
  es.take p.start ++ p.inserted ++ es.drop (p.start + p.removed)

/-- Where the element at a place stands behind an edit, unless it was removed. -/
def follow? (p : Splice) (i : Nat) : Option Nat :=
  if i < p.start then some i
  else if i < p.start + p.removed then none
  else some (i - p.removed + p.inserted.length)

@[simp] theorem apply_idle (es : List Element) : apply {} es = es := by simp [apply]

theorem follow?_eq_none : p.follow? i = none ↔ p.start ≤ i ∧ i < p.start + p.removed := by
  unfold follow?
  split
  · simp; omega
  · split <;> simp <;> omega

/-- An element that is not removed is the same behind the edit. -/
theorem getElem?_apply (h : p.follow? i = some j) (hi : es[i]? = some e) :
    (p.apply es)[j]? = some e := by
  have hlen : i < es.length := List.getElem?_eq_some_iff.1 hi |>.1
  unfold follow? at h
  unfold apply
  split at h
  · obtain rfl := Option.some.inj h
    rw [List.append_assoc, List.getElem?_append_left (by simp; omega), List.getElem?_take_of_lt ‹_›,
      hi]
  · split at h
    · cases h
    · obtain rfl := Option.some.inj h
      rw [List.getElem?_append_right (by simp; omega), List.getElem?_drop, ← hi]
      congr 1
      simp
      omega

theorem lt_of_follow? (hi : p.follow? i = some j) (hi' : p.follow? i' = some j') (h : i < i') :
    j < j' := by
  unfold follow? at hi hi'
  split at hi
  · cases hi
    split at hi'
    · cases hi'; exact h
    · split at hi' <;> cases hi'
      omega
  · split at hi <;> cases hi
    split at hi'
    · omega
    · split at hi' <;> cases hi'
      omega

/-! ## Edits in order -/

/-- The elements behind edits one after another. -/
def applyAll (ps : List Splice) (es : List Element) : List Element :=
  ps.foldl (fun es p => p.apply es) es

/-- Where the element at a place stands behind edits one after another, unless it was removed. -/
def followAll? : List Splice → Nat → Option Nat
  | [], i => some i
  | p :: ps, i => (p.follow? i).bind (followAll? ps)

theorem getElem?_applyAll (h : followAll? ps i = some j) (hi : es[i]? = some e) :
    (applyAll ps es)[j]? = some e := by
  induction ps generalizing es i with
  | nil =>
    obtain rfl := Option.some.inj h
    exact hi
  | cons p ps ih =>
    obtain ⟨k, hk, hj⟩ := Option.bind_eq_some_iff.1 h
    exact ih hj (getElem?_apply hk hi)

/-- Elements keep their order. -/
theorem lt_of_followAll? (hi : followAll? ps i = some j) (hi' : followAll? ps i' = some j')
    (h : i < i') : j < j' := by
  induction ps generalizing i i' with
  | nil =>
    obtain rfl := Option.some.inj hi
    obtain rfl := Option.some.inj hi'
    exact h
  | cons p ps ih =>
    obtain ⟨k, hk, hj⟩ := Option.bind_eq_some_iff.1 hi
    obtain ⟨k', hk', hj'⟩ := Option.bind_eq_some_iff.1 hi'
    exact ih hj hj' (lt_of_follow? hk hk' h)

/-- An element that is lost is removed by one of the edits. -/
theorem exists_of_followAll?_eq_none (h : followAll? ps i = none) :
    ∃ before q behind, ps = before ++ q :: behind ∧
      ∃ j, followAll? before i = some j ∧ q.start ≤ j ∧ j < q.start + q.removed := by
  induction ps generalizing i with
  | nil => cases h
  | cons p ps ih =>
    rw [followAll?] at h
    cases hp : p.follow? i with
    | none => exact ⟨[], p, ps, rfl, i, rfl, follow?_eq_none.1 hp⟩
    | some k =>
      rw [hp] at h
      obtain ⟨before, q, behind, rfl, j, hj, hq⟩ := ih h
      exact ⟨p :: before, q, behind, rfl, j, by rw [followAll?, hp]; exact hj, hq⟩

end Splice

/-! ## Edits of buffers -/

namespace Buffer

variable (b : Buffer)

/-- The selection, or else the cursor, gives way to elements. -/
def replacing (es : List Element) : Splice :=
  match b.selection with
  | some (start, stop) => ⟨start, stop - start, es⟩
  | none => ⟨b.cursor, 0, es⟩

/-- The selection is deleted, or else one element from `start`. -/
def deleting (start? : Option Nat) : Splice :=
  match b.selection, start? with
  | some (start, stop), _ => ⟨start, stop - start, []⟩
  | none, some start => if start < b.elements.length then ⟨start, 1, []⟩ else {}
  | none, none => {}

/-- The delimiters of a new table, with the end of its line unless one follows already. -/
def tableOf (cols cells : Nat) : List Element :=
  let behind := b.deleteSelection.elements.drop b.deleteSelection.cursor
  .tableOpen cols :: List.replicate (cells - 1) .cellBreak ++ [.tableClose]
    ++ if behind.head? = some (.char '\n') then [] else [.char '\n']

/-- The edit that a call makes, given the fragments. -/
def splice (fragments : List (Text × List Element)) : Primitive → Splice
  | .insertText text => b.replacing (text.map .char)
  | .run .breakPara => b.replacing [.char '\n']
  | .run .delete => b.deleting (some b.cursor)
  | .run .deleteBack => b.deleting (if b.cursor = 0 then none else some (b.cursor - 1))
  | .createTable rows cols =>
    if 1 ≤ rows * cols ∧ rows * cols ≤ Document.mostCells then
      b.replacing (b.tableOf cols (rows * cols))
    else {}
  | .createEquation spec => b.replacing [.equation spec.text]
  | .insertFragment path =>
    match fragments.lookup (Path.fileName path) with
    | some es => b.replacing es
    | none => {}
  | _ => {}

/-- What is selected is what a call takes out, if it takes anything out. -/
theorem splice_of_selection {start stop : Nat} (hs : b.selection = some (start, stop))
    (fragments : List (Text × List Element)) (p : Primitive) :
    (b.splice fragments p).removed = 0 ∨
      (b.splice fragments p).start = start ∧ (b.splice fragments p).removed = stop - start := by
  have hreplacing (es : List Element) :
      (b.replacing es).start = start ∧ (b.replacing es).removed = stop - start := by
    rw [replacing, hs]
    exact ⟨rfl, rfl⟩
  have hdeleting (start? : Option Nat) :
      (b.deleting start?).start = start ∧ (b.deleting start?).removed = stop - start := by
    unfold deleting
    simp only [hs, and_self]
  cases p with
  | insertText text => exact .inr (hreplacing _)
  | run command =>
    cases command with
    | breakPara => exact .inr (hreplacing _)
    | delete | deleteBack => exact .inr (hdeleting _)
    | _ => exact .inl rfl
  | createTable rows cols =>
    simp only [splice]
    split
    · exact .inr (hreplacing _)
    · exact .inl rfl
  | createEquation spec => exact .inr (hreplacing _)
  | insertFragment path =>
    simp only [splice]
    split
    · exact .inr (hreplacing _)
    · exact .inl rfl
  | _ => exact .inl rfl

/-- The selection does not end before it starts. -/
def HasOrderedSelection : Prop := ∀ start stop, b.selection = some (start, stop) → start ≤ stop

variable {b}

theorem elements_insertAt_deleteSelection (h : b.HasOrderedSelection) (es : List Element) :
    (b.deleteSelection.insertAt b.deleteSelection.cursor es).elements =
      (b.replacing es).apply b.elements := by
  cases hs : b.selection with
  | none => simp [deleteSelection, replacing, hs, insertAt, Splice.apply]
  | some span =>
    obtain ⟨start, stop⟩ := span
    have hle := h start stop hs
    have htake : (b.elements.take start ++ b.elements.drop stop).take start =
        b.elements.take start := by
      rcases Nat.le_total start b.elements.length with hlen | hlen
      · rw [List.take_append_of_le_length (by simp [hlen]), List.take_take, Nat.min_self]
      · rw [List.drop_eq_nil_of_le (Nat.le_trans hlen hle), List.append_nil, List.take_take,
          Nat.min_self]
    have hdrop : (b.elements.take start ++ b.elements.drop stop).drop start =
        b.elements.drop stop := by
      rcases Nat.le_total start b.elements.length with hlen | hlen
      · rw [List.drop_append_of_le_length (by simp [hlen])]
        simp
      · rw [List.drop_eq_nil_of_le (Nat.le_trans hlen hle), List.append_nil, List.drop_take_self]
    simp only [deleteSelection, hs, cut, insertAt, replacing, Splice.apply, htake, hdrop,
      Nat.add_sub_cancel' hle]

theorem elements_insert (h : b.HasOrderedSelection) (es : List Element) :
    (b.insert es).elements = (b.replacing es).apply b.elements :=
  elements_insertAt_deleteSelection h es

theorem elements_deleteFrom (h : b.HasOrderedSelection) (start? : Option Nat) :
    (b.deleteFrom start?).2.elements = (b.deleting start?).apply b.elements := by
  cases hs : b.selection with
  | some span =>
    obtain ⟨start, stop⟩ := span
    simp [deleteFrom, deleting, deleteSelection, hs, cut, Splice.apply,
      Nat.add_sub_cancel' (h start stop hs)]
  | none =>
    cases start? with
    | none => simp [deleteFrom, deleting, hs]
    | some start =>
      simp only [deleteFrom, deleting, hs]
      split <;> simp [cut, Splice.apply]

/-! ## Moves -/

@[simp] theorem elements_goTo (b : Buffer) (place : Nat) : (b.goTo place).elements = b.elements :=
  rfl

@[simp] theorem selection_goTo (b : Buffer) (place : Nat) : (b.goTo place).selection = none := rfl

/-- A move from cell to cell keeps the selection. -/
theorem moveCells_keeps (b : Buffer) (target : Nat → Nat → Option Nat) :
    (b.moveCells target).2.elements = b.elements ∧
      (b.moveCells target).2.selection = b.selection := by
  unfold moveCells
  split
  · exact ⟨rfl, rfl⟩
  · split
    · dsimp only
      split <;> exact ⟨rfl, rfl⟩
    · exact ⟨rfl, rfl⟩

theorem elements_moveToCell (b : Buffer) : b.moveToCell.2.elements = b.elements := by
  unfold moveToCell
  split <;> rfl

theorem elements_leaveTable (b : Buffer) : b.leaveTable.2.elements = b.elements := by
  unfold leaveTable
  split <;> rfl

theorem elements_find (b : Buffer) (needle : Text) (direction : Direction) :
    (b.find needle direction).2.elements = b.elements := by
  unfold find
  split
  · rfl
  · split <;> split <;> rfl

/-- A command that does not edit leaves the contents as they are. -/
theorem elements_run (h : b.HasOrderedSelection) (fragments : List (Text × List Element))
    (command : Command) :
    (b.run command).2.elements = (b.splice fragments (.run command)).apply b.elements := by
  cases command with
  | breakPara => exact elements_insert h _
  | delete => exact elements_deleteFrom h _
  | deleteBack => exact elements_deleteFrom h _
  | moveToCell => exact b.elements_moveToCell.trans (Splice.apply_idle _).symm
  | closeEx => exact b.elements_leaveTable.trans (Splice.apply_idle _).symm
  | tableRightCell | tableLeftCell | tableLowerCell =>
    exact (b.moveCells_keeps _).1.trans (Splice.apply_idle _).symm
  | _ => exact (Splice.apply_idle _).symm

end Buffer

/-! ## Edits of documents -/

namespace Document

/-- The edit that a call makes when it is sent to a document; none when it is not let through. -/
def splice (doc : Document) (p : Primitive) : Splice :=
  match (doc.admission p.action).1 with
  | .ok () => doc.buffer.splice doc.fragments p
  | .error _ => {}

/-- The contents and the fragments are the same. -/
structure SameContents (x y : Document) : Prop where
  buffer : x.buffer = y.buffer
  fragments : x.fragments = y.fragments

theorem SameContents.refl (doc : Document) : doc.SameContents doc := ⟨rfl, rfl⟩

theorem SameContents.trans {x y z : Document} (hxy : x.SameContents y) (hyz : y.SameContents z) :
    x.SameContents z := ⟨hxy.buffer.trans hyz.buffer, hxy.fragments.trans hyz.fragments⟩

theorem sameContents_admission (doc : Document) (action : Text) :
    doc.SameContents (doc.admission action).2 := by
  unfold admission
  split
  · exact ⟨rfl, rfl⟩
  · split <;> exact ⟨rfl, rfl⟩

/-- A call is carried out when it is let through, and changes nothing otherwise. -/
theorem perform_cases (doc : Document) (p : Primitive) :
    (∃ y : Document, doc.SameContents y ∧ (doc.admission p.action).1 = .ok () ∧
      doc.perform p = y.effect p) ∨
    (∃ e, (doc.admission p.action).1 = .error e ∧ (doc.perform p).1 = .error e ∧
      doc.SameContents (doc.perform p).2) := by
  have hsame := doc.sameContents_admission p.action
  unfold perform
  rcases hlet : doc.admission p.action with ⟨e | _, y⟩
  · exact .inr ⟨e, rfl, rfl, by rw [hlet] at hsame; exact hsame⟩
  · exact .inl ⟨_, by rw [hlet] at hsame; exact ⟨hsame.buffer, hsame.fragments⟩, rfl, rfl⟩

theorem fragments_effect (doc : Document) (p : Primitive) :
    (doc.effect p).2.fragments = doc.fragments := by
  rcases effect_cases p with ⟨_, h⟩ | ⟨_, h⟩ | ⟨_, h⟩ <;> rw [h]

theorem elements_effect (doc : Document) (h : doc.buffer.HasOrderedSelection) (p : Primitive) :
    (doc.effect p).2.buffer.elements =
      (doc.buffer.splice doc.fragments p).apply doc.buffer.elements := by
  cases p with
  | insertText text => exact Buffer.elements_insert h _
  | run command =>
    have hrun := Buffer.elements_run h doc.fragments command
    cases command <;> exact hrun
  | createTable rows cols =>
    simp only [effect, Buffer.splice]
    split
    · exact Buffer.elements_insertAt_deleteSelection h _
    · exact (Splice.apply_idle _).symm
  | createEquation spec => exact Buffer.elements_insertAt_deleteSelection h _
  | insertFragment path =>
    simp only [effect, Buffer.splice, fragment?]
    cases doc.fragments.lookup (Path.fileName path) with
    | some es => exact Buffer.elements_insert h es
    | none => exact (Splice.apply_idle _).symm
  | findText needle direction =>
    exact (doc.buffer.elements_find _ _).trans (Splice.apply_idle _).symm
  | cellFormat format | objectAnchor treatAsChar =>
    simp only [effect, Buffer.splice, Splice.apply_idle]
    split <;> rfl
  | charShape shape | paraShape shape => exact (Splice.apply_idle _).symm

theorem fragments_perform (doc : Document) (p : Primitive) :
    (doc.perform p).2.fragments = doc.fragments := by
  rcases doc.perform_cases p with ⟨y, hy, -, hp⟩ | ⟨e, -, -, hsame⟩
  · rw [hp, fragments_effect, hy.fragments]
  · exact hsame.fragments.symm

/-- A call edits the contents as its splice says. -/
theorem elements_perform (doc : Document) (h : doc.buffer.HasOrderedSelection) (p : Primitive) :
    (doc.perform p).2.buffer.elements = (doc.splice p).apply doc.buffer.elements := by
  unfold splice
  rcases doc.perform_cases p with ⟨y, hy, hok, hp⟩ | ⟨e, herror, -, hsame⟩
  · rw [hp, hok, elements_effect _ (hy.buffer ▸ h), hy.buffer, hy.fragments]
  · rw [herror, ← hsame.buffer, Splice.apply_idle]

end Document

end Scribe
