import Scribe.Proofs.Document.Splices

set_option autoImplicit false

/-! # Selections of documents

A document in memory is proper when its cursor stands in it, and when nothing is selected, or a
text, or a single equation. Main statement: calls leave a document proper, and a selection comes
from the call that made it: a search that found its text, or the creation of an equation. -/

namespace Scribe

/-! ## Places in runs of elements -/

namespace Element

theorem spells_iff_prefix {needle : Text} {es : List Element} :
    spells needle es ↔ needle.map .char <+: es := by
  induction needle generalizing es with
  | nil => simp [spells]
  | cons c needle ih =>
    rcases es with _ | ⟨e, es⟩
    · simp [spells]
    · cases e <;> simp [spells, List.cons_prefix_cons, ih]

theorem prefix_of_firstSpelling? {needle : Text} {es : List Element} {i : Nat}
    (h : firstSpelling? needle es = some i) : needle.map .char <+: es.drop i := by
  induction es generalizing i with
  | nil => cases h
  | cons e es ih =>
    rw [firstSpelling?] at h
    split at h
    · obtain rfl := Option.some.inj h
      exact spells_iff_prefix.1 ‹_›
    · obtain ⟨j, hj, rfl⟩ := Option.map_eq_some_iff.1 h
      exact ih hj

theorem firstSpelling?_eq_none_of_lt {needle : Text} {es : List Element}
    (h : es.length < needle.length) : firstSpelling? needle es = none := by
  cases hfirst : firstSpelling? needle es with
  | none => rfl
  | some i =>
    have hlen := (prefix_of_firstSpelling? hfirst).length_le
    rw [List.length_map, List.length_drop] at hlen
    omega

theorem prefix_of_lastSpelling? {needle : Text} {count i : Nat} {es : List Element}
    (h : lastSpelling? needle count es = some i) : needle.map .char <+: es.drop i :=
  spells_iff_prefix.1 (List.find?_some (p := fun i => spells needle (es.drop i)) h)

theorem closeOffset?_lt {depth i : Nat} {es : List Element} (h : closeOffset? depth es = some i) :
    i < es.length := by
  fun_induction closeOffset? depth es generalizing i with
  | case1 => cases h
  | case3 =>
    obtain rfl := Option.some.inj h
    exact Nat.zero_lt_succ _
  | _ =>
    rename_i ih
    obtain ⟨j, hj, rfl⟩ := Option.map_eq_some_iff.1 h
    exact Nat.succ_lt_succ (ih hj)

theorem openOffset?_lt {depth i : Nat} {es : List Element} (h : openOffset? depth es = some i) :
    i < es.length := by
  fun_induction openOffset? depth es generalizing i with
  | case1 => cases h
  | case3 =>
    obtain rfl := Option.some.inj h
    exact Nat.zero_lt_succ _
  | _ =>
    rename_i ih
    obtain ⟨j, hj, rfl⟩ := Option.map_eq_some_iff.1 h
    exact Nat.succ_lt_succ (ih hj)

theorem le_of_mem_breakPlaces {place depth i : Nat} {es : List Element}
    (h : i ∈ breakPlaces place depth es) : i ≤ place + es.length := by
  fun_induction breakPlaces place depth es with
  | case1 | case3 => cases h
  | case5 place es ih =>
    rw [List.length_cons]
    rcases List.mem_cons.1 h with rfl | h
    · omega
    · have := ih h
      omega
  | _ =>
    rename_i ih
    have := ih h
    rw [List.length_cons]
    omega

theorem lt_of_mem_breakPlaces {place depth i : Nat} {es : List Element}
    (h : i ∈ breakPlaces place depth es) : place < i := by
  fun_induction breakPlaces place depth es with
  | case1 | case3 => cases h
  | case5 place es ih =>
    rcases List.mem_cons.1 h with rfl | h
    · exact Nat.lt_succ_self place
    · exact Nat.lt_of_succ_lt (ih h)
  | _ =>
    rename_i ih
    exact Nat.lt_of_succ_lt (ih h)

theorem lineOffset_le (depth : Nat) (es : List Element) : lineOffset depth es ≤ es.length := by
  fun_induction lineOffset depth es <;> simp only [List.length_cons, List.length_nil] <;> omega

end Element

/-! ## Proper buffers -/

namespace Buffer

/-- The elements are selected, and they stand from `start` on. -/
structure Selects (b : Buffer) (start : Nat) (es : List Element) : Prop where
  selection : b.selection = some (start, start + es.length)
  stands : es <+: b.elements.drop start

/-- The same elements, and the same of them selected. -/
structure SameSelected (b b' : Buffer) : Prop where
  elements : b.elements = b'.elements
  selection : b.selection = b'.selection

theorem SameSelected.refl (b : Buffer) : b.SameSelected b := ⟨rfl, rfl⟩

theorem SameSelected.symm {b b' : Buffer} (h : b.SameSelected b') : b'.SameSelected b :=
  ⟨h.elements.symm, h.selection.symm⟩

theorem SameSelected.trans {b b' b'' : Buffer} (h : b.SameSelected b') (h' : b'.SameSelected b'') :
    b.SameSelected b'' := ⟨h.elements.trans h'.elements, h.selection.trans h'.selection⟩

theorem Selects.of_sameSelected {b b' : Buffer} {start : Nat} {es : List Element}
    (h : b.Selects start es) (hsame : b.SameSelected b') : b'.Selects start es :=
  ⟨hsame.selection ▸ h.selection, hsame.elements ▸ h.stands⟩

/-- What is selected, if anything: a text, or a single equation. -/
inductive IsSelectable : List Element → Prop
  | text {needle : Text} : needle ≠ [] → IsSelectable (needle.map .char)
  | equation (text : Text) : IsSelectable [.equation text]

/-- The cursor stands in the contents, and what is selected is a text or an equation. -/
structure IsProper (b : Buffer) : Prop where
  cursor_le : b.cursor ≤ b.elements.length
  selection : b.selection = none ∨ ∃ start es, b.Selects start es ∧ IsSelectable es

/-- The cursor and the selection lie within the elements, and the selection is not empty. -/
structure IsWithin (b : Buffer) : Prop where
  cursor_le : b.cursor ≤ b.elements.length
  selection : ∀ start stop, b.selection = some (start, stop) →
    start < stop ∧ stop ≤ b.elements.length

variable {b b' : Buffer} {start : Nat} {es : List Element}

theorem Selects.le_length (h : b.Selects start es) (hne : es ≠ []) :
    start + es.length ≤ b.elements.length := by
  have hlen := h.stands.length_le
  have hpos := List.length_pos_iff.2 hne
  rw [List.length_drop] at hlen
  omega

/-- What is selected is one run of elements. -/
theorem Selects.unique {start' : Nat} {es' : List Element} (h : b.Selects start es)
    (h' : b.Selects start' es') : es = es' := by
  have hspan := h.selection.symm.trans h'.selection
  simp only [Option.some.injEq, Prod.mk.injEq] at hspan
  obtain ⟨rfl, hlen⟩ := hspan
  have hlength : es.length = es'.length := by omega
  exact (List.prefix_of_prefix_length_le h.stands h'.stands (Nat.le_of_eq hlength)).eq_of_length
    hlength

theorem IsSelectable.ne_nil (h : IsSelectable es) : es ≠ [] := by
  cases h with
  | text h => simpa using h
  | equation text => simp

theorem IsProper.isWithin (h : b.IsProper) : b.IsWithin := by
  refine ⟨h.cursor_le, fun start stop hspan => ?_⟩
  rcases h.selection with hnone | ⟨start', es, hes, hselectable⟩
  · cases hnone.symm.trans hspan
  · obtain ⟨rfl, rfl⟩ := Prod.mk.inj (Option.some.inj (hes.selection.symm.trans hspan))
    have hpos := List.length_pos_iff.2 hselectable.ne_nil
    exact ⟨by omega, hes.le_length hselectable.ne_nil⟩

theorem IsProper.hasOrderedSelection (h : b.IsProper) : b.HasOrderedSelection :=
  fun start stop hs => Nat.le_of_lt (h.isWithin.selection start stop hs).1

/-! ## Deleting and inserting -/

theorem selection_deleteSelection (b : Buffer) : b.deleteSelection.selection = none := by
  unfold deleteSelection
  split
  · rfl
  · assumption

theorem IsWithin.cursor_deleteSelection_le (h : b.IsWithin) :
    b.deleteSelection.cursor ≤ b.deleteSelection.elements.length := by
  unfold Buffer.deleteSelection
  split
  · next start stop hspan =>
    obtain ⟨hlt, hstop⟩ := h.selection start stop hspan
    simp only [cut, List.length_append, List.length_take]
    omega
  · exact h.cursor_le

theorem IsProper.deleteSelection (h : b.IsProper) : b.deleteSelection.IsProper :=
  ⟨h.isWithin.cursor_deleteSelection_le, .inl b.selection_deleteSelection⟩

theorem length_insertAt (b : Buffer) (place : Nat) (es : List Element) :
    (b.insertAt place es).elements.length = b.elements.length + es.length := by
  simp only [insertAt, List.length_append, List.length_take, List.length_drop]
  omega

theorem IsProper.insert (h : b.IsProper) (es : List Element) : (b.insert es).IsProper := by
  refine ⟨?_, .inl b.selection_deleteSelection⟩
  rw [Buffer.insert, length_insertAt]
  exact Nat.add_le_add_right h.deleteSelection.cursor_le _

/-! ## Calls -/

theorem enclosingOpen?_lt (h : b.enclosingOpen? = some start) : start < b.elements.length := by
  obtain ⟨back, hback, rfl⟩ := Option.map_eq_some_iff.1 h
  have hlt := Element.openOffset?_lt hback
  simp only [List.length_reverse, List.length_take] at hlt ⊢
  omega

/-- What a call does to what is selected. -/
inductive Reselects (p : Primitive) (b b' : Buffer) : Prop
  | kept : b'.elements = b.elements → b'.selection = b.selection → Reselects p b b'
  | released : b'.selection = none → Reselects p b b'
  | found {needle : Text} {direction : Direction} {start : Nat} :
    p = .findText needle direction → needle ≠ [] → b'.elements = b.elements →
    b'.Selects start (needle.map .char) → Reselects p b b'
  | created {spec : EquationSpec} {start : Nat} :
    p = .createEquation spec → b'.Selects start [.equation spec.text] → Reselects p b b'

/-- What a call makes of a proper buffer. -/
structure Follows (p : Primitive) (b b' : Buffer) : Prop where
  cursor_le : b'.cursor ≤ b'.elements.length
  reselects : Reselects p b b'

theorem IsProper.of_follows {p : Primitive} (h : b.IsProper) (hb : Follows p b b') :
    b'.IsProper := by
  refine ⟨hb.cursor_le, ?_⟩
  cases hb.reselects with
  | kept helements hselection =>
    rcases h.selection with hnone | ⟨start, es, hes, hselectable⟩
    · exact .inl (hselection.trans hnone)
    · exact .inr ⟨start, es, ⟨hselection.trans hes.selection, helements ▸ hes.stands⟩, hselectable⟩
  | released hnone => exact .inl hnone
  | found _ hne _ hselects => exact .inr ⟨_, _, hselects, .text hne⟩
  | created _ hselects => exact .inr ⟨_, _, hselects, .equation _⟩

namespace IsProper

variable {p : Primitive} (h : b.IsProper)

include h

theorem follows_self : Follows p b b := ⟨h.cursor_le, .kept rfl rfl⟩

theorem follows_insert (es : List Element) : Follows p b (b.insert es) :=
  ⟨(h.insert es).cursor_le, .released b.selection_deleteSelection⟩

theorem follows_deleteFrom (start? : Option Nat) : Follows p b (b.deleteFrom start?).2 := by
  unfold deleteFrom
  split
  · exact ⟨h.deleteSelection.cursor_le, .released b.selection_deleteSelection⟩
  · split
    · refine ⟨?_, .released rfl⟩
      simp only [cut, List.length_append, List.length_take]
      omega
    · exact h.follows_self
  · exact h.follows_self

theorem follows_moveToCell : Follows p b b.moveToCell.2 := by
  unfold moveToCell
  split
  · exact h.follows_self
  · next back hback =>
    refine ⟨?_, .released rfl⟩
    have hstart : (b.elements.take b.cursor).length - 1 - back + 1 ≤ b.elements.length := by
      have hlt := (List.findIdx?_eq_some_iff_findIdx_eq.1 hback).1
      simp only [List.length_reverse, List.length_take] at hlt ⊢
      omega
    generalize (b.elements.take b.cursor).length - 1 - back = start at hstart ⊢
    simp only [goTo]
    split
    · next place hplace =>
      rw [cellStarts, List.getElem?_cons_succ] at hplace
      have hle := Element.le_of_mem_breakPlaces (List.mem_of_getElem? hplace)
      rw [List.length_drop] at hle
      show place - 1 ≤ b.elements.length
      omega
    · rw [close?]
      cases hclose : Element.closeOffset? 0 (b.elements.drop (start + 1)) with
      | none => simp
      | some i =>
        have hlt := Element.closeOffset?_lt hclose
        rw [List.length_drop] at hlt
        show start + 1 + i ≤ b.elements.length
        omega

theorem follows_leaveTable : Follows p b b.leaveTable.2 := by
  unfold leaveTable
  split
  · next close hclose =>
    obtain ⟨start, -, hstart⟩ := Option.bind_eq_some_iff.1 hclose
    obtain ⟨i, hi, rfl⟩ := Option.map_eq_some_iff.1 hstart
    have hlt := Element.closeOffset?_lt hi
    rw [List.length_drop] at hlt
    exact ⟨by simp only [goTo]; omega, .released rfl⟩
  · exact h.follows_self

theorem follows_moveCells (target : Nat → Nat → Option Nat) :
    Follows p b (b.moveCells target).2 := by
  refine ⟨?_, .kept (b.moveCells_keeps target).1 (b.moveCells_keeps target).2⟩
  unfold moveCells
  split
  · exact h.cursor_le
  · next start hstart =>
    have hlt := enclosingOpen?_lt hstart
    split
    · dsimp only
      split
      · next place hplace =>
        obtain ⟨i, -, hi⟩ := Option.bind_eq_some_iff.1 hplace
        rcases List.mem_cons.1 (List.mem_of_getElem? hi) with rfl | hmem
        · exact hlt
        · have hle := Element.le_of_mem_breakPlaces hmem
          rw [List.length_drop] at hle
          show place ≤ b.elements.length
          omega
      · exact h.cursor_le
    · exact h.cursor_le

theorem follows_find (needle : Text) (direction : Direction) :
    Follows (.findText needle direction) b (b.find needle direction).2 := by
  unfold find
  split
  · exact h.follows_self
  · next hne =>
    have hneedle : needle ≠ [] := by simpa using hne
    split <;> split
    · next offset hoffset =>
      have hselects : ({ b with
          cursor := b.cursor + offset + needle.length
          selection := some (b.cursor + offset, b.cursor + offset + needle.length) } :
          Buffer).Selects (b.cursor + offset) (needle.map .char) :=
        ⟨by simp, by simpa using Element.prefix_of_firstSpelling? hoffset⟩
      have hle := hselects.le_length (by simpa using hneedle)
      rw [List.length_map] at hle
      exact ⟨hle, .found rfl hneedle rfl hselects⟩
    · exact h.follows_self
    · next start hstart =>
      have hselects : ({ b with
          cursor := start, selection := some (start, start + needle.length) } :
          Buffer).Selects start (needle.map .char) :=
        ⟨by simp, Element.prefix_of_lastSpelling? hstart⟩
      have hle := hselects.le_length (by simpa using hneedle)
      exact ⟨Nat.le_trans (Nat.le_add_right _ _) hle, .found rfl hneedle rfl hselects⟩
    · exact h.follows_self

theorem follows_run (command : Command) : Follows (.run command) b (b.run command).2 := by
  cases command with
  | breakPara => exact h.follows_insert _
  | moveDocBegin => exact ⟨Nat.zero_le _, .released rfl⟩
  | moveDown =>
    have hle := Element.lineOffset_le 0 (b.elements.drop b.cursor)
    have hcursor := h.cursor_le
    rw [List.length_drop] at hle
    exact ⟨by simp only [run, goTo]; omega, .released rfl⟩
  | moveRight => exact ⟨Nat.min_le_right _ _, .released rfl⟩
  | moveToCell => exact h.follows_moveToCell
  | closeEx => exact h.follows_leaveTable
  | tableRightCell | tableLeftCell | tableLowerCell => exact h.follows_moveCells _
  | delete | deleteBack => exact h.follows_deleteFrom _
  | cancel => exact ⟨h.cursor_le, .released rfl⟩
  | _ => exact h.follows_self

theorem follows_insertTable (cols cells : Nat) :
    Follows p b (b.insertTable cols cells) := by
  refine ⟨?_, .released b.selection_deleteSelection⟩
  have hle := h.deleteSelection.cursor_le
  simp only [insertTable, length_insertAt, List.length_append, List.length_cons]
  omega

theorem follows_insertEquation (spec : EquationSpec) :
    Follows (.createEquation spec) b (b.insertEquation spec.text) := by
  have hle := h.deleteSelection.cursor_le
  refine ⟨?_, .created rfl ⟨rfl, ?_⟩⟩
  · rw [insertEquation]
    simp only [length_insertAt]
    exact Nat.le_trans hle (Nat.le_add_right _ _)
  · simp only [insertEquation, insertAt]
    rw [List.append_assoc, List.drop_append_of_le_length (by simp [hle])]
    simp

end IsProper

/-- A search that finds its text selects it. -/
theorem selects_of_find {needle : Text} {direction : Direction}
    (h : (b.find needle direction).1 = true) :
    ∃ start, (b.find needle direction).2.Selects start (needle.map .char) := by
  revert h
  unfold find
  split
  · exact nofun
  · split <;> split
    · next offset hoffset =>
      exact fun _ => ⟨_, by rw [List.length_map],
        by simpa using Element.prefix_of_firstSpelling? hoffset⟩
    · exact nofun
    · next start hstart =>
      exact fun _ => ⟨_, by rw [List.length_map], Element.prefix_of_lastSpelling? hstart⟩
    · exact nofun

/-- A text that is longer than the contents is not found in them. -/
theorem IsWithin.find_of_length_lt (h : b.IsWithin) {needle : Text}
    (hlong : b.elements.length < needle.length) (direction : Direction) :
    b.find needle direction = (false, b) := by
  have hcursor := h.cursor_le
  unfold find
  split
  · rfl
  · cases direction with
    | forward =>
      have hlen : (b.elements.drop b.cursor).length < needle.length := by
        rw [List.length_drop]
        omega
      simp only [Element.firstSpelling?_eq_none_of_lt hlen]
    | backward =>
      have hcount : b.cursor + 1 - needle.length = 0 := by omega
      simp [hcount, Element.lastSpelling?]

end Buffer

/-! ## Documents -/

namespace Document

open Buffer

variable {doc z : Document} {p : Primitive}

theorem follows_effect (h : doc.buffer.IsProper) (p : Primitive) :
    Follows p doc.buffer (doc.effect p).2.buffer := by
  cases p with
  | insertText text => exact h.follows_insert _
  | run command =>
    have hrun := h.follows_run command
    cases command <;> exact hrun
  | createTable rows cols =>
    simp only [effect]
    split
    · exact h.follows_insertTable _ _
    · exact h.follows_self
  | createEquation spec => exact h.follows_insertEquation spec
  | insertFragment path =>
    simp only [effect]
    split
    · exact h.follows_insert _
    · exact h.follows_self
  | findText needle direction => exact h.follows_find needle direction
  | cellFormat format | objectAnchor treatAsChar =>
    simp only [effect]
    split <;> exact h.follows_self
  | charShape shape | paraShape shape => exact h.follows_self

/-- What a call makes of a proper document. -/
theorem follows_perform (h : doc.buffer.IsProper) (p : Primitive) :
    Follows p doc.buffer (doc.perform p).2.buffer := by
  rcases doc.perform_cases p with ⟨y, hy, -, hp⟩ | ⟨e, -, -, hsame⟩
  · rw [hp, hy.buffer]
    exact follows_effect (hy.buffer ▸ h) p
  · rw [← hsame.buffer]
    exact h.follows_self

theorem isProper_perform (h : doc.buffer.IsProper) (p : Primitive) :
    (doc.perform p).2.buffer.IsProper := h.of_follows (follows_perform h p)

theorem effect_of_error {e : TargetError} (h : (doc.effect p).1 = .error e) :
    (doc.effect p).2 = doc := by
  cases p with
  | run command => cases command <;> cases h
  | createTable _ _ | cellFormat _ | objectAnchor _ | insertFragment _ =>
    revert h
    simp only [effect]
    split
    · intro h
      cases h
    · exact fun _ => rfl
  | _ => cases h

/-- A call that fails changes nothing. -/
theorem sameContents_of_error {e : TargetError} (h : doc.perform p = (.error e, z)) :
    doc.SameContents z := by
  rcases doc.perform_cases p with ⟨y, hy, -, hp⟩ | ⟨e', -, -, hsame⟩
  · have heffect : y.effect p = (.error e, z) := hp.symm.trans h
    have hz : z = y := by
      rw [← effect_of_error (congrArg Prod.fst heffect), heffect]
    rwa [hz]
  · rwa [h] at hsame

/-- A call that does not fail does what it does when it is let through. -/
theorem exists_effect_of_ok {found : Bool} (h : doc.perform p = (.ok found, z)) :
    ∃ y : Document, doc.SameContents y ∧ y.effect p = (.ok found, z) := by
  rcases doc.perform_cases p with ⟨y, hy, -, hp⟩ | ⟨e, -, herror, -⟩
  · exact ⟨y, hy, hp.symm.trans h⟩
  · rw [h] at herror
    cases herror

end Document

end Scribe
