import Scribe.Proofs.Document.Depth
import Scribe.Proofs.Document.Markers
import Scribe.Proofs.Typing.Composition

set_option autoImplicit false

/-! # Where moves bring the cursor

Typing inserts between the run behind the cursor and the run ahead of it. No move brings the cursor
between two glyphs, so that markers stay whole. In a run that leads out of so many tables, a table
is left into the rest of the run, and other moves stay in the table. -/

namespace Scribe

namespace Element

/-- An element that is no glyph of a marker. -/
def IsApart (e : Element) : Prop := ∀ c, e = .char c → isGlyph c = false

theorem IsClean.isApart {e : Element} (h : e.IsClean) : e.IsApart := by
  rintro c rfl
  exact h

/-- Between two runs, no glyph stands next to another. -/
def Parted (behind ahead : List Element) : Prop :=
  (∀ e ∈ behind.getLast?, e.IsApart) ∨ ∀ e ∈ ahead.head?, e.IsApart

theorem parted_nil (ahead : List Element) : Parted [] ahead := .inl nofun

theorem parted_concat (behind ahead : List Element) {e : Element} (h : e.IsApart) :
    Parted (behind ++ [e]) ahead := by
  refine .inl fun e' he' => ?_
  rw [List.getLast?_concat] at he'
  obtain rfl := Option.some.inj he'
  exact h

theorem parted_cons (behind ahead : List Element) {e : Element} (h : e.IsApart) :
    Parted behind (e :: ahead) := by
  refine .inr fun e' he' => ?_
  obtain rfl := Option.some.inj he'
  exact h

end Element

namespace Buffer

open Element

/-- Nothing is selected, and the cursor stands between two runs. -/
structure Splits (b : Buffer) (behind ahead : List Element) : Prop where
  elements : b.elements = behind ++ ahead
  cursor : b.cursor = behind.length
  selection : b.selection = none

variable {b : Buffer} {behind ahead a rest : List Element} {d : Nat}

theorem splits_goTo (h : b.elements = behind ++ ahead) {place : Nat}
    (hplace : place = behind.length) : (b.goTo place).Splits behind ahead := ⟨h, hplace, rfl⟩

theorem splits_begin (b : Buffer) : (b.goTo 0).Splits [] b.elements := ⟨rfl, rfl, rfl⟩

namespace Splits

theorem take_cursor (h : b.Splits behind ahead) : b.elements.take b.cursor = behind := by
  rw [h.elements, h.cursor, List.take_left]

theorem drop_cursor (h : b.Splits behind ahead) : b.elements.drop b.cursor = ahead := by
  rw [h.elements, h.cursor, List.drop_left]

theorem isProper (h : b.Splits behind ahead) : b.IsProper :=
  ⟨by rw [h.cursor, h.elements, List.length_append]; omega, .inl h.selection⟩

/-! ## Editing -/

theorem deleteSelection (h : b.Splits behind ahead) : b.deleteSelection = b := by
  rw [Buffer.deleteSelection, h.selection]

theorem insert (h : b.Splits behind ahead) (es : List Element) :
    (b.insert es).Splits (behind ++ es) ahead where
  elements := by simp [Buffer.insert, insertAt, h.deleteSelection, h.take_cursor, h.drop_cursor]
  cursor := by simp [Buffer.insert, h.deleteSelection, h.cursor]
  selection := by simp [Buffer.insert, insertAt, h.deleteSelection, h.selection]

/-- What ends the line behind a new table. -/
def lineEnd (ahead : List Element) : List Element :=
  if ahead.head? = some (.char '\n') then [] else [.char '\n']

theorem insertTable (h : b.Splits behind ahead) (cols cells : Nat) :
    (b.insertTable cols cells).Splits (behind ++ [.tableOpen cols])
      (List.replicate (cells - 1) .cellBreak ++ .tableClose :: (lineEnd ahead ++ ahead)) where
  elements := by
    simp [Buffer.insertTable, insertAt, h.deleteSelection, h.take_cursor, h.drop_cursor, lineEnd]
  cursor := by simp [Buffer.insertTable, h.deleteSelection, h.cursor]
  selection := by simp [Buffer.insertTable, insertAt, h.deleteSelection, h.selection]

/-- An equation is put in ahead of the cursor and becomes the selection; then it is passed. -/
theorem insertEquation (h : b.Splits behind ahead) (text : Text) :
    (((b.insertEquation text).run .cancel).2.run .moveRight).2.Splits
      (behind ++ [.equation text]) ahead := by
  have helements : (b.insertEquation text).elements = behind ++ [.equation text] ++ ahead := by
    simp [Buffer.insertEquation, insertAt, h.deleteSelection, h.take_cursor, h.drop_cursor]
  have hcursor : (b.insertEquation text).cursor = behind.length := by
    simp [Buffer.insertEquation, insertAt, h.deleteSelection, h.cursor]
  refine splits_goTo helements ?_
  simp only [run, hcursor, helements, List.length_append, List.length_singleton]
  omega

end Splits

/-! ## Searching -/

/-- A run is selected. -/
structure Picks (b : Buffer) (behind es ahead : List Element) : Prop where
  elements : b.elements = behind ++ (es ++ ahead)
  selection : b.selection = some (behind.length, behind.length + es.length)

theorem Picks.deleteFrom {es : List Element} (h : b.Picks behind es ahead) (start : Option Nat) :
    (b.deleteFrom start).1 = true ∧ (b.deleteFrom start).2.Splits behind ahead := by
  have hdelete : b.deleteFrom start = (true, b.cut behind.length (behind.length + es.length)) := by
    simp [Buffer.deleteFrom, h.selection, Buffer.deleteSelection]
  rw [hdelete]
  refine ⟨rfl, ?_, rfl, rfl⟩
  show b.elements.take _ ++ b.elements.drop _ = _
  rw [h.elements, List.take_left, ← List.append_assoc, ← List.length_append, List.drop_left]

theorem find_eq_of_none {needle : Text} (h : b.Splits behind ahead)
    (hnone : firstSpelling? needle ahead = none) : b.find needle .forward = (false, b) := by
  unfold find
  split
  · rfl
  · rw [h.drop_cursor, hnone]

/-- The search for a marker picks the first one ahead. -/
theorem find_marker {z : Zone} (h : b.Splits behind (a ++ (mark z ++ rest))) (ha : Lacks z a) :
    (b.find z.marker .forward).1 = true ∧
      (b.find z.marker .forward).2.Picks (behind ++ a) (mark z) rest := by
  have hfind : b.find z.marker .forward =
      (true, { b with
        cursor := b.cursor + a.length + z.marker.length
        selection := some (b.cursor + a.length, b.cursor + a.length + z.marker.length) }) := by
    have hne : z.marker.isEmpty = false := rfl
    simp only [find, hne, h.drop_cursor, firstSpelling?_mark ha]
    rfl
  rw [hfind]
  refine ⟨rfl, by simp [h.elements], ?_⟩
  simp [h.cursor, mark]

/-! ## Moving -/

/-- The other place, if any, to which a move from cell to cell brings the cursor. -/
theorem moveCells_cases (b : Buffer) (target : Nat → Nat → Option Nat) :
    (b.moveCells target).2 = b ∨ ∃ start place, b.enclosingOpen? = some start ∧
      place ∈ b.cellStarts start ∧ (b.moveCells target).2 = { b with cursor := place } := by
  unfold moveCells
  split
  · exact .inl rfl
  · next start hstart =>
    split
    · dsimp only
      split
      · next place hplace =>
        obtain ⟨i, -, hi⟩ := Option.bind_eq_some_iff.1 hplace
        exact .inr ⟨start, place, hstart, List.mem_of_getElem? hi, rfl⟩
      · exact .inl rfl
    · exact .inl rfl

namespace Splits

/-- The table around the cursor opens behind it, and what lies between is level. -/
theorem exists_of_enclosingOpen? (h : b.Splits behind ahead) {start : Nat}
    (hstart : b.enclosingOpen? = some start) :
    ∃ front cols inner, behind = front ++ .tableOpen cols :: inner ∧ IsLevel inner ∧
      start = front.length := by
  rw [enclosingOpen?, h.take_cursor] at hstart
  obtain ⟨back, hback, rfl⟩ := Option.map_eq_some_iff.1 hstart
  obtain ⟨inner, front, cols, hsplit, rfl, hlevel⟩ := exists_of_openOffset? hback
  have hbehind : behind = front.reverse ++ .tableOpen cols :: inner.reverse := by
    rw [← List.reverse_reverse behind, hsplit]
    simp
  refine ⟨front.reverse, cols, inner.reverse, hbehind, hlevel, ?_⟩
  rw [hbehind]
  simp only [List.length_append, List.length_cons, List.length_reverse]
  omega

/-- What the table around the cursor holds from its opening on. -/
theorem drop_enclosing (h : b.Splits behind ahead) {front inner : List Element} {cols : Nat}
    (hbehind : behind = front ++ .tableOpen cols :: inner) :
    b.elements.drop (front.length + 1) = inner ++ ahead := by
  rw [h.elements, hbehind]
  simp [List.drop_append]

/-- The table around the cursor is left behind the first delimiter ahead that closes it. -/
theorem leaveTable_cases (h : b.Splits behind ahead) :
    b.leaveTable = (false, b) ∨ ∃ a rest, ahead = a ++ .tableClose :: rest ∧
      closeOffset? 0 ahead = some a.length ∧
      b.leaveTable = (true, b.goTo (behind.length + a.length + 1)) := by
  unfold Buffer.leaveTable
  cases hstart : b.enclosingOpen? with
  | none => exact .inl rfl
  | some start =>
    obtain ⟨front, cols, inner, hbehind, hlevel, rfl⟩ := h.exists_of_enclosingOpen? hstart
    have hclose : b.close? front.length =
        (closeOffset? 0 ahead).map (behind.length + ·) := by
      rw [close?, h.drop_enclosing hbehind, closeOffset?_append hlevel, Option.map_map, hbehind]
      congr 1
      funext i
      simp only [Function.comp, List.length_append, List.length_cons]
      omega
    rw [Option.bind_some, hclose]
    cases hoffset : closeOffset? 0 ahead with
    | none => exact .inl rfl
    | some i =>
      obtain ⟨a, rest, rfl, rfl⟩ := exists_of_closeOffset? hoffset
      exact .inr ⟨a, rest, rfl, rfl, rfl⟩

/-- A move down passes the rest of the line. -/
theorem moveDown (h : b.Splits behind (a ++ rest)) (ha : lineOffset 0 (a ++ rest) = a.length) :
    (b.run .moveDown).2.Splits (behind ++ a) rest := by
  refine splits_goTo (by rw [h.elements, List.append_assoc]) ?_
  rw [h.drop_cursor, ha, h.cursor, List.length_append]

/-- The places that a move from cell to cell can reach divide the table behind its opening. -/
theorem exists_of_mem_cellStarts (h : b.Splits behind ahead) {start place : Nat}
    (hstart : b.enclosingOpen? = some start) (hplace : place ∈ b.cellStarts start) :
    ∃ front cols a rest, b.elements = front ++ .tableOpen cols :: (a ++ rest) ∧
      place = front.length + 1 + a.length ∧ (a = [] ∨ a.getLast? = some .cellBreak) := by
  obtain ⟨front, cols, inner, hbehind, -, rfl⟩ := h.exists_of_enclosingOpen? hstart
  have helements : b.elements = front ++ .tableOpen cols :: (inner ++ ahead) := by
    rw [h.elements, hbehind]
    simp
  rw [cellStarts, h.drop_enclosing hbehind] at hplace
  rcases List.mem_cons.1 hplace with rfl | hplace
  · exact ⟨front, cols, [], inner ++ ahead, helements, rfl, .inl rfl⟩
  · obtain ⟨a, rest, hsplit, rfl⟩ := exists_of_mem_breakPlaces hplace
    refine ⟨front, cols, a ++ [.cellBreak], rest, ?_, ?_, .inr (List.getLast?_concat ..)⟩
    · rw [helements, hsplit]
      simp
    · rw [List.length_append, List.length_singleton]
      omega

end Splits

/-- The cursor was brought to a place in the same contents that is between no two glyphs. -/
def Lands (b b' : Buffer) : Prop :=
  b'.elements = b.elements ∧ ∃ behind ahead, b'.Splits behind ahead ∧ Parted behind ahead

theorem lands_goTo (b : Buffer) (front back : List Element) (h : b.elements = front ++ back)
    (hparted : Parted front back) {place : Nat} (hplace : place = front.length) :
    b.Lands (b.goTo place) := ⟨rfl, front, back, splits_goTo h hplace, hparted⟩

theorem lands_moveToCell (b : Buffer) : b.moveToCell.2 = b ∨ b.Lands b.moveToCell.2 := by
  unfold moveToCell
  split
  · exact .inl rfl
  · next back hback =>
    right
    dsimp only
    have hlt := (List.findIdx?_eq_some_iff_findIdx_eq.1 hback).1
    rw [List.length_reverse, List.length_take] at hlt
    generalize hstart : (b.elements.take b.cursor).length - 1 - back = start
    rw [List.length_take] at hstart
    have hle : start + 1 ≤ b.elements.length := by omega
    have htake : (b.elements.take (start + 1)).length = start + 1 := List.length_take_of_le hle
    -- the cursor goes to where the first cell ends: at a break, at the close, or at the very end
    have hbehind {a rest : List Element} (hdrop : b.elements.drop (start + 1) = a ++ rest)
        (hparted : ∀ e ∈ rest.head?, e.IsApart) {place : Nat}
        (hplace : place = start + 1 + a.length) : b.Lands (b.goTo place) := by
      refine b.lands_goTo (b.elements.take (start + 1) ++ a) rest ?_
        (.inr hparted) ?_
      · rw [List.append_assoc, ← hdrop, List.take_append_drop]
      · rw [List.length_append, htake, hplace]
    split
    · next next hnext =>
      have hmem : next ∈ breakPlaces (start + 1) 0 (b.elements.drop (start + 1)) :=
        List.mem_of_getElem? (i := 0) hnext
      obtain ⟨a, rest, hdrop, rfl⟩ := exists_of_mem_breakPlaces hmem
      refine hbehind hdrop (fun e he => ?_) (Nat.add_sub_cancel _ _)
      obtain rfl := Option.some.inj he
      exact nofun
    · cases hclose : b.close? start with
      | none =>
        have hend : b.elements.drop (start + 1) = b.elements.drop (start + 1) ++ [] :=
          (List.append_nil _).symm
        refine hbehind hend nofun ?_
        rw [Option.getD_none, List.length_drop]
        omega
      | some place =>
        obtain ⟨i, hi, rfl⟩ := Option.map_eq_some_iff.1 hclose
        obtain ⟨a, rest, hdrop, rfl⟩ := exists_of_closeOffset? hi
        refine hbehind hdrop (fun e he => ?_) rfl
        obtain rfl := Option.some.inj he
        exact nofun

theorem Splits.lands_moveCells (h : b.Splits behind ahead) (target : Nat → Nat → Option Nat) :
    (b.moveCells target).2 = b ∨ b.Lands (b.moveCells target).2 := by
  rcases b.moveCells_cases target with hstay | ⟨start, place, hstart, hplace, hmove⟩
  · exact .inl hstay
  · right
    rw [hmove]
    obtain ⟨front, cols, a, rest, helements, rfl, hlast⟩ := h.exists_of_mem_cellStarts hstart hplace
    refine ⟨rfl, front ++ .tableOpen cols :: a, rest, ⟨?_, ?_, h.selection⟩, .inl ?_⟩
    · rw [helements]
      simp
    · show front.length + 1 + a.length = _
      rw [List.length_append, List.length_cons]
      omega
    · intro e he
      rcases hlast with rfl | hlast
      · rw [List.getLast?_concat] at he
        obtain rfl := Option.some.inj he
        exact nofun
      · rw [List.getLast?_append, List.getLast?_cons, hlast] at he
        obtain rfl := Option.some.inj he
        exact nofun

/-- A move leaves the cursor where it was, or brings it between no two glyphs. -/
theorem Splits.lands (h : b.Splits behind ahead) {command : Command} (hmove : command.isMove) :
    (b.run command).2 = b ∨ b.Lands (b.run command).2 := by
  cases command with
  | moveDocBegin => exact .inr (b.lands_goTo [] _ rfl (parted_nil _) rfl)
  | moveDown =>
    obtain ⟨a, rest, hsplit, hoffset, hlands⟩ := exists_of_lineOffset 0 ahead
    have hdown : (b.run .moveDown).2.Splits (behind ++ a) rest :=
      (hsplit ▸ h).moveDown (hsplit ▸ hoffset)
    refine .inr ⟨rfl, behind ++ a, rest, hdown, ?_⟩
    rcases hlands with hlast | hhead
    · refine .inl fun e he => ?_
      rw [List.getLast?_append, hlast] at he
      obtain rfl := Option.some.inj he
      intro c hc
      cases hc
      decide
    · exact .inr fun e he c hc => absurd (hc ▸ he) (hhead c)
  | moveToCell => exact b.lands_moveToCell
  | closeEx =>
    rcases h.leaveTable_cases with hstay | ⟨a, rest, hahead, -, hleave⟩
    · exact .inl (congrArg Prod.snd hstay)
    · right
      show b.Lands b.leaveTable.2
      rw [hleave]
      refine b.lands_goTo (behind ++ a ++ [.tableClose]) rest ?_
        (parted_concat _ _ nofun) ?_
      · rw [h.elements, hahead]
        simp
      · rw [List.length_append, List.length_append, List.length_singleton]
  | tableRightCell => exact h.lands_moveCells _
  | tableLowerCell => exact h.lands_moveCells _
  | tableLeftCell => exact h.lands_moveCells _
  | _ => cases hmove

/-! ## Leading out -/

namespace Splits

/-- Where the run ahead leads out, leaving a table stays in it. -/
theorem leaveTable_of_leadsOut (h : b.Splits behind (a ++ rest)) (ha : leadsOut (d + 1) a) :
    b.leaveTable = (false, b) ∨ b.leaveTable.1 = true ∧ ∃ u v, a = u ++ v ∧ leadsOut d v ∧
      b.leaveTable.2.Splits (behind ++ u) (v ++ rest) := by
  rcases h.leaveTable_cases with hstay | ⟨_, _, -, hoffset, hleave⟩
  · exact .inl hstay
  · right
    obtain ⟨u, v, rfl, hu, hv⟩ := closeOffset?_of_leadsOut (k := 0) (d := d) rest
      (by rwa [Nat.zero_add])
    obtain hlength := Option.some.inj (hoffset.symm.trans hu)
    rw [hleave]
    refine ⟨rfl, u ++ [.tableClose], v, by simp, hv, splits_goTo ?_ ?_⟩
    · rw [h.elements]
      simp
    · rw [hlength, List.length_append, List.length_append, List.length_singleton]
      rfl

theorem moveDown_of_leadsOut (h : b.Splits behind (a ++ rest)) (ha : leadsOut d a) :
    ∃ u v, a = u ++ v ∧ (b.run .moveDown).2.Splits (behind ++ u) (v ++ rest) ∧
      (0 < d → leadsOut d v) := by
  obtain ⟨u, v, rfl, hu, hv⟩ := lineOffset_of_leadsOut (k := 0) rest
    (by rwa [Nat.zero_add])
  rw [List.append_assoc] at h hu
  exact ⟨u, v, rfl, h.moveDown hu, hv⟩

/-- Moves from cell to cell stay in the table. -/
theorem moveCells_of_leadsOut (h : b.Splits behind (a ++ rest)) (ha : leadsOut (d + 1) a)
    (target : Nat → Nat → Option Nat) :
    ∃ behind' a', behind' ++ a' = behind ++ a ∧
      (b.moveCells target).2.Splits behind' (a' ++ rest) ∧ leadsOut (d + 1) a' := by
  rcases b.moveCells_cases target with hstay | ⟨start, place, hstart, hplace, hmove⟩
  · exact ⟨behind, a, rfl, by rwa [hstay], ha⟩
  · obtain ⟨front, cols, inner, hbehind, hlevel, rfl⟩ := h.exists_of_enclosingOpen? hstart
    have hinner : leadsOut (d + 1) (inner ++ a) :=
      leadsOut_append (hlevel.depthAfter? _) ha
    -- the place may be behind the cursor or ahead of it, but never behind the close of the table
    have hreach : ∃ u v, inner ++ a = u ++ v ∧ place = front.length + 1 + u.length ∧
        leadsOut (d + 1) v := by
      rw [cellStarts, h.drop_enclosing hbehind, ← List.append_assoc] at hplace
      rcases List.mem_cons.1 hplace with rfl | hplace
      · exact ⟨[], _, rfl, rfl, hinner⟩
      · exact leadsOut_of_mem_breakPlaces (k := 0) (by rwa [Nat.zero_add]) hplace
    obtain ⟨u, v, hsplit, rfl, hv⟩ := hreach
    refine ⟨front ++ .tableOpen cols :: u, v, ?_, ?_, hv⟩
    · rw [hbehind]
      simp [hsplit]
    · rw [hmove]
      refine ⟨?_, ?_, h.selection⟩
      · show b.elements = _
        rw [h.elements, hbehind]
        simp only [List.append_assoc, List.cons_append]
        rw [← List.append_assoc inner, hsplit, List.append_assoc]
      · show front.length + 1 + u.length = _
        rw [List.length_append, List.length_cons]
        omega

/-- The move into a table that was just put in ends behind what its only cell holds. -/
theorem moveToCell_into {cols : Nat} {content : Text}
    (h : b.Splits (behind ++ .tableOpen cols :: (content.map .char ++ [.tableClose, .char '\n']))
      ahead) :
    b.moveToCell.1 = true ∧
      b.moveToCell.2.Splits (behind ++ .tableOpen cols :: content.map .char)
        (.tableClose :: .char '\n' :: ahead) := by
  have hback : (b.elements.take b.cursor).reverse.findIdx? isOpen = some (content.length + 2) := by
    have hpassed : ∀ e ∈ (content.map char ++ [tableClose, char '\n']).reverse,
        isOpen e = false := by simp [isOpen]
    rw [h.take_cursor, List.reverse_append, List.reverse_cons, List.append_assoc,
      List.findIdx?_append, List.findIdx?_eq_none_iff.2 hpassed, List.singleton_append,
      List.findIdx?_cons, isOpen]
    simp
  have hstart : (b.elements.take b.cursor).length - 1 - (content.length + 2) = behind.length := by
    rw [h.take_cursor]
    simp only [List.length_append, List.length_cons, List.length_map, List.length_nil]
    omega
  have hdrop : b.elements.drop (behind.length + 1) =
      content.map .char ++ .tableClose :: .char '\n' :: ahead := by
    rw [h.elements]
    simp [List.drop_append]
  have hbreaks : (b.cellStarts behind.length)[1]? = none := by
    rw [cellStarts, hdrop, breakPlaces_chars]
    rfl
  have hclose : b.close? behind.length = some (behind.length + 1 + content.length) := by
    rw [close?, hdrop, closeOffset?_append (isLevel_chars content), List.length_map]
    rfl
  have hmove : b.moveToCell = (true, b.goTo (behind.length + 1 + content.length)) := by
    simp only [moveToCell, hback, hstart, hbreaks, hclose, Option.getD_some]
  rw [hmove]
  refine ⟨rfl, splits_goTo ?_ ?_⟩
  · rw [h.elements]
    simp
  · rw [List.length_append, List.length_cons, List.length_map]
    omega

end Splits

end Buffer

end Scribe
