import Scribe.Proofs.Document.Selections

set_option autoImplicit false

/-! # Elements by their places

A walk along elements can read them one after another by their places. Here each access is guarded:
nothing comes out where an element is read, removed or put in outside of the elements, or where a
number would be lowered below zero. A walk that stays within the elements comes to what the walk
along the elements themselves comes to. -/

namespace Scribe

namespace Guarded

variable {es : List Element} {place start stop : Nat}

/-! ## Single accesses -/

/-- A number lowered by another one. -/
def lower (n k : Nat) : Option Nat := if k ≤ n then some (n - k) else none

/-- The elements without those from `start` to `stop`. -/
def drain (es : List Element) (start stop : Nat) : Option (List Element) :=
  if start ≤ stop ∧ stop ≤ es.length then some (es.take start ++ es.drop stop) else none

/-- The elements from `start` to `stop`. -/
def span (es : List Element) (start stop : Nat) : Option (List Element) :=
  if start ≤ stop ∧ stop ≤ es.length then some ((es.take stop).drop start) else none

/-- The elements without the one at a place. -/
def remove (es : List Element) (place : Nat) : Option (List Element) :=
  if place < es.length then some (es.take place ++ es.drop (place + 1)) else none

/-- The elements with others put in at a place. -/
def splice (es : List Element) (place : Nat) (new : List Element) : Option (List Element) :=
  if place ≤ es.length then some (es.take place ++ new ++ es.drop place) else none

@[simp] theorem lower_succ (n : Nat) : lower (n + 1) 1 = some n := rfl

theorem lower_eq {n k : Nat} (h : k ≤ n) : lower n k = some (n - k) := if_pos h

theorem drain_eq (h : start ≤ stop) (hstop : stop ≤ es.length) :
    drain es start stop = some (es.take start ++ es.drop stop) := if_pos ⟨h, hstop⟩

theorem span_eq (h : start ≤ stop) (hstop : stop ≤ es.length) :
    span es start stop = some ((es.take stop).drop start) := if_pos ⟨h, hstop⟩

theorem remove_eq (h : place < es.length) :
    remove es place = some (es.take place ++ es.drop (place + 1)) := if_pos h

theorem splice_eq (h : place ≤ es.length) (new : List Element) :
    splice es place new = some (es.take place ++ new ++ es.drop place) := if_pos h

theorem splice_append (front new behind : List Element) :
    splice (front ++ behind) front.length new = some (front ++ new ++ behind) := by
  rw [splice_eq (by simp), List.take_left, List.drop_left]

/-- A place of the elements can be read, and what is read stands before what follows. -/
theorem exists_read (h : place < es.length) :
    ∃ e, es[place]? = some e ∧ es.drop place = e :: es.drop (place + 1) :=
  ⟨es[place], List.getElem?_eq_getElem h, List.drop_eq_getElem_cons h⟩

/-! ## Walks through tables

A walk reads one place after another. It is compared with the walk along the elements that are
ahead: by induction on the number of places that are left. -/

/-- The place of the delimiter that closes the current table, `depth` tables further out, among so
    many places from a first one on. -/
def closeFrom (es : List Element) : Nat → Nat → Nat → Option (Option Nat)
  | 0, _, _ => some none
  | left + 1, place, depth => do
    match (← es[place]?), depth with
    | .tableOpen _, depth => closeFrom es left (place + 1) (depth + 1)
    | .tableClose, 0 => return some place
    | .tableClose, depth => closeFrom es left (place + 1) (← lower depth 1)
    | _, depth => closeFrom es left (place + 1) depth

/-- The places behind the breaks between the cells of the current table, `depth` tables further
    out, among so many places from a first one on. -/
def breaksFrom (es : List Element) : Nat → Nat → Nat → Option (List Nat)
  | 0, _, _ => some []
  | left + 1, place, depth => do
    match (← es[place]?), depth with
    | .tableOpen _, depth => breaksFrom es left (place + 1) (depth + 1)
    | .tableClose, 0 => return []
    | .tableClose, depth => breaksFrom es left (place + 1) (← lower depth 1)
    | .cellBreak, 0 => return (place + 1) :: (← breaksFrom es left (place + 1) 0)
    | _, depth => breaksFrom es left (place + 1) depth

/-- The place of the next line of the current cell, `depth` tables further out, or else of the end
    of the cell, among so many places from a first one on. -/
def lineFrom (es : List Element) : Nat → Nat → Nat → Option Nat
  | 0, _, _ => some es.length
  | left + 1, place, depth => do
    match (← es[place]?), depth with
    | .tableOpen _, depth => lineFrom es left (place + 1) (depth + 1)
    | .tableClose, 0 | .cellBreak, 0 => return place
    | .tableClose, depth => lineFrom es left (place + 1) (← lower depth 1)
    | .char '\n', 0 => return place + 1
    | _, depth => lineFrom es left (place + 1) depth

/-- The place of the delimiter that opens the current table, `depth` tables further out, among the
    places before `stop`. -/
def openBefore (es : List Element) : Nat → Nat → Option (Option Nat)
  | 0, _ => some none
  | place + 1, depth => do
    match (← es[place]?), depth with
    | .tableClose, depth => openBefore es place (depth + 1)
    | .tableOpen _, 0 => return some place
    | .tableOpen _, depth => openBefore es place (← lower depth 1)
    | _, depth => openBefore es place depth

/-- The last place before `stop` at which a table opens. -/
def nearestOpen (es : List Element) : Nat → Option (Option Nat)
  | 0 => some none
  | place + 1 => do if (← es[place]?).isOpen then return some place else nearestOpen es place

theorem closeFrom_eq {left : Nat} (depth : Nat) (h : place + left = es.length) :
    closeFrom es left place depth =
      some ((Element.closeOffset? depth (es.drop place)).map (place + ·)) := by
  induction left generalizing place depth with
  | zero =>
    obtain rfl : place = es.length := h
    simp [closeFrom, Element.closeOffset?]
  | succ left ih =>
    obtain ⟨e, he, hdrop⟩ := exists_read (show place < es.length by omega)
    have hnext (depth : Nat) := ih depth (show place + 1 + left = es.length by omega)
    rw [closeFrom, he, hdrop]
    cases e <;> cases depth <;>
      simp [Element.closeOffset?, hnext, Function.comp_def, Nat.add_assoc, Nat.add_comm 1]

theorem breaksFrom_eq {left : Nat} (depth : Nat) (h : place + left = es.length) :
    breaksFrom es left place depth = some (Element.breakPlaces place depth (es.drop place)) := by
  induction left generalizing place depth with
  | zero =>
    obtain rfl : place = es.length := h
    simp [breaksFrom, Element.breakPlaces]
  | succ left ih =>
    obtain ⟨e, he, hdrop⟩ := exists_read (show place < es.length by omega)
    have hnext (depth : Nat) := ih depth (show place + 1 + left = es.length by omega)
    rw [breaksFrom, he, hdrop]
    cases e <;> cases depth <;> simp [Element.breakPlaces, hnext]

theorem lineFrom_eq {left : Nat} (depth : Nat) (h : place + left = es.length) :
    lineFrom es left place depth = some (place + Element.lineOffset depth (es.drop place)) := by
  induction left generalizing place depth with
  | zero =>
    obtain rfl : place = es.length := h
    simp [lineFrom, Element.lineOffset]
  | succ left ih =>
    obtain ⟨e, he, hdrop⟩ := exists_read (show place < es.length by omega)
    have hnext (depth : Nat) := ih depth (show place + 1 + left = es.length by omega)
    rw [lineFrom, he, hdrop]
    cases e with
    | char c =>
      by_cases hc : c = '\n'
      · subst hc
        cases depth <;> simp [Element.lineOffset, hnext, Nat.add_assoc, Nat.add_comm 1]
      · cases depth <;> simp [Element.lineOffset, hnext, hc, Nat.add_assoc, Nat.add_comm 1]
    | _ => cases depth <;> simp [Element.lineOffset, hnext, Nat.add_assoc, Nat.add_comm 1]

theorem openBefore_eq (depth : Nat) (h : stop ≤ es.length) :
    openBefore es stop depth =
      some ((Element.openOffset? depth (es.take stop).reverse).map (stop - 1 - ·)) := by
  induction stop generalizing depth with
  | zero => rfl
  | succ place ih =>
    obtain ⟨e, he, -⟩ := exists_read h
    have hnext (depth : Nat) := ih depth (Nat.le_of_succ_le h)
    rw [openBefore, he, List.take_add_one, he, Option.toList_some, List.reverse_append]
    cases e <;> cases depth <;>
      simp [Element.openOffset?, hnext, Function.comp_def, Nat.sub_sub, Nat.add_comm 1]

theorem nearestOpen_eq (h : stop ≤ es.length) :
    nearestOpen es stop =
      some (((es.take stop).reverse.findIdx? Element.isOpen).map (stop - 1 - ·)) := by
  induction stop with
  | zero => rfl
  | succ place ih =>
    obtain ⟨e, he, -⟩ := exists_read h
    have hnext := ih (Nat.le_of_succ_le h)
    rw [nearestOpen, he, List.take_add_one, he, Option.toList_some, List.reverse_append]
    cases hopen : e.isOpen <;>
      simp [List.findIdx?_cons, hopen, hnext, Function.comp_def, Nat.sub_sub, Nat.add_comm 1]

/-! ## Searches -/

/-- Do the elements from a place on spell a text? They are read up to the first one that differs. -/
def spellsAt (es : List Element) : Text → Nat → Option Bool
  | [], _ => some true
  | c :: needle, place => do
    if (← es[place]?) = .char c then spellsAt es needle (place + 1) else return false

/-- The first of so many places, from one on, at which the elements spell a text. -/
def firstFrom (es : List Element) (needle : Text) : Nat → Nat → Option (Option Nat)
  | 0, _ => some none
  | left + 1, place => do
    if ← spellsAt es needle place then return some place
    else firstFrom es needle left (place + 1)

/-- The last of the first `count` places at which the elements spell a text. -/
def lastBefore (es : List Element) (needle : Text) : Nat → Option (Option Nat)
  | 0 => some none
  | place + 1 => do
    if ← spellsAt es needle place then return some place else lastBefore es needle place

variable {needle : Text}

theorem spellsAt_eq (h : place + needle.length ≤ es.length) :
    spellsAt es needle place = some (Element.spells needle (es.drop place)) := by
  induction needle generalizing place with
  | nil => simp [spellsAt, Element.spells]
  | cons c needle ih =>
    rw [List.length_cons] at h
    obtain ⟨e, he, hdrop⟩ := exists_read (show place < es.length by omega)
    have hnext := ih (show place + 1 + needle.length ≤ es.length by omega)
    rw [spellsAt, he, hdrop]
    cases e with
    | char d =>
      by_cases hcd : c = d
      · subst hcd
        simp [Element.spells, hnext]
      · simp [Element.spells, hcd, Ne.symm hcd]
    | _ => simp [Element.spells]

theorem firstFrom_eq {left : Nat} (h : left = es.length + 1 - (place + needle.length))
    (hne : needle ≠ []) : firstFrom es needle left place =
      some ((Element.firstSpelling? needle (es.drop place)).map (place + ·)) := by
  have hpos := List.length_pos_iff.2 hne
  induction left generalizing place with
  | zero =>
    rw [Element.firstSpelling?_eq_none_of_lt (by rw [List.length_drop]; omega)]
    rfl
  | succ left ih =>
    obtain ⟨e, -, hdrop⟩ := exists_read (show place < es.length by omega)
    have hnext := ih (show left = es.length + 1 - (place + 1 + needle.length) by omega)
    rw [firstFrom, spellsAt_eq (by omega), hdrop, Element.firstSpelling?]
    cases Element.spells needle (e :: es.drop (place + 1)) <;>
      simp [hnext, Function.comp_def, Nat.add_assoc, Nat.add_comm 1]

theorem lastBefore_eq {count : Nat} (h : count + needle.length ≤ es.length + 1) :
    lastBefore es needle count = some (Element.lastSpelling? needle count es) := by
  induction count with
  | zero => rfl
  | succ place ih =>
    have hnext := ih (by omega)
    rw [lastBefore, spellsAt_eq (by omega), Element.lastSpelling?, List.range_succ,
      List.reverse_append]
    cases hspells : Element.spells needle (es.drop place) <;>
      simp [hspells, hnext, Element.lastSpelling?]

end Guarded

end Scribe
