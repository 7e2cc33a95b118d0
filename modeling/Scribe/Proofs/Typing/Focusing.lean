import Scribe.Proofs.Typing.Standing

set_option autoImplicit false

/-! # Where a focus leads

In a calm document a focus is a function of the contents: it takes out the first spelling of its
marker ahead of the cursor, or else the first in the document. -/

namespace Scribe

open Element

/-! ## Searching and erasing -/

namespace Buffer

/-- The search for the first of several texts that is found ahead of the cursor. -/
def findAny (b : Buffer) : List Text → Bool × Buffer
  | [] => (false, b)
  | needle :: needles =>
    if (b.find needle .forward).1 then b.find needle .forward else b.findAny needles

/-- The contents without the first spelling of a marker ahead of the cursor. -/
def erase? (b : Buffer) (needles : List Text) : Option Buffer :=
  if (b.findAny needles).1 then some ((b.findAny needles).2.run .delete).2 else none

/-- What a focus makes of the contents. -/
def focus (b : Buffer) (placeholder : Placeholder) : Buffer :=
  (b.erase? placeholder.needles).getD
    (if placeholder.zone? = some .after then b
    else ((b.goTo 0).erase? placeholder.needles).getD
      (if placeholder.zone? = some .inside then (b.goTo 0).moveToCell.2 else b.goTo 0))

variable {b : Buffer} {behind ahead a rest : List Element} {z : Zone} {needles : List Text}

theorem find_of_fst_eq_false {needle : Text} {direction : Direction}
    (h : (b.find needle direction).1 = false) : (b.find needle direction).2 = b := by
  revert h
  unfold find
  split
  · intro _
    rfl
  · split <;> split <;> intro h <;> first | rfl | cases h

theorem findAny_of_fst_eq_false (h : (b.findAny needles).1 = false) :
    (b.findAny needles).2 = b := by
  induction needles with
  | nil => rfl
  | cons needle needles ih =>
    by_cases hfound : (b.find needle .forward).1 = true
    · rw [findAny, if_pos hfound, hfound] at h
      cases h
    · rw [findAny, if_neg hfound] at h ⊢
      exact ih h

theorem exists_selects_of_findAny (h : (b.findAny needles).1 = true) :
    (b.findAny needles).2.elements = b.elements ∧
      ∃ (start : Nat), ∃ needle ∈ needles, needle ≠ [] ∧
        (b.findAny needles).2.Selects start (needle.map .char) := by
  induction needles with
  | nil => cases h
  | cons needle needles ih =>
    by_cases hfound : (b.find needle .forward).1 = true
    · rw [findAny, if_pos hfound]
      obtain ⟨start, hselects⟩ := selects_of_find hfound
      refine ⟨b.elements_find _ _, start, needle, List.mem_cons_self, ?_, hselects⟩
      rintro rfl
      cases hfound
    · rw [findAny, if_neg hfound] at h ⊢
      obtain ⟨helements, start, needle', hmem, hselects⟩ := ih h
      exact ⟨helements, start, needle', List.mem_cons_of_mem _ hmem, hselects⟩

/-- What is erased is a spelling of one of the texts. -/
theorem exists_of_erase? {b' : Buffer} (h : b.erase? needles = some b') :
    ∃ behind ahead, ∃ needle ∈ needles, needle ≠ [] ∧
      b.elements = behind ++ (needle.map .char ++ ahead) ∧ b'.Splits behind ahead := by
  unfold erase? at h
  split at h
  · next hany =>
    obtain ⟨helements, start, needle, hmem, hne, hselects⟩ := exists_selects_of_findAny hany
    obtain ⟨ahead, hahead⟩ := hselects.stands
    have hle : start ≤ b.elements.length := by
      refine Nat.le_of_not_lt fun hlt => ?_
      rw [helements, List.drop_eq_nil_of_le (by omega)] at hahead
      exact hne (List.map_eq_nil_iff.1 (List.append_eq_nil_iff.1 hahead).1)
    have hpicks : (b.findAny needles).2.Picks (b.elements.take start) (needle.map .char) ahead := by
      refine ⟨?_, ?_⟩
      · rw [hahead, helements, List.take_append_drop]
      · rw [List.length_take_of_le hle, hselects.selection]
    obtain rfl := Option.some.inj h
    refine ⟨_, _, needle, hmem, hne, helements.symm.trans hpicks.elements, ?_⟩
    exact (hpicks.deleteFrom (some (b.findAny needles).2.cursor)).2
  · cases h

theorem erase?_eq_none (h : ∀ needle ∈ needles, (b.find needle .forward).1 = false) :
    b.erase? needles = none := by
  have hmissed : (b.findAny needles).1 = false := by
    induction needles with
    | nil => rfl
    | cons needle needles ih =>
      rw [findAny, if_neg (by simp [h needle List.mem_cons_self])]
      exact ih fun n hn => h n (List.mem_cons_of_mem _ hn)
  rw [erase?, if_neg (by simp [hmissed])]

namespace Splits

/-- Without its glyphs ahead, no spelling of a marker is found. -/
theorem erase?_of_lacks (h : b.Splits behind ahead) (hahead : Lacks z ahead) :
    b.erase? z.markerVariants = none :=
  erase?_eq_none fun _ hneedle =>
    congrArg Prod.fst (find_eq_of_none h (firstSpelling?_eq_none hahead hneedle))

/-- The marker of a zone is taken out where it stands ahead. -/
theorem erase?_mark (h : b.Splits behind (a ++ (mark z ++ rest))) (ha : Lacks z a) :
    ∃ b', b.erase? z.markerVariants = some b' ∧ b'.Splits (behind ++ a) rest := by
  obtain ⟨hfound, hpicks⟩ := find_marker h ha
  have hany : b.findAny z.markerVariants = b.find z.marker .forward := if_pos hfound
  refine ⟨_, ?_, (hpicks.deleteFrom (some (b.find z.marker .forward).2.cursor)).2⟩
  rw [erase?, hany, if_pos hfound]
  rfl

end Splits

end Buffer

/-! ## Actions -/

namespace Typing

open Buffer

variable {P : Buffer → Prop} {Q : Bool → Buffer → Prop} {R : Buffer → Prop}
  {needles : List Text}

theorem Yields.findAny (h : ∀ b, P b → Q (b.findAny needles).1 (b.findAny needles).2) :
    Yields P (findAny needles) Q := by
  induction needles generalizing P with
  | nil => exact .pure h
  | cons needle needles ih =>
    have hfind : Yields P (bestEffort (.findText needle .forward)) fun found b' =>
        if found then Q true b' else P b' ∧ Q (b'.findAny needles).1 (b'.findAny needles).2 := by
      refine .find fun b hb => ?_
      have hany := h b hb
      by_cases hfound : (b.find needle .forward).1 = true
      · rw [Buffer.findAny, if_pos hfound] at hany
        rw [hfound] at hany
        simpa [hfound] using hany
      · rw [Buffer.findAny, if_neg hfound] at hany
        rw [if_neg hfound, find_of_fst_eq_false (by simpa using hfound)]
        exact ⟨hb, hany⟩
    refine hfind.bind fun found => ?_
    cases found with
    | true => exact .pure fun _ hb => by simpa using hb
    | false => exact ih fun b hb => by simpa using And.right (by simpa using hb)

/-- With something selected, the first deletion takes it out. -/
theorem Yields.eraseMarker (h : ∀ b, P b → b.selection.isSome ∧ R (b.run .delete).2) :
    Yields P eraseMarker fun _ => R := by
  have hdelete : Yields P (Typing.tryRun .delete) fun found b' => found = true ∧ R b' := by
    refine .tryRun fun b hb => ?_
    obtain ⟨hsome, hR⟩ := h b hb
    obtain ⟨span, hspan⟩ := Option.isSome_iff_exists.1 hsome
    refine ⟨?_, hR⟩
    show (b.deleteFrom (some b.cursor)).1 = true
    simp [deleteFrom, hspan]
  refine hdelete.bind fun found s b hb => ?_
  obtain ⟨rfl, hR⟩ := hb
  exact hR

/-- A search with the deletion of what it finds, or else something else; then typing goes on. -/
theorem Yields.erase {m k : Typing Unit}
    (hfound : ∀ b b', P b → b.erase? needles = some b' → R b')
    (hm : Yields (fun b => P b ∧ b.erase? needles = none) m fun _ => R)
    (hk : Yields R k fun _ => R) :
    Yields P (do
      if ← Typing.findAny needles then
        Typing.eraseMarker
        k
      else m) fun _ => R := by
  have hsearch : Yields P (Typing.findAny needles) fun found b' =>
      if found then b'.selection.isSome ∧ R (b'.run .delete).2
      else P b' ∧ b'.erase? needles = none := by
    refine .findAny fun b hb => ?_
    by_cases hany : (b.findAny needles).1 = true
    · rw [if_pos hany]
      obtain ⟨-, start, needle, -, -, hselects⟩ := exists_selects_of_findAny hany
      exact ⟨by rw [hselects.selection]; rfl, hfound b _ hb (if_pos hany)⟩
    · rw [if_neg hany, findAny_of_fst_eq_false (by simpa using hany)]
      exact ⟨hb, if_neg hany⟩
  refine hsearch.bind fun found => ?_
  cases found with
  | true =>
    have herase : Yields (fun b => b.selection.isSome ∧ R (b.run .delete).2) Typing.eraseMarker
        fun _ => R := .eraseMarker fun _ hb => hb
    exact (herase.bind fun _ => hk).pre fun _ hb => by simpa using hb
  | false => exact hm.pre fun _ hb => by simpa using hb

theorem Yields.focusPlaceholder {placeholder : Placeholder}
    (h : ∀ b, P b → R (b.focus placeholder)) :
    Yields P (focusPlaceholder placeholder) fun _ => R := by
  have henter : Yields R (Scribe.updateState fun s => s.enterZone placeholder.zone?) fun _ => R :=
    .updateState _
  rw [focusPlaceholder_eq]
  refine .erase (fun b b' hb hfound => ?_) (.ite (fun hagain => ?_) fun hstay => ?_) henter
  · have hR := h b hb
    rwa [focus, hfound] at hR
  · have hagain : placeholder.zone? ≠ some .after := by simpa using hagain
    have hbegin : Yields (fun b => P b ∧ b.erase? placeholder.needles = none)
        (Functor.discard (Typing.tryRun .moveDocBegin))
        fun _ b' => ∃ b : Buffer, P b ∧ b.erase? placeholder.needles = none ∧ b' = b.goTo 0 :=
      .discard (.tryRun fun b hb => ⟨b, hb.1, hb.2, rfl⟩)
    refine hbegin.bind fun _ => .erase ?_ (.ite (fun hinside => ?_) fun hother => ?_) henter
    · rintro _ b' ⟨b, hb, hnone, rfl⟩ hfound
      simpa [focus, hnone, hagain, hfound] using h b hb
    · have hcell : Yields (fun b' => (∃ b : Buffer, P b ∧
            b.erase? placeholder.needles = none ∧ b' = b.goTo 0) ∧
            b'.erase? placeholder.needles = none)
          (Functor.discard (Typing.tryRun .moveToCell)) fun _ => R := by
        refine .discard (.tryRun ?_)
        rintro _ ⟨⟨b, hb, hnone, rfl⟩, hmissed⟩
        have hinside : placeholder.zone? = some .inside := by simpa using hinside
        have hR := h b hb
        rwa [focus, hnone, Option.getD_none, if_neg hagain, hmissed, Option.getD_none,
          if_pos hinside] at hR
      exact hcell.bind fun _ => henter
    · refine Meets.updateState ?_
      rintro _ ⟨⟨b, hb, hnone, rfl⟩, hmissed⟩
      have hother : ¬ placeholder.zone? = some .inside := by simpa using hother
      have hR := h b hb
      rwa [focus, hnone, Option.getD_none, if_neg hagain, hmissed, Option.getD_none,
        if_neg hother] at hR
  · refine Meets.updateState fun b hb => ?_
    have hstay : placeholder.zone? = some .after := by simpa using hstay
    have hR := h b hb.1
    rwa [focus, hb.2, Option.getD_none, if_pos hstay] at hR

end Typing

end Scribe
