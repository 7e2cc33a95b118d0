import Scribe.Proofs.Script.Tiers

set_option autoImplicit false

/-! # Outside literals and comments

What stands in a literal or in a comment says nothing about the calls around it. Here the other
places of a text are looked at. What a reader of the grammar takes off a text passes by whole
literals only, so behind it stand no other places than before. -/

namespace Scribe.Grammar

open Text (isBlank isGap isIdentChar)

/-! ## Places -/

/-- Does `p` hold of the text from any place on that is neither in a literal nor in a comment? -/
def anyOutside (p : Text → Bool) : Text → Bool
  | [] => false
  | c :: s =>
    match _h : Literal.scan? (c :: s) with
    | some (_, rest) => anyOutside p rest
    | none =>
      if c = '#' then anyOutside p (s.dropWhile (· != '\n')) else p (c :: s) || anyOutside p s
termination_by s => s.length
decreasing_by
  · exact Literal.length_lt_of_scan? _h
  · exact Nat.lt_succ_of_le (List.dropWhile_sublist _).length_le
  · exact Nat.lt_succ_self _

variable {p : Text → Bool}

theorem anyOutside_of_scan? {s v r : Text} (h : Literal.scan? s = some (v, r)) :
    anyOutside p s = anyOutside p r := by
  cases s with
  | nil => simp [Literal.scan?, Literal.scanPlain?] at h
  | cons c s =>
    rw [anyOutside]
    split
    · next h' =>
      rw [h] at h'
      cases h'
      rfl
    · next h' =>
      rw [h] at h'
      simp at h'

theorem anyOutside_cons {c : Char} {s : Text} (hscan : Literal.scan? (c :: s) = none)
    (hcomment : c ≠ '#') : anyOutside p (c :: s) = (p (c :: s) || anyOutside p s) := by
  rw [anyOutside]
  split
  · next h =>
    rw [hscan] at h
    simp at h
  · rw [if_neg hcomment]

theorem anyOutside_comment (s : Text) :
    anyOutside p ('#' :: s) = anyOutside p (s.dropWhile (· != '\n')) := by
  have hscan : Literal.scan? ('#' :: s) = none := Literal.scan?_eq_none (by decide) s
  rw [anyOutside]
  split
  · next h =>
    rw [hscan] at h
    simp at h
  · rw [if_pos rfl]

/-! ## Passing by -/

/-- The text ends outside of literals and comments, whatever stands behind it. -/
def IsPassed (u : Text) : Prop :=
  ∀ (p : Text → Bool) (t : Text), anyOutside p t = true → anyOutside p (u ++ t) = true

theorem isPassed_nil : IsPassed [] := fun _ _ h => h

theorem IsPassed.append {u v : Text} (hu : IsPassed u) (hv : IsPassed v) : IsPassed (u ++ v) := by
  intro p t h
  rw [List.append_assoc]
  exact hu p _ (hv p t h)

theorem isPassed_of_scan? {u v : Text} (h : ∀ t, Literal.scan? (u ++ t) = some (v, t)) :
    IsPassed u := fun p t ht => by rw [anyOutside_of_scan? (h t), ht]

theorem isPassed_singleton {c : Char} (h : c ∉ ['\'', '"', 'r', 'R', '#']) : IsPassed [c] := by
  intro p t ht
  simp only [List.mem_cons, List.not_mem_nil, or_false, not_or] at h
  have hscan : Literal.scan? (c :: t) = none := Literal.scan?_eq_none (by simp [h]) t
  rw [List.singleton_append, anyOutside_cons hscan h.2.2.2.2, ht, Bool.or_true]

theorem isPassed_of_forall {u : Text} (h : ∀ c ∈ u, c ∉ ['\'', '"', 'r', 'R', '#']) :
    IsPassed u := by
  induction u with
  | nil => exact isPassed_nil
  | cons c u ih =>
    have hu := ih fun d hd => h d (List.mem_cons_of_mem c hd)
    exact (isPassed_singleton (h c List.mem_cons_self)).append hu

theorem isPassed_of_isBlank {b : Text} (hb : ∀ c ∈ b, isBlank c = true) : IsPassed b := by
  exact isPassed_of_forall fun c hc =>
    Text.not_mem_of_all (p := fun d => isBlank d = true) (hb c hc) (by decide)

theorem isBlank_of_isGap {c : Char} (h : isGap c = true) : isBlank c = true := by
  simp only [isGap, Bool.or_eq_true, beq_iff_eq] at h
  rcases h with rfl | rfl <;> rfl

/-- A name may end as a literal begins, but none begins in it where no quote follows. -/
theorem anyOutside_name_append {w t : Text} (hw : ∀ c ∈ w, isIdentChar c = true)
    (hend : (∀ c ∈ w.getLast?, c ≠ 'r' ∧ c ≠ 'R') ∨ ∀ c ∈ t.head?, Literal.isQuote c = false)
    (h : anyOutside p t = true) : anyOutside p (w ++ t) = true := by
  induction w with
  | nil => exact h
  | cons c w ih =>
    have hc := hw c List.mem_cons_self
    have hquote := Scanner.isQuote_eq_false (Or.inl hc)
    have hcomment : c ≠ '#' := by
      rintro rfl
      exact absurd hc (by decide)
    -- In front of another character of the name no literal begins, so only the last one matters.
    have hscan : Literal.scan? (c :: (w ++ t)) = none := by
      cases w with
      | cons d w =>
        refine Literal.scan?_eq_none_of_head hquote fun e he => ?_
        rw [← Option.some.inj he]
        exact Scanner.isQuote_eq_false (Or.inl (hw d (by simp)))
      | nil =>
        rcases hend with hlast | hhead
        · have hmark := hlast c rfl
          simp only [Literal.isQuote, Bool.or_eq_false_iff, beq_eq_false_iff_ne] at hquote
          exact Literal.scan?_eq_none (by simp [hquote, hmark]) _
        · exact Literal.scan?_eq_none_of_head hquote hhead
    have hrest := ih (fun d hd => hw d (List.mem_cons_of_mem c hd)) (hend.imp_left fun hlast => ?_)
    · rw [List.cons_append, anyOutside_cons hscan hcomment, hrest, Bool.or_true]
    · cases w with
      | nil => simp
      | cons d w => exact hlast

/-- A name and the blanks in front of the sign or the parenthesis behind it. -/
theorem anyOutside_of_name {name b s : Text} {c : Char} (hname : IsName name)
    (hb : ∀ d ∈ b, isBlank d = true) (hc : Literal.isQuote c = false)
    (h : anyOutside p (c :: s) = true) : anyOutside p (name ++ (b ++ c :: s)) = true := by
  have hblank {d : Char} (hd : isBlank d = true) : Literal.isQuote d = false := by
    simp only [isBlank, Bool.or_eq_true, beq_iff_eq] at hd
    rcases hd with ((rfl | rfl) | rfl) | rfl <;> rfl
  have hhead : ∀ d ∈ (b ++ c :: s).head?, Literal.isQuote d = false := by
    intro d hd
    cases b with
    | nil => rwa [← Option.some.inj hd]
    | cons e b =>
      rw [← Option.some.inj hd]
      exact hblank (hb e List.mem_cons_self)
  exact anyOutside_name_append (fun d hd => hname.isIdentChar_of_mem hd) (Or.inr hhead)
    (isPassed_of_isBlank hb p _ h)

theorem isPassed_name_append {name b u : Text} {c : Char} (hname : IsName name)
    (hb : ∀ d ∈ b, isBlank d = true) (hc : Literal.isQuote c = false) (hu : IsPassed (c :: u)) :
    IsPassed (name ++ (b ++ c :: u)) := by
  intro p t ht
  rw [List.append_assoc, List.append_assoc, List.cons_append]
  exact anyOutside_of_name hname hb hc (hu p t ht)

theorem isPassed_of_constant? {name : Text} {v : Value} (hname : IsName name)
    (h : constant? name = some v) : IsPassed name := by
  have hlast : ∀ c ∈ name.getLast?, c ≠ 'r' ∧ c ≠ 'R' := by
    have hmem := mem_of_constant? h
    simp only [List.mem_cons, List.not_mem_nil, or_false] at hmem
    rcases hmem with rfl | rfl | rfl | rfl | rfl | rfl <;> simp
  exact fun p t ht => anyOutside_name_append (fun d hd => hname.isIdentChar_of_mem hd)
    (Or.inl hlast) ht

/-- What is idle is passed by: its comments end where their lines do. -/
theorem anyOutside_of_skipIdle (s : Text) :
    (anyOutside p (skipIdle false s) = true → anyOutside p s = true) ∧
      (anyOutside p (skipIdle true s) = true →
        anyOutside p (s.dropWhile (· != '\n')) = true) := by
  -- Both ways of skipping at once, since a comment leads from one to the other and back.
  induction s with
  | nil => exact ⟨id, id⟩
  | cons c s ih =>
    refine ⟨fun h => ?_, fun h => ?_⟩
    · simp only [skipIdle, Bool.false_eq_true, if_false] at h
      split at h
      · next hc =>
        have hpassed : IsPassed [c] := by
          refine isPassed_singleton fun hmem => ?_
          simp only [isBlank, Bool.or_eq_true, beq_iff_eq] at hc
          rcases hc with (((rfl | rfl) | rfl) | rfl) | rfl <;> exact absurd hmem (by decide)
        exact hpassed p s (ih.1 h)
      · split at h
        · next hc =>
          rw [beq_iff_eq.1 hc, anyOutside_comment]
          exact ih.2 h
        · exact h
    · by_cases hc : c = '\n'
      · subst hc
        exact isPassed_singleton (by decide) p s (ih.1 h)
      · have hne : (c != '\n') = true := by simpa using hc
        rw [skipIdle, if_pos rfl, hne] at h
        have hdrop : (c :: s).dropWhile (· != '\n') = s.dropWhile (· != '\n') :=
          List.dropWhile_cons_of_pos hne
        rw [hdrop]
        exact ih.2 h

end Scribe.Grammar
