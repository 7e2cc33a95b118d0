import Scribe.Proofs.Script.Call

set_option autoImplicit false

/-! # Pieces of argument lists

Texts that an argument list is made of: whatever such a piece opens it closes again, and neither it
nor a line in it starts like a statement. Pieces compose. -/

namespace Scribe

open Text (isIdentChar isBlank isWhite)
open Balance (IsClosed IsPlain)

/-! ## Text in front of a character -/

theorem dropWhile_append_cons {p : Char → Bool} {c : Char} (hc : p c = false) (s t : Text) :
    (s ++ c :: t).dropWhile p = s.dropWhile p ++ c :: t := by
  induction s with
  | nil => simp [hc]
  | cons d s ih =>
    rw [List.cons_append, List.dropWhile_cons, List.dropWhile_cons]
    split
    · exact ih
    · rfl

theorem takeWhile_append_cons {p : Char → Bool} {c : Char} (hc : p c = false) (s t : Text) :
    (s ++ c :: t).takeWhile p = s.takeWhile p := by
  induction s with
  | nil => simp [hc]
  | cons d s ih =>
    rw [List.cons_append, List.takeWhile_cons, List.takeWhile_cons, ih]

theorem identifier_append_cons {c : Char} (hc : isIdentChar c = false) (s t : Text) :
    identifier (s ++ c :: t) = ((identifier s).1, (identifier s).2 ++ c :: t) := by
  cases s with
  | nil =>
    have hstart : Text.isIdentStart c = false := by
      by_cases h : Text.isIdentStart c = true
      · rw [isIdentChar_of_isIdentStart h] at hc
        exact absurd hc (by decide)
      · simpa using h
    simp [identifier, hstart]
  | cons d s =>
    simp only [List.cons_append, identifier]
    split
    · rw [takeWhile_append_cons hc, dropWhile_append_cons hc]
    · rfl

/-! ## Starts of statements -/

/-- A statement seems to start with the text: a comment, or a call of the vocabulary, with any white
    space behind its name. -/
inductive StartsStatement : Text → Prop where
  | comment (s : Text) : StartsStatement ('#' :: s)
  | call (verb : Verb) {gap : Text} (hgap : ∀ c ∈ gap, isWhite c = true) (rest : Text) :
      StartsStatement (verb.name ++ (gap ++ '(' :: rest))

/-- The first two characters of a call tell it from words of other kinds. -/
theorem StartsStatement.take_two {s : Text} (h : StartsStatement s) :
    s.head? = some '#' ∨ s.take 2 ∈ [['i', 'n'], ['e', 'x'], ['f', 'o'], ['s', 'e']] := by
  have hname (verb : Verb) : 2 ≤ verb.name.length ∧
      verb.name.take 2 ∈ [['i', 'n'], ['e', 'x'], ['f', 'o'], ['s', 'e']] := by
    cases verb <;> decide
  cases h with
  | comment s => exact Or.inl rfl
  | call verb hgap rest =>
    rw [List.take_append_of_le_length (hname verb).1]
    exact Or.inr (hname verb).2

theorem not_startsStatement_of_head {c : Char} (hc : c ∉ ['#', 'i', 'e', 'f', 's'])
    (s : Text) : ¬StartsStatement (c :: s) := by
  intro h
  have htake := h.take_two
  cases s <;> simp_all

/-- A name that is not followed by a parenthesis, or is none of the vocabulary, starts no
    statement. -/
theorem not_startsStatement_name_append {name rest : Text} (hname : IsName name)
    (hrest : ∀ c, rest.head? = some c → isIdentChar c = false)
    (h : Verb.ofName? name = none ∨ rest.trimStart.head? ≠ some '(') :
    ¬StartsStatement (name ++ rest) := by
  intro hstart
  generalize hs : name ++ rest = s at hstart
  have hident := identifier_append_eq hname hrest
  cases hstart with
  | comment s =>
    obtain ⟨c, r, rfl, hc, _⟩ := hname
    rw [(List.cons.inj hs).1] at hc
    exact absurd hc (by decide)
  | call verb hgap rest' =>
    rw [hs, identifier_append_eq (isName_name verb) fun c hc => ?_] at hident
    · simp only [Prod.mk.injEq] at hident
      obtain ⟨rfl, rfl⟩ := hident
      rcases h with h | h
      · rw [Verb.ofName?_name] at h
        simp at h
      · refine h ?_
        rw [Text.trimStart, List.dropWhile_append_of_pos hgap]
        rfl
    · exact isIdentChar_of_head?_gap hgap hc

namespace Grammar

/-! ## Pieces of an argument list -/

/-- Behind no line break in the text seems a statement to start, whatever follows the text. Line
    breaks behind a backslash do not count: a literal may go on there. -/
def IsUnbroken (u : Text) : Prop :=
  ∀ a z, u = a ++ '\n' :: z → a.getLast? ≠ some '\\' → ∀ t, ¬StartsStatement (z ++ t)

/-- A piece of an argument list: what it opens it closes, and no statement seems to start with it
    or behind a line break in it. -/
structure IsPiece (u : Text) : Prop where
  isClosed : IsClosed u
  not_startsStatement : ∀ t, ¬StartsStatement (u ++ t)
  isUnbroken : IsUnbroken u

theorem isUnbroken_of_newline_not_mem {u : Text} (h : '\n' ∉ u) : IsUnbroken u := by
  rintro a z rfl
  exact absurd (by simp) h

theorem IsUnbroken.append {u v : Text} (hu : IsUnbroken u) (hv : IsUnbroken v) :
    IsUnbroken (u ++ v) := by
  intro a z h ha t
  rcases List.append_eq_append_iff.1 h with ⟨b, rfl, hb⟩ | ⟨b, hb, hz⟩
  · refine hv b z hb (fun hlast => ha ?_) t
    rw [List.getLast?_append, hlast, Option.some_or]
  · cases b with
    | nil => exact hv [] z (by simpa using hz.symm) (by simp) t
    | cons c b =>
      simp only [List.cons_append, List.cons.injEq] at hz
      obtain ⟨rfl, rfl⟩ := hz
      rw [List.append_assoc]
      exact hu a b hb ha _

theorem not_startsStatement_of_isBlank {c : Char} (hc : isBlank c = true) (s : Text) :
    ¬StartsStatement (c :: s) := by
  refine not_startsStatement_of_head (fun h => ?_) s
  simp only [List.mem_cons, List.not_mem_nil, or_false] at h
  rcases h with rfl | rfl | rfl | rfl | rfl <;> exact absurd hc (by decide)

theorem isPlain_of_isBlank {c : Char} (h : isBlank c = true) : IsPlain c := by
  simp only [isBlank, Bool.or_eq_true, beq_iff_eq] at h
  rcases h with ((rfl | rfl) | rfl) | rfl <;> decide

theorem isClosed_of_isBlank {b : Text} (h : ∀ c ∈ b, isBlank c = true) : IsClosed b :=
  Balance.isClosed_of_isPlain fun c hc => isPlain_of_isBlank (h c hc)

/-- Blanks in front of a text that starts no statement. -/
theorem not_startsStatement_blank_append {b u : Text} (hb : ∀ c ∈ b, isBlank c = true)
    (hu : ¬StartsStatement u) : ¬StartsStatement (b ++ u) := by
  cases b with
  | nil => exact hu
  | cons c b => exact not_startsStatement_of_isBlank (hb c List.mem_cons_self) _

theorem isUnbroken_blank_append {b u : Text} (hb : ∀ c ∈ b, isBlank c = true)
    (hstart : ∀ t, ¬StartsStatement (u ++ t)) (hu : IsUnbroken u) : IsUnbroken (b ++ u) := by
  induction b with
  | nil => exact hu
  | cons c b ih =>
    have hb' : ∀ d ∈ b, isBlank d = true := fun d hd => hb d (List.mem_cons_of_mem _ hd)
    intro a z h ha t
    cases a with
    | nil =>
      simp only [List.cons_append, List.nil_append, List.cons.injEq] at h
      rw [← h.2, List.append_assoc]
      exact not_startsStatement_blank_append hb' (hstart t)
    | cons d a =>
      refine ih hb' a z (List.cons.inj h).2 (fun hlast => ha ?_) t
      rwa [List.getLast?_cons_of_ne_nil fun hn => by simp [hn] at hlast]

theorem IsPiece.blank_append {b u : Text} (hu : IsPiece u) (hb : ∀ c ∈ b, isBlank c = true) :
    IsPiece (b ++ u) := by
  refine ⟨(isClosed_of_isBlank hb).append hu.isClosed, fun t => ?_,
    isUnbroken_blank_append hb hu.not_startsStatement hu.isUnbroken⟩
  rw [List.append_assoc]
  exact not_startsStatement_blank_append hb (hu.not_startsStatement t)

theorem IsPiece.append {u v : Text} (hu : IsPiece u) (hclosed : IsClosed v)
    (hv : IsUnbroken v) : IsPiece (u ++ v) := by
  refine ⟨hu.isClosed.append hclosed, fun t => ?_, hu.isUnbroken.append hv⟩
  rw [List.append_assoc]
  exact hu.not_startsStatement _

theorem isPiece_singleton {c : Char} (hplain : IsPlain c) (hnl : c ≠ '\n')
    (hstart : c ∉ ['#', 'i', 'e', 'f', 's']) : IsPiece [c] :=
  ⟨Balance.isClosed_singleton hplain, not_startsStatement_of_head hstart,
    isUnbroken_of_newline_not_mem (by simpa using hnl.symm)⟩

end Grammar

end Scribe
