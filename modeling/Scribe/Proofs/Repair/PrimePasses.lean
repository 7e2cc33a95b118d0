import Scribe.Proofs.Repair.PrimeRules

set_option autoImplicit false

/-! # Prime words across passes

A pass leaves an apostrophe or a primed roman letter in place of each word. Neither starts inside a
word of another kind: an apostrophe is not part of it, and `rm` starts only where no word goes on.
So a pass can bring in words only where they start at a substitute. Main statements: what has to be
said of a kind of words so that a pass removes it, or keeps a text free of it. -/

namespace Scribe.Repair

open Text (isWhite isWord)

/-! ## Where words and substitutes start -/

/-- A word to be respelled may start here. -/
def Opening (b : Option Char) (s : Text) : Prop :=
  ∃ c r, s = c :: r ∧ (c = '\\' ∨ c = '^' ∨ (c.toLower = 'r' ∧ b.any isWord = false))

/-- A roman substitute may start here, as far as the text goes. -/
def RomanOpening (b : Option Char) (s : Text) : Prop :=
  ∃ r, s = 'r' :: r ∧ b.any isWord = false ∧ ∀ d ∈ r.head?, d = 'm'

theorem opening_cons {b : Option Char} {c : Char} {s : Text} :
    Opening b (c :: s) ↔ c = '\\' ∨ c = '^' ∨ (c.toLower = 'r' ∧ b.any isWord = false) := by
  constructor
  · rintro ⟨d, r, heq, h⟩
    obtain ⟨rfl, rfl⟩ := List.cons.inj heq
    exact h
  · exact fun h => ⟨c, s, rfl, h⟩

/-- Behind its first letter, the one spelling of a primed `F` has no openings. -/
theorem nowhere_opening_tail_romanFPrime : Nowhere Opening (some 'r') romanFPrime.tail := by
  have hletters : romanFPrime.tail = ['m', ' ', 'F', ' ', 'p', 'r', 'i', 'm', 'e'] := rfl
  rw [hletters]
  simp only [Nowhere, opening_cons]
  decide

/-- Nor has a primed roman letter. -/
theorem nowhere_opening_primed {letter : Char} (h : letter.isAlpha = true) :
    Nowhere Opening (some 'r') ['m', letter, '\''] := by
  have hword : isWord 'm' = true := by decide
  have hne : letter ≠ '\\' ∧ letter ≠ '^' := by
    constructor <;> rintro rfl <;> exact absurd h (by decide)
  simp [Nowhere, opening_cons, hword, hne]

section RomanOpening

variable {b : Option Char} {u v : Text}

theorem nowhere_romanOpening_of_not_mem (hu : 'r' ∉ u) : Nowhere RomanOpening b u := by
  induction u generalizing b with
  | nil => trivial
  | cons c u ih =>
    obtain ⟨hc, hu⟩ := not_or.1 (fun h => hu (List.mem_cons.2 h))
    refine ⟨?_, ih hu⟩
    rintro ⟨r, heq, _⟩
    exact hc (List.cons.inj heq).1.symm

theorem nowhere_romanOpening_append (hu : Nowhere RomanOpening b u)
    (hv : ∀ b, Nowhere RomanOpening b v) : Nowhere RomanOpening b (u ++ v) := by
  induction u generalizing b with
  | nil => exact hv b
  | cons c u ih =>
    refine ⟨?_, ih hu.2⟩
    rintro ⟨r, heq, hb, hr⟩
    obtain ⟨rfl, rfl⟩ := List.cons.inj heq
    refine hu.1 ⟨u, rfl, hb, fun d hd => hr d ?_⟩
    cases u with
    | nil => cases hd
    | cons e u => exact hd

/-- In the word `prime` the `r` stands behind a letter. -/
theorem nowhere_romanOpening_primeWord (hu : Text.toLower u = primeWord) :
    Nowhere RomanOpening b u := by
  obtain ⟨c₁, c₂, c₃, c₄, c₅, rfl, h₁, _, h₃, h₄, h₅⟩ := toLower_eq_primeWord_iff.1 hu
  have hword : isWord c₁ = true :=
    isWord_of_isAlpha (isAlpha_of_toLower (by rw [h₁]; rfl))
  refine ⟨?_, ?_, nowhere_romanOpening_of_not_mem ?_⟩
  · rintro ⟨r, heq, _⟩
    rw [(List.cons.inj heq).1] at h₁
    exact absurd h₁ (by decide)
  · rintro ⟨r, _, hb, _⟩
    rw [Option.any_some, hword] at hb
    cases hb
  · simp only [List.mem_cons, List.not_mem_nil, or_false, not_or]
    refine ⟨?_, ?_, ?_⟩ <;> rintro rfl
    · exact absurd h₃ (by decide)
    · exact absurd h₄ (by decide)
    · exact absurd h₅ (by decide)

theorem nowhere_romanOpening_gap {gap : Text} (hgap : ∀ c ∈ gap, isWhite c = true) :
    Nowhere RomanOpening b gap :=
  nowhere_romanOpening_of_not_mem fun h => absurd (hgap _ h) (by decide)

end RomanOpening

/-! ## Kinds of words -/

namespace Respelling

/-- Words with the mark of a prime: they become an apostrophe. -/
structure IsApostrophe (p : Respelling) : Prop where
  sub_eq : ∀ ⦃b w next sub⦄, p b w next sub → sub = ['\'']
  exists_head : ∀ ⦃b w next sub⦄, p b w next sub → ∃ c r, w = c :: r ∧ (c = '\\' ∨ c = '^')

/-- Roman letters with a mark: they become the one spelling of a primed `F`, or an apostrophe takes
    the place of the mark. -/
structure IsRomanLetter (p : Respelling) : Prop where
  exists_isRoman : ∀ ⦃b w next sub⦄, p b w next sub → ∃ lead gap letter gap' mark,
    IsRoman b lead gap letter gap' mark w ∧ (sub = romanFPrime ∨
      sub = ['r', 'm', letter, '\''] ∧ ∀ last ∈ w.getLast?, isWord last = false)

/-- Words that start where a word may start, and into which no roman substitute is written. -/
structure IsStraight (R : Option Char → Option Char → Prop) (q : Respelling) : Prop where
  opening : ∀ ⦃b w next sub⦄, q b w next sub → Opening b w
  quiet : ∀ ⦃b c u next sub⦄, q b (c :: u) next sub → Nowhere RomanOpening (some c) u
  isLocal : q.Local R

/-- Words without an apostrophe. -/
def Unquoted (q : Respelling) : Prop := ∀ ⦃b w next sub⦄, q b w next sub → '\'' ∉ w

end Respelling

/-- Where a word goes on in the text, it goes on in what is written. -/
def KeepsWord (b b' : Option Char) : Prop := b.any isWord = true → b'.any isWord = true

section Kinds

variable {p q : Respelling} {R : Option Char → Option Char → Prop} {b b' : Option Char}
  {s t u : Text}

theorem Respelling.IsStraight.opening_of_changes (hq : q.IsStraight R) (h : q.Changes b s) :
    Opening b s := by
  obtain ⟨w, rest, sub, rfl, hword, _⟩ := h
  obtain ⟨c, r, rfl, hopening⟩ := hq.opening hword
  exact ⟨c, r ++ rest, rfl, hopening⟩

theorem Respelling.IsStraight.not_changes_cons (hq : q.IsStraight R) {c : Char}
    (hc : ¬Opening b (c :: u)) (t : Text) : ¬q.Changes b (c :: t) := fun h => by
  have hopening := hq.opening_of_changes h
  rw [opening_cons] at hc hopening
  exact hc hopening

/-- No word starts in a text without openings, whatever stands behind it. -/
theorem Respelling.IsStraight.nowhere_append (hq : q.IsStraight R) {c : Char}
    (hu : Nowhere Opening b (c :: u))
    (ht : ∀ last ∈ (c :: u).getLast?, Nowhere q.Changes (some last) t) :
    Nowhere q.Changes b (c :: u ++ t) := by
  induction u generalizing b c with
  | nil => exact ⟨hq.not_changes_cons hu.1 _, ht c rfl⟩
  | cons d u ih =>
    refine ⟨hq.not_changes_cons hu.1 _, ih hu.2 fun last hlast => ht last ?_⟩
    rwa [List.getLast?_cons_cons]

/-! ## Passes -/

namespace Respelling.IsApostrophe

theorem keepsHeads (hp : p.IsApostrophe) : p.KeepsHeads := by
  intro b w next sub hword
  obtain ⟨c, r, rfl, hc⟩ := hp.exists_head hword
  refine ⟨c, '\'', r, [], rfl, hp.sub_eq hword, ?_⟩
  rcases hc with rfl | rfl <;> exact ⟨by decide, by decide⟩

/-- Text without apostrophes is copied. -/
theorem exists_split (hp : p.IsApostrophe) (h : Rewrites p b s (u ++ t)) (hu : '\'' ∉ u) :
    ∃ s', s = u ++ s' ∧ Rewrites p (u.getLast?.or b) s' t := by
  induction u generalizing b s with
  | nil => exact ⟨s, rfl, h⟩
  | cons c u ih =>
    obtain ⟨hc, hu⟩ := not_or.1 (fun h => hu (List.mem_cons.2 h))
    generalize hout : c :: u ++ t = out at h
    cases h with
    | nil => cases hout
    | copied _ hrest =>
      obtain ⟨rfl, rfl⟩ := List.cons.inj hout
      obtain ⟨s', rfl, hbehind⟩ := ih hrest hu
      refine ⟨s', rfl, ?_⟩
      cases u with
      | nil => exact hbehind
      | cons d u =>
        rw [List.getLast?_cons_cons]
        rwa [List.getLast?_cons, Option.some_or] at hbehind ⊢
    | found hword _ =>
      obtain rfl := hp.sub_eq hword
      exact absurd (List.cons.inj hout).1.symm hc

/-- An apostrophe was copied, or it stands for a word. -/
theorem exists_of_quote (hp : p.IsApostrophe) (h : Rewrites p b s ('\'' :: t)) :
    (∃ s', s = '\'' :: s') ∨ ∃ w s', s = w ++ s' ∧ p b w s'.head? ['\''] := by
  generalize hout : '\'' :: t = out at h
  cases h with
  | nil => cases hout
  | copied =>
    obtain ⟨rfl, rfl⟩ := List.cons.inj hout
    exact .inl ⟨_, rfl⟩
  | @found _ w rest sub t last hword _ =>
    obtain rfl := hp.sub_eq hword
    exact .inr ⟨w ++ [last], rest, by simp, hword⟩

/-- No word starts at an apostrophe, so only the places count where the pass copies. -/
theorem nowhere_of_copied (hp : p.IsApostrophe) (hR : ∀ o, R o o) (hq : q.IsStraight R)
    (hlast : ∀ ⦃b w last next sub⦄, p b (w ++ [last]) next sub → R (some last) (some '\''))
    (old : Option Char → Text → Prop)
    (hcopied : ∀ {b b' c s t}, R b b' → ¬p.Matches b (c :: s) → ¬old b (c :: s) →
      Rewrites p (some c) s t → ¬q.Changes b' (c :: t))
    (h : Rewrites p b s t) (hs : Nowhere old b s) : Nowhere q.Changes b t := by
  refine h.nowhere old _ R (fun _ => hR _) hcopied ?_ hs (hR b)
  intro b b' w last rest sub t _ hword _ hbehind
  obtain rfl := hp.sub_eq hword
  have hopening : Nowhere Opening b' ['\''] := by
    refine ⟨?_, trivial⟩
    rw [opening_cons]
    simp
  refine hq.nowhere_append hopening fun c hc => hbehind _ ?_
  cases hc
  exact hlast hword

theorem nowhere_changes (hp : p.IsApostrophe) (hR : ∀ o, R o o) (hq : q.IsStraight R)
    (hquote : q.Unquoted)
    (hlast : ∀ ⦃b w last next sub⦄, p b (w ++ [last]) next sub → R (some last) (some '\''))
    (old : Option Char → Text → Prop) (hold : ∀ b s, q.Changes b s → p.Matches b s ∨ old b s)
    (h : Rewrites p b s t) (hs : Nowhere old b s) : Nowhere q.Changes b t := by
  have hspares : p.Spares q := by
    intro b w next sub hword
    obtain ⟨c, u, rfl, _⟩ := hq.opening hword
    refine ⟨c, u, rfl, fun s t hrest => ?_⟩
    obtain ⟨s', hs', hbehind⟩ :=
      hp.exists_split hrest fun hmem => hquote hword (List.mem_cons_of_mem _ hmem)
    exact ⟨_, s', hs', hbehind⟩
  refine hp.nowhere_of_copied hR hq hlast old ?_ h hs
  intro b b' c s t hR hdeclined hnone hrest hchanges
  exact (hold b _ (hrest.changes_of_copied hp.keepsHeads hq.isLocal hspares hR hchanges)).elim
    hdeclined hnone

end Respelling.IsApostrophe

namespace Respelling.IsRomanLetter

theorem keepsHeads (hp : p.IsRomanLetter) : p.KeepsHeads := by
  intro b w next sub hword
  obtain ⟨lead, gap, letter, gap', mark, hroman, hsub⟩ := hp.exists_isRoman hword
  obtain ⟨c, r, rfl, _, hc⟩ := hroman.exists_head
  have halike : Alike (some c) (some 'r') := by
    simp only [Alike, Option.any_some, hc, isWord_of_isAlpha hc]
    exact ⟨by decide, by decide⟩
  rcases hsub with rfl | ⟨rfl, _⟩
  · exact ⟨c, 'r', r, _, rfl, rfl, halike⟩
  · exact ⟨c, 'r', r, _, rfl, rfl, halike⟩

/-- A substitute starts with `rm` where a word may start. -/
theorem exists_sub (hp : p.IsRomanLetter) {w sub : Text} {next : Option Char}
    (hword : p b w next sub) : b.any isWord = false ∧ ∃ r, sub = 'r' :: 'm' :: r := by
  obtain ⟨lead, gap, letter, gap', mark, hroman, rfl | ⟨rfl, _⟩⟩ := hp.exists_isRoman hword
  · exact ⟨hroman.before, _, rfl⟩
  · exact ⟨hroman.before, _, rfl⟩

/-- Text in which no `rm` starts is copied. -/
theorem exists_split (hp : p.IsRomanLetter) (h : Rewrites p b s (u ++ t))
    (hu : Nowhere RomanOpening b u) : ∃ b' s', s = u ++ s' ∧ Rewrites p b' s' t := by
  induction u generalizing b s with
  | nil => exact ⟨b, s, rfl, h⟩
  | cons c u ih =>
    generalize hout : c :: u ++ t = out at h
    cases h with
    | nil => cases hout
    | copied _ hrest =>
      obtain ⟨rfl, rfl⟩ := List.cons.inj hout
      obtain ⟨b', s', rfl, hbehind⟩ := ih hrest hu.2
      exact ⟨b', s', rfl, hbehind⟩
    | found hword _ =>
      obtain ⟨hb, r, rfl⟩ := hp.exists_sub hword
      obtain ⟨rfl, hr⟩ := List.cons.inj hout
      refine absurd ⟨u, rfl, hb, fun d hd => ?_⟩ hu.1
      cases u with
      | nil => cases hd
      | cons e u =>
        cases hd
        exact (List.cons.inj hr).1

theorem nowhere_changes (hp : p.IsRomanLetter) (hq : q.IsStraight KeepsWord)
    (old : Option Char → Text → Prop) (hold : ∀ b s, q.Changes b s → p.Matches b s ∨ old b s)
    (hstart : ∀ ⦃b b' w rest sub t⦄, p b w rest.head? sub → ¬old b (w ++ rest) →
      ¬q.Changes b' (sub ++ t))
    (h : Rewrites p b s t) (hs : Nowhere old b s) : Nowhere q.Changes b t := by
  have hspares : p.Spares q := by
    intro b w next sub hword
    obtain ⟨c, u, rfl, _⟩ := hq.opening hword
    exact ⟨c, u, rfl, fun s t hrest => hp.exists_split hrest (hq.quiet hword)⟩
  refine h.nowhere_changes old (fun _ => id) hp.keepsHeads hq.isLocal hspares hold ?_ hs id
  intro b b' w last rest sub t _ hword hnone hbehind
  rw [List.append_cons] at hnone
  have hhead : ¬q.Changes b' (sub ++ t) := hstart hword hnone
  obtain ⟨lead, gap, letter, gap', mark, hroman, rfl | ⟨rfl, hlast⟩⟩ := hp.exists_isRoman hword
  · refine ⟨hhead, hq.nowhere_append nowhere_opening_tail_romanFPrime fun c hc => hbehind _ ?_⟩
    cases hc
    exact fun _ => by decide
  · refine ⟨hhead, hq.nowhere_append (nowhere_opening_primed hroman.isAlpha_letter) fun c hc =>
      hbehind _ ?_⟩
    cases hc
    intro hlastword
    rw [Option.any_some, hlast last (by simp)] at hlastword
    cases hlastword

end Respelling.IsRomanLetter

end Kinds

/-! ## Words with the mark of a prime -/

section Words

variable {R : Option Char → Option Char → Prop} {b b' : Option Char} {w word : Text}

theorem not_mem_of_toLower (h : Text.toLower w = word) {c : Char} (hc : c.toLower ∉ word) :
    c ∉ w := fun hmem => hc (h ▸ List.mem_map_of_mem hmem)

theorem not_mem_gap {gap : Text} (hgap : ∀ c ∈ gap, isWhite c = true) {c : Char}
    (hc : isWhite c = false) : c ∉ gap := fun hmem => by
  rw [hgap c hmem] at hc
  cases hc

theorem isApostrophe_escapedPrime : EscapedPrime.IsApostrophe where
  sub_eq _ _ _ _ h := h.1
  exists_head := by
    rintro b w next sub ⟨_, _, n, word, _, rfl⟩
    exact ⟨'\\', _, rfl, .inl rfl⟩

theorem isApostrophe_superscriptPrime : SuperscriptPrime.IsApostrophe where
  sub_eq _ _ _ _ h := h.1
  exists_head := by
    rintro b w next sub ⟨_, gap, _, ⟨_, rfl⟩ | ⟨inner, outer, _, _, rfl⟩⟩
    · exact ⟨'^', _, rfl, .inr rfl⟩
    · exact ⟨'^', _, rfl, .inr rfl⟩

theorem isApostrophe_escapedApostrophe : EscapedApostrophe.IsApostrophe where
  sub_eq _ _ _ _ h := h.1
  exists_head := by
    rintro b w next sub ⟨_, n, rfl⟩
    exact ⟨'\\', _, rfl, .inl rfl⟩

theorem isApostrophe_bareBackslash : BareBackslash.IsApostrophe where
  sub_eq _ _ _ _ h := h.1
  exists_head := by
    rintro b w next sub ⟨_, rfl, _⟩
    exact ⟨'\\', _, rfl, .inl rfl⟩

theorem Respelling.IsApostrophe.opening {p : Respelling} (hp : p.IsApostrophe) {w sub : Text}
    {next : Option Char} (hword : p b w next sub) : Opening b w := by
  obtain ⟨c, r, hw, hc⟩ := hp.exists_head hword
  exact ⟨c, r, hw, hc.imp_right .inl⟩

theorem isStraight_escapedPrime : EscapedPrime.IsStraight R where
  opening _ _ _ _ h := isApostrophe_escapedPrime.opening h
  quiet := by
    rintro b c u next sub ⟨_, _, n, word, hword, hw⟩
    obtain ⟨rfl, rfl⟩ := List.cons.inj hw
    exact nowhere_romanOpening_append (nowhere_romanOpening_of_not_mem (by simp))
      fun b => nowhere_romanOpening_primeWord hword
  isLocal := by
    rintro b b' w next next' sub _ halike ⟨hsub, hend, hw⟩
    exact ⟨hsub, halike.1.trans hend, hw⟩

theorem isStraight_superscriptPrime : SuperscriptPrime.IsStraight R where
  opening _ _ _ _ h := isApostrophe_superscriptPrime.opening h
  quiet := by
    have hprime (b : Option Char) : Nowhere RomanOpening b primeWord :=
      nowhere_romanOpening_primeWord rfl
    rintro b c u next sub ⟨_, gap, hgap, ⟨_, hw⟩ | ⟨inner, outer, hinner, houter, hw⟩⟩
    · obtain ⟨rfl, rfl⟩ := List.cons.inj hw
      exact nowhere_romanOpening_append (nowhere_romanOpening_gap hgap) hprime
    · obtain ⟨rfl, rfl⟩ := List.cons.inj hw
      have hbrace (b : Option Char) : Nowhere RomanOpening b ['{'] :=
        nowhere_romanOpening_of_not_mem (by decide)
      exact nowhere_romanOpening_append (nowhere_romanOpening_gap hgap) fun b =>
        nowhere_romanOpening_append (hbrace b) fun b =>
        nowhere_romanOpening_append (nowhere_romanOpening_gap hinner) fun b =>
        nowhere_romanOpening_append (hprime b) fun b =>
        nowhere_romanOpening_append (nowhere_romanOpening_gap houter) fun b =>
        nowhere_romanOpening_of_not_mem (by decide)
  isLocal := by
    rintro b b' w next next' sub _ halike ⟨hsub, gap, hgap, ⟨hend, hw⟩ | hbraces⟩
    · exact ⟨hsub, gap, hgap, .inl ⟨halike.1.trans hend, hw⟩⟩
    · exact ⟨hsub, gap, hgap, .inr hbraces⟩

theorem isStraight_escapedApostrophe : EscapedApostrophe.IsStraight R where
  opening _ _ _ _ h := isApostrophe_escapedApostrophe.opening h
  quiet := by
    rintro b c u next sub ⟨_, n, hw⟩
    obtain ⟨rfl, rfl⟩ := List.cons.inj hw
    exact nowhere_romanOpening_of_not_mem (by simp)
  isLocal _ _ _ _ _ _ _ _ h := h

theorem unquoted_escapedPrime : EscapedPrime.Unquoted := by
  rintro b w next sub ⟨_, _, n, word, hword, rfl⟩
  have hquote : '\'' ∉ word := not_mem_of_toLower hword (by decide)
  simp [hquote]

theorem unquoted_superscriptPrime : SuperscriptPrime.Unquoted := by
  have hprime : '\'' ∉ primeWord := by decide
  rintro b w next sub ⟨_, gap, hgap, ⟨_, rfl⟩ | ⟨inner, outer, hinner, houter, rfl⟩⟩
  · have hgap := not_mem_gap hgap (c := '\'') (by decide)
    simp [hgap, hprime]
  · have hgap := not_mem_gap hgap (c := '\'') (by decide)
    have hinner := not_mem_gap hinner (c := '\'') (by decide)
    have houter := not_mem_gap houter (c := '\'') (by decide)
    simp [hgap, hprime, hinner, houter]

end Words

/-! ## Roman letters with a mark -/

section Roman

variable {b b' : Option Char} {lead gap gap' mark w : Text} {letter : Char}

namespace IsRoman

theorem opening (h : IsRoman b lead gap letter gap' mark w) : Opening b w := by
  obtain ⟨c, r, hw, hc, _⟩ := h.exists_head
  exact ⟨c, r, hw, .inr (.inr ⟨hc, h.before⟩)⟩

theorem of_keepsWord (h : IsRoman b' lead gap letter gap' mark w) (hb : KeepsWord b b') :
    IsRoman b lead gap letter gap' mark w := by
  refine { h with before := Bool.eq_false_iff.2 fun hword => ?_ }
  have hbefore := hb hword
  rw [h.before] at hbefore
  cases hbefore

theorem getLast?_eq {c : Char} (h : IsRoman b lead gap letter gap' [c] w) :
    w.getLast? = some c := by
  have hw : w = lead ++ (gap ++ letter :: gap') ++ [c] := by rw [h.eq]; simp
  rw [hw, List.getLast?_concat]

/-- The letter may be an `r`, but no `m` stands behind it. -/
theorem nowhere_romanOpening {c : Char} {u : Text}
    (h : IsRoman b lead gap letter gap' mark (c :: u))
    (hmark : ∀ b, Nowhere RomanOpening b mark) (hm : mark.head? ≠ some 'm') :
    Nowhere RomanOpening (some c) u := by
  obtain ⟨c', d, rfl, _, hd⟩ := h.exists_lead
  obtain ⟨rfl, rfl⟩ := List.cons.inj h.eq
  have hfirst : 'r' ∉ d :: gap := by
    rw [List.mem_cons, not_or]
    refine ⟨?_, not_mem_gap h.isWhite_gap (by decide)⟩
    rintro rfl
    exact absurd hd (by decide)
  refine nowhere_romanOpening_append (u := d :: gap) (nowhere_romanOpening_of_not_mem hfirst)
    fun b => ⟨?_, nowhere_romanOpening_append (nowhere_romanOpening_gap h.isWhite_gap') hmark⟩
  rintro ⟨r, heq, _, hr⟩
  obtain ⟨_, rfl⟩ := List.cons.inj heq
  obtain ⟨e, r, rfl, _⟩ := h.mark_eq
  cases gap' with
  | nil => exact hm (by rw [hr e rfl]; rfl)
  | cons f gap' =>
    have hf := h.isWhite_gap' f List.mem_cons_self
    rw [hr f rfl] at hf
    exact absurd hf (by decide)

theorem quote_not_mem (h : IsRoman b lead gap letter gap' mark w) (hmark : '\'' ∉ mark) :
    '\'' ∉ w := by
  have hlead : '\'' ∉ lead := not_mem_of_toLower h.toLower_lead (by decide)
  have hletter : '\'' ≠ letter := by
    rintro rfl
    exact absurd h.isAlpha_letter (by decide)
  have hgap := not_mem_gap h.isWhite_gap (c := '\'') (by decide)
  have hgap' := not_mem_gap h.isWhite_gap' (c := '\'') (by decide)
  rw [h.eq]
  simp [hlead, hletter, hgap, hgap', hmark]

end IsRoman

theorem isRomanLetter_romanBackslash : RomanBackslash.IsRomanLetter where
  exists_isRoman := by
    rintro b w next sub ⟨_, gap, letter, gap', hw, rfl⟩
    refine ⟨_, gap, letter, gap', _, hw, .inr ⟨rfl, fun last hlast => ?_⟩⟩
    rw [hw.getLast?_eq] at hlast
    cases hlast
    decide

theorem isRomanLetter_romanFApostrophe : RomanFApostrophe.IsRomanLetter where
  exists_isRoman := by
    rintro b w next sub ⟨rfl, gap, gap', hw⟩
    exact ⟨_, gap, _, gap', _, hw, .inl rfl⟩

theorem isRomanLetter_romanFWord : RomanFWord.IsRomanLetter where
  exists_isRoman := by
    rintro b w next sub ⟨rfl, _, lead, gap, letter, gap', mark, hw, _⟩
    exact ⟨lead, gap, letter, gap', mark, hw, .inl rfl⟩

theorem isRomanLetter_romanSpaced : RomanSpaced.IsRomanLetter where
  exists_isRoman := by
    rintro b w next sub ⟨gap, letter, _, hw, rfl⟩
    refine ⟨_, gap, letter, _, _, hw, .inr ⟨rfl, fun last hlast => ?_⟩⟩
    rw [hw.getLast?_eq] at hlast
    cases hlast
    decide

theorem isStraight_romanBackslash : RomanBackslash.IsStraight KeepsWord where
  opening := by
    rintro b w next sub ⟨_, gap, letter, gap', hw, _⟩
    exact hw.opening
  quiet := by
    rintro b c u next sub ⟨_, gap, letter, gap', hw, _⟩
    exact hw.nowhere_romanOpening (fun b => nowhere_romanOpening_of_not_mem (by decide)) (by decide)
  isLocal := by
    rintro b b' w next next' sub hb halike ⟨hend, gap, letter, gap', hw, hsub⟩
    exact ⟨halike.2.trans hend, gap, letter, gap', hw.of_keepsWord hb, hsub⟩

theorem isStraight_romanFApostrophe : RomanFApostrophe.IsStraight KeepsWord where
  opening := by
    rintro b w next sub ⟨_, gap, gap', hw⟩
    exact hw.opening
  quiet := by
    rintro b c u next sub ⟨_, gap, gap', hw⟩
    exact hw.nowhere_romanOpening (fun b => nowhere_romanOpening_of_not_mem (by decide)) (by decide)
  isLocal := by
    rintro b b' w next next' sub hb _ ⟨hsub, gap, gap', hw⟩
    exact ⟨hsub, gap, gap', hw.of_keepsWord hb⟩

theorem isStraight_romanFWord : RomanFWord.IsStraight KeepsWord where
  opening := by
    rintro b w next sub ⟨_, _, lead, gap, letter, gap', mark, hw, _⟩
    exact hw.opening
  quiet := by
    rintro b c u next sub ⟨_, _, lead, gap, letter, gap', mark, hw, _, hmark⟩
    refine hw.nowhere_romanOpening (fun b => nowhere_romanOpening_primeWord hmark) ?_
    obtain ⟨c₁, c₂, c₃, c₄, c₅, rfl, hc, _⟩ := toLower_eq_primeWord_iff.1 hmark
    rintro ⟨⟩
    exact absurd hc (by decide)
  isLocal := by
    rintro b b' w next next' sub hb halike ⟨hsub, hend, lead, gap, letter, gap', mark, hw, hmark⟩
    exact ⟨hsub, halike.1.trans hend, lead, gap, letter, gap', mark, hw.of_keepsWord hb, hmark⟩

theorem isStraight_romanSpaced : RomanSpaced.IsStraight KeepsWord where
  opening := by
    rintro b w next sub ⟨gap, letter, _, hw, _⟩
    exact hw.opening
  quiet := by
    rintro b c u next sub ⟨gap, letter, _, hw, _⟩
    exact hw.nowhere_romanOpening (fun b => nowhere_romanOpening_of_not_mem (by decide)) (by decide)
  isLocal := by
    rintro b b' w next next' sub hb _ ⟨gap, letter, hne, hw, hsub⟩
    exact ⟨gap, letter, hne, hw.of_keepsWord hb, hsub⟩

theorem unquoted_romanBackslash : RomanBackslash.Unquoted := by
  rintro b w next sub ⟨_, gap, letter, gap', hw, _⟩
  exact hw.quote_not_mem (by decide)

theorem unquoted_romanFWord : RomanFWord.Unquoted := by
  rintro b w next sub ⟨_, _, lead, gap, letter, gap', mark, hw, _, hmark⟩
  exact hw.quote_not_mem (not_mem_of_toLower hmark (by decide))

end Roman

end Scribe.Repair
