import Scribe.Proofs.Repair.PrimePasses

set_option autoImplicit false

/-! # Canonical primes

The nine steps are run once, in order, and a later step may write what an earlier one looks for. It
does not, with one exception: where a roman `F` with an apostrophe becomes `rm F prime`, a letter
comes to stand in front of a backslash that was not bare before. Main statement: canonical primes
are changed by a second run only in the backslashes that are bare, and not at all by a third. -/

namespace Scribe.Repair

open Text (isWhite isWord)

/-! ## Substitutes are no new words -/

section Start

variable {b b' : Option Char} {lead gap gap' mark w lead₂ gap₂ gap₂' mark₂ w₂ : Text}
  {letter letter₂ : Char} {s t rest rest₂ : Text}

theorem eq_of_gap_append {x y : Char} (hgap : ∀ c ∈ gap, isWhite c = true)
    (hgap₂ : ∀ c ∈ gap₂, isWhite c = true) (hx : isWhite x = false) (hy : isWhite y = false)
    (h : gap ++ x :: s = gap₂ ++ y :: t) : gap = gap₂ ∧ x = y ∧ s = t := by
  have hskip := congrArg skipWhite h
  rw [skipWhite_append hgap hx, skipWhite_append hgap₂ hy] at hskip
  obtain ⟨rfl, rfl⟩ := List.cons.inj hskip
  exact ⟨List.append_cancel_right h, rfl, rfl⟩

/-- A text starts with one roman letter in one way only, up to what its mark is. -/
theorem IsRoman.unique (h : IsRoman b lead gap letter gap' mark w)
    (h₂ : IsRoman b' lead₂ gap₂ letter₂ gap₂' mark₂ w₂) (heq : w ++ rest = w₂ ++ rest₂) :
    lead = lead₂ ∧ gap = gap₂ ∧ letter = letter₂ ∧ gap' = gap₂' ∧
      mark ++ rest = mark₂ ++ rest₂ := by
  obtain ⟨c, d, rfl, _⟩ := h.exists_lead
  obtain ⟨c₂, d₂, rfl, _⟩ := h₂.exists_lead
  obtain ⟨e, r, rfl, he⟩ := h.mark_eq
  obtain ⟨e₂, r₂, rfl, he₂⟩ := h₂.mark_eq
  rw [h.eq, h₂.eq] at heq
  simp only [List.cons_append, List.nil_append, List.append_assoc, List.cons.injEq] at heq
  obtain ⟨rfl, rfl, hgap⟩ := heq
  obtain ⟨rfl, rfl, hgap'⟩ := eq_of_gap_append h.isWhite_gap h₂.isWhite_gap
    (isWhite_of_isAlpha h.isAlpha_letter) (isWhite_of_isAlpha h₂.isAlpha_letter) hgap
  obtain ⟨rfl, rfl, hmark⟩ := eq_of_gap_append h.isWhite_gap' h₂.isWhite_gap' he he₂ hgap'
  exact ⟨rfl, rfl, rfl, rfl, by rw [List.cons_append, List.cons_append, hmark]⟩

theorem isRoman_primed (h : letter.isAlpha = true) :
    IsRoman none "rm".toList [] letter [] ['\''] ['r', 'm', letter, '\''] :=
  ⟨rfl, rfl, by simp, h, by simp, ⟨'\'', [], rfl, rfl⟩, rfl⟩

theorem isRoman_romanFPrime : IsRoman none "rm".toList [' '] 'F' [' '] primeWord romanFPrime :=
  ⟨rfl, rfl, List.forall_mem_singleton.2 rfl, rfl, List.forall_mem_singleton.2 rfl,
    ⟨'p', _, rfl, rfl⟩, rfl⟩

end Start

/-- What takes the place of a roman letter with a mark. -/
def RomanSubstitute (sub : Text) : Prop :=
  sub = romanFPrime ∨ ∃ letter : Char, letter.isAlpha = true ∧ sub = ['r', 'm', letter, '\'']

namespace Respelling

/-- No word that is to be respelled starts where a roman substitute starts. -/
def IsClear (q : Respelling) : Prop :=
  ∀ ⦃sub⦄, RomanSubstitute sub → ∀ b t, ¬q.Changes b (sub ++ t)

theorem IsApostrophe.isClear {q : Respelling} (hq : q.IsApostrophe) : q.IsClear := by
  rintro sub hsub b t ⟨w, rest, sub', heq, hword, _⟩
  obtain ⟨c, r, rfl, hc⟩ := hq.exists_head hword
  obtain ⟨r', rfl⟩ : ∃ r', sub = 'r' :: r' := by
    rcases hsub with rfl | ⟨letter, _, rfl⟩
    · exact ⟨_, rfl⟩
    · exact ⟨_, rfl⟩
  obtain ⟨rfl, _⟩ := List.cons.inj heq
  exact absurd hc (by decide)

end Respelling

/-- What stands behind the letter of a substitute is no backslash. -/
theorem isClear_romanBackslash : RomanBackslash.IsClear := by
  rintro sub hsub b t ⟨w, rest, sub', heq, ⟨_, gap, letter, gap', hw, _⟩, _⟩
  rcases hsub with rfl | ⟨x, hx, rfl⟩
  · obtain ⟨_, _, _, _, hmark⟩ := isRoman_romanFPrime.unique hw heq
    cases hmark
  · obtain ⟨_, _, _, _, hmark⟩ := (isRoman_primed hx).unique hw heq
    cases hmark

theorem isClear_romanFWord : RomanFWord.IsClear := by
  rintro sub hsub b t ⟨w, rest, sub', heq, hchange, hne⟩
  obtain ⟨rfl, _, lead, gap, letter, gap', mark, hw, _, hword⟩ := hchange
  obtain ⟨c₁, c₂, c₃, c₄, c₅, rfl, h₁, _⟩ := toLower_eq_primeWord_iff.1 hword
  rcases hsub with rfl | ⟨x, hx, rfl⟩
  · -- This one is found, but it is spelled as it should be.
    obtain ⟨rfl, rfl, rfl, rfl, hmark⟩ := isRoman_romanFPrime.unique hw heq
    obtain ⟨hmark, _⟩ := List.append_inj hmark rfl
    rw [← hmark] at hw
    exact hne (isRoman_romanFPrime.eq.trans hw.eq.symm)
  · obtain ⟨_, _, _, _, hmark⟩ := (isRoman_primed hx).unique hw heq
    obtain ⟨rfl, _⟩ := List.cons.inj hmark
    exact absurd h₁ (by decide)

/-- Only the primed `F` has a gap in front of its letter, and it is not marked with an
    apostrophe. -/
theorem isClear_romanSpaced : RomanSpaced.IsClear := by
  rintro sub hsub b t ⟨w, rest, sub', heq, ⟨gap, letter, hne, hw, _⟩, _⟩
  rcases hsub with rfl | ⟨x, hx, rfl⟩
  · obtain ⟨_, _, _, _, hmark⟩ := isRoman_romanFPrime.unique hw heq
    cases hmark
  · obtain ⟨_, hgap, _⟩ := (isRoman_primed hx).unique hw heq
    exact hne hgap.symm

/-- A primed `F` is not spelled with an apostrophe. -/
theorem not_changes_romanFApostrophe (b : Option Char) (t : Text) :
    ¬RomanFApostrophe.Changes b (romanFPrime ++ t) := by
  rintro ⟨w, rest, sub', heq, ⟨_, gap, gap', hw⟩, _⟩
  obtain ⟨_, _, _, _, hmark⟩ := isRoman_romanFPrime.unique hw heq
  cases hmark

/-! ## Steps -/

/-- The words do not occur in what the step writes. -/
def Removes (f : Text → Text) (q : Respelling) : Prop := ∀ s, Nowhere q.Changes none (f s)

/-- The step brings in no words of the kind. -/
def Keeps (f : Text → Text) (q : Respelling) : Prop :=
  ∀ s, Nowhere q.Changes none s → Nowhere q.Changes none (f s)

section Steps

variable {p q : Respelling} {f : Text → Text}

theorem Respelling.IsApostrophe.removes (hp : p.IsApostrophe) (hf : ∀ s, Rewrites p none s (f s))
    (hstraight : ∀ R, p.IsStraight R) (hquote : p.Unquoted) : Removes f p := fun s =>
  hp.nowhere_changes (R := fun _ _ => True) (fun _ => trivial) (hstraight _) hquote
    (fun _ _ _ _ _ _ => trivial) (fun _ _ => False) (fun _ _ h => .inl h.matches) (hf s)
    (Nowhere.of_forall fun _ _ => id)

theorem Respelling.IsApostrophe.keeps (hp : p.IsApostrophe) (hf : ∀ s, Rewrites p none s (f s))
    (hstraight : ∀ R, q.IsStraight R) (hquote : q.Unquoted) : Keeps f q := fun s hs =>
  hp.nowhere_changes (R := fun _ _ => True) (fun _ => trivial) (hstraight _) hquote
    (fun _ _ _ _ _ _ => trivial) q.Changes (fun _ _ => .inr) (hf s) hs

theorem Respelling.IsRomanLetter.romanSubstitute (hp : p.IsRomanLetter) {b next : Option Char}
    {w sub : Text} (hword : p b w next sub) : RomanSubstitute sub := by
  obtain ⟨lead, gap, letter, gap', mark, hroman, hsub⟩ := hp.exists_isRoman hword
  exact hsub.imp_right fun h => ⟨letter, hroman.isAlpha_letter, h.1⟩

theorem Respelling.IsRomanLetter.removes (hp : p.IsRomanLetter)
    (hf : ∀ s, Rewrites p none s (f s)) (hstraight : p.IsStraight KeepsWord)
    (hclear : p.IsClear) : Removes f p := fun s =>
  hp.nowhere_changes hstraight (fun _ _ => False) (fun _ _ h => .inl h.matches)
    (fun _ _ _ _ _ _ hword _ => hclear (hp.romanSubstitute hword) _ _) (hf s)
    (Nowhere.of_forall fun _ _ => id)

theorem Respelling.IsRomanLetter.keeps (hp : p.IsRomanLetter) (hf : ∀ s, Rewrites p none s (f s))
    (hstraight : q.IsStraight KeepsWord) (hclear : q.IsClear) : Keeps f q := fun s hs =>
  hp.nowhere_changes hstraight q.Changes (fun _ _ => .inr)
    (fun _ _ _ _ _ _ hword _ => hclear (hp.romanSubstitute hword) _ _) (hf s) hs

end Steps

theorem rewrites_escapedPrime (s : Text) :
    Rewrites EscapedPrime none s (escapedPrime.replace none s) :=
  finds_escapedPrime.rewrites isApostrophe_escapedPrime.keepsHeads none s

theorem rewrites_superscriptPrime (s : Text) :
    Rewrites SuperscriptPrime none s (superscriptPrime.replace none s) :=
  finds_superscriptPrime.rewrites isApostrophe_superscriptPrime.keepsHeads none s

theorem rewrites_escapedApostrophe (s : Text) :
    Rewrites EscapedApostrophe none s (escapedApostrophe.replace none s) :=
  finds_escapedApostrophe.rewrites isApostrophe_escapedApostrophe.keepsHeads none s

theorem rewrites_romanFApostrophe (s : Text) :
    Rewrites RomanFApostrophe none s (romanFApostrophe.replace none s) :=
  finds_romanFApostrophe.rewrites isRomanLetter_romanFApostrophe.keepsHeads none s

theorem rewrites_romanFWord (s : Text) :
    Rewrites RomanFWord none s (romanFWord.replace none s) :=
  finds_romanFWord.rewrites isRomanLetter_romanFWord.keepsHeads none s

theorem rewrites_romanSpaced (s : Text) :
    Rewrites RomanSpaced none s (romanSpaced.replace none s) :=
  finds_romanSpaced.rewrites isRomanLetter_romanSpaced.keepsHeads none s

/-! ## Apostrophes behind backslashes -/

section Escaped

variable {b b' : Option Char} {c : Char} {s t : Text}

/-- A run of backslashes that ends with an apostrophe was read as one, or longer: the last of it may
    have been left by a shorter match. -/
theorem not_changes_of_copied_escapedApostrophe (hdeclined : ¬EscapedApostrophe.Matches b (c :: s))
    (hrest : Rewrites EscapedApostrophe (some c) s t) :
    ¬EscapedApostrophe.Changes b' (c :: t) := by
  rintro ⟨w, rest, sub, heq, ⟨_, n, rfl⟩, _⟩
  obtain ⟨rfl, rfl⟩ := List.cons.inj heq
  rw [List.append_eq, List.append_eq, List.append_assoc] at hrest
  obtain ⟨s', rfl, hquote⟩ := isApostrophe_escapedApostrophe.exists_split hrest (by simp)
  refine hdeclined ?_
  rcases isApostrophe_escapedApostrophe.exists_of_quote hquote with
    ⟨r, rfl⟩ | ⟨_, r, rfl, _, m, rfl⟩
  · exact ⟨List.replicate (n + 1) '\\' ++ ['\''], r, ['\''],
      by simp [List.replicate_succ], rfl, n, rfl⟩
  · have hrun : '\\' :: (List.replicate n '\\' ++ List.replicate (m + 1) '\\')
        = List.replicate (n + (m + 1) + 1) '\\' := by
      rw [List.replicate_append_replicate, List.replicate_succ]
    refine ⟨List.replicate (n + (m + 1) + 1) '\\' ++ ['\''], r, ['\''], ?_, rfl, _, rfl⟩
    rw [← hrun]
    simp only [List.cons_append, List.append_assoc]

theorem removes_escapedApostrophe :
    Removes (escapedApostrophe.replace none) EscapedApostrophe := fun s =>
  isApostrophe_escapedApostrophe.nowhere_of_copied (R := fun _ _ => True) (fun _ => trivial)
    isStraight_escapedApostrophe (fun _ _ _ _ _ _ => trivial) (fun _ _ => False)
    (fun _ hdeclined _ hrest => not_changes_of_copied_escapedApostrophe hdeclined hrest)
    (rewrites_escapedApostrophe s) (Nowhere.of_forall fun _ _ => id)

/-- Behind a backslash no backslash is bare. -/
theorem changes_of_copied_bareBackslash
    (hrest : Rewrites BareBackslash (some c) s t) (h : EscapedApostrophe.Changes b' (c :: t)) :
    EscapedApostrophe.Changes b (c :: s) := by
  obtain ⟨w, rest, sub, heq, ⟨rfl, n, rfl⟩, hne⟩ := h
  obtain ⟨rfl, rfl⟩ := List.cons.inj heq
  rw [List.append_eq, List.append_eq, List.append_assoc] at hrest
  obtain ⟨s', rfl, hquote⟩ := isApostrophe_bareBackslash.exists_split hrest (by simp)
  rcases isApostrophe_bareBackslash.exists_of_quote hquote with
    ⟨r, rfl⟩ | ⟨_, r, rfl, _, _, hbefore, _⟩
  · exact ⟨List.replicate (n + 1) '\\' ++ ['\''], r, ['\''],
      by simp [List.replicate_succ], ⟨rfl, n, rfl⟩, hne⟩
  · have hlast : (List.replicate n '\\').getLast?.or (some '\\') = some '\\' := by
      cases n <;> simp [List.getLast?_replicate]
    rw [hlast] at hbefore
    cases hbefore

end Escaped

/-! ## Bare backslashes -/

section Bare

variable {q : Respelling} {b b' : Option Char} {gap gap' w rest : Text} {c letter : Char}
  {s t : Text}

theorem keepsWord_of_bareBackslash {next : Option Char} {last : Char} {sub : Text}
    (h : BareBackslash b (w ++ [last]) next sub) : KeepsWord (some last) (some '\'') := by
  obtain ⟨_, hw, _⟩ := h
  have hlast := congrArg List.getLast? hw
  rw [List.getLast?_concat] at hlast
  cases hlast
  intro hword
  exact absurd hword (by decide)

theorem keeps_bareBackslashes (hq : q.IsStraight KeepsWord) (hquote : q.Unquoted) :
    Keeps (bareBackslashes none) q := fun s hs =>
  isApostrophe_bareBackslash.nowhere_changes (fun _ => id) hq hquote
    (fun _ _ _ _ _ => keepsWord_of_bareBackslash) q.Changes (fun _ _ => .inr)
    (rewrites_bareBackslashes none s) hs

theorem keeps_bareBackslashes_escapedApostrophe :
    Keeps (bareBackslashes none) EscapedApostrophe := fun s hs =>
  isApostrophe_bareBackslash.nowhere_of_copied (R := fun _ _ => True) (fun _ => trivial)
    isStraight_escapedApostrophe (fun _ _ _ _ _ _ => trivial) EscapedApostrophe.Changes
    (fun _ _ hnone hrest h => hnone (changes_of_copied_bareBackslash hrest h))
    (rewrites_bareBackslashes none s) hs

/-- The apostrophe of a roman letter was there before, or it was a backslash that marked the
    letter. -/
theorem exists_or_changes_of_copied (hw : IsRoman b' "rm".toList gap letter gap' ['\''] w)
    (heq : c :: t = w ++ rest) (hb : KeepsWord b b') (hrest : Rewrites BareBackslash (some c) s t) :
    (∃ rest', c :: s = w ++ rest') ∨ RomanBackslash.Changes b (c :: s) := by
  have hsplit : c :: t = 'r' :: ('m' :: (gap ++ letter :: gap') ++ '\'' :: rest) := by
    rw [heq, hw.eq]
    simp
  obtain ⟨rfl, rfl⟩ := List.cons.inj hsplit
  have hback : IsRoman b "rm".toList gap letter gap' ['\\']
      ('r' :: ('m' :: (gap ++ letter :: gap') ++ ['\\'])) :=
    { hw.of_keepsWord hb with mark_eq := ⟨'\\', [], rfl, rfl⟩, eq := by simp }
  have hquote : '\'' ∉ 'r' :: ('m' :: (gap ++ letter :: gap') ++ ['\\']) :=
    hback.quote_not_mem (by decide)
  obtain ⟨s', rfl, hbehind⟩ := isApostrophe_bareBackslash.exists_split hrest
    fun hmem => hquote (List.mem_cons_of_mem _ (List.mem_append_left _ hmem))
  rcases isApostrophe_bareBackslash.exists_of_quote hbehind with
    ⟨r, rfl⟩ | ⟨_, r, rfl, _, rfl, _, hend⟩
  · exact .inl ⟨r, by rw [hw.eq]; simp⟩
  · refine .inr ⟨_, r, ['r', 'm', letter, '\''], by simp, ⟨hend, gap, letter, gap', hback, rfl⟩, ?_⟩
    intro hsame
    exact hquote (hsame ▸ by simp)

theorem nowhere_romanFApostrophe_bareBackslashes (hback : Nowhere RomanBackslash.Changes none s)
    (hs : Nowhere RomanFApostrophe.Changes none s) :
    Nowhere RomanFApostrophe.Changes none (bareBackslashes none s) := by
  refine isApostrophe_bareBackslash.nowhere_of_copied (fun _ => id) isStraight_romanFApostrophe
    (fun _ _ _ _ _ => keepsWord_of_bareBackslash) _ ?_ (rewrites_bareBackslashes none s)
    (hback.or hs)
  rintro b b' c s t hb _ hnone hrest ⟨w, rest, sub, heq, ⟨hsub, gap, gap', hw⟩, hne⟩
  rcases exists_or_changes_of_copied hw heq hb hrest with ⟨rest', heq'⟩ | hchanges
  · exact hnone (.inr ⟨w, rest', sub, heq', ⟨hsub, gap, gap', hw.of_keepsWord hb⟩, hne⟩)
  · exact hnone (.inl hchanges)

theorem nowhere_romanSpaced_bareBackslashes (hback : Nowhere RomanBackslash.Changes none s)
    (hs : Nowhere RomanSpaced.Changes none s) :
    Nowhere RomanSpaced.Changes none (bareBackslashes none s) := by
  refine isApostrophe_bareBackslash.nowhere_of_copied (fun _ => id) isStraight_romanSpaced
    (fun _ _ _ _ _ => keepsWord_of_bareBackslash) _ ?_ (rewrites_bareBackslashes none s)
    (hback.or hs)
  rintro b b' c s t hb _ hnone hrest ⟨w, rest, sub, heq, ⟨gap, letter, hgap, hw, hsub⟩, hne⟩
  rcases exists_or_changes_of_copied hw heq hb hrest with ⟨rest', heq'⟩ | hchanges
  · exact hnone (.inr ⟨w, rest', sub, heq', ⟨gap, letter, hgap, hw.of_keepsWord hb, hsub⟩, hne⟩)
  · exact hnone (.inl hchanges)

/-- An apostrophe is no letter, so a backslash behind it is not bare. -/
theorem removes_bareBackslashes : Removes (bareBackslashes none) BareBackslash := fun s => by
  have hstraight : BareBackslash.IsStraight
      fun b b' => b'.any Char.isAlpha = true → b.any Char.isAlpha = true := by
    refine ⟨fun _ _ _ _ h => isApostrophe_bareBackslash.opening h, ?_, ?_⟩
    · rintro b c u next sub ⟨_, hw, _⟩
      cases hw
      trivial
    · rintro b b' w next next' sub hb halike ⟨hsub, hw, hbefore, hend⟩
      exact ⟨hsub, hw, hb hbefore, halike.2.trans hend⟩
  have hquote : BareBackslash.Unquoted := by
    rintro b w next sub ⟨_, rfl, _⟩
    decide
  exact isApostrophe_bareBackslash.nowhere_changes (fun _ => id) hstraight hquote
    (fun _ _ _ _ _ _ h => absurd h (by decide)) (fun _ _ => False) (fun _ _ h => .inl h.matches)
    (rewrites_bareBackslashes none s) (Nowhere.of_forall fun _ _ => id)

end Bare

/-! ## Primed letters -/

theorem removes_romanFApostrophe : Removes (romanFApostrophe.replace none) RomanFApostrophe :=
  fun s => by
  refine isRomanLetter_romanFApostrophe.nowhere_changes isStraight_romanFApostrophe
    (fun _ _ => False) (fun _ _ h => .inl h.matches) ?_ (rewrites_romanFApostrophe s)
    (Nowhere.of_forall fun _ _ => id)
  rintro b b' w rest sub t ⟨rfl, _⟩ _
  exact not_changes_romanFApostrophe b' t

theorem keeps_romanFWord_romanFApostrophe : Keeps (romanFWord.replace none) RomanFApostrophe :=
  fun s hs => by
  refine isRomanLetter_romanFWord.nowhere_changes isStraight_romanFApostrophe _ (fun _ _ => .inr)
    ?_ (rewrites_romanFWord s) hs
  rintro b b' w rest sub t ⟨rfl, _⟩ _
  exact not_changes_romanFApostrophe b' t

/-- An `F` that is moved next to `rm` had its apostrophe before. -/
theorem keeps_romanSpaced_romanFApostrophe : Keeps (romanSpaced.replace none) RomanFApostrophe :=
  fun s hs => by
  refine isRomanLetter_romanSpaced.nowhere_changes isStraight_romanFApostrophe _ (fun _ _ => .inr)
    ?_ (rewrites_romanSpaced s) hs
  rintro b b' w rest sub t ⟨gap, letter, _, hw, rfl⟩ hnone
    ⟨w₂, rest₂, sub₂, heq, ⟨_, gap₂, gap₂', hw₂⟩, _⟩
  obtain ⟨_, _, rfl, _⟩ := (isRoman_primed hw.isAlpha_letter).unique hw₂ heq
  refine hnone ⟨w, rest, romanFPrime, rfl, ⟨rfl, gap, [], hw⟩, fun hsame => ?_⟩
  have hlast := hw.getLast?_eq
  rw [← hsame] at hlast
  exact absurd hlast (by decide)

/-! ## Characters

The steps write letters, blanks and apostrophes of their own, and no other characters. -/

section Characters

variable {p : Respelling} {b : Option Char} {s t : Text} {c : Char}

theorem Respelling.IsApostrophe.mem_of_mem (hp : p.IsApostrophe) (h : Rewrites p b s t)
    (hquote : c ≠ '\'') (hc : c ∈ t) : c ∈ s :=
  h.mem_of_mem (fun _ _ _ _ hword hmem => by
    rw [hp.sub_eq hword] at hmem
    exact hquote (List.mem_singleton.1 hmem)) hc

theorem Respelling.IsRomanLetter.mem_of_mem (hp : p.IsRomanLetter) (h : Rewrites p b s t)
    (hletter : c.isAlpha = false) (hblank : c ≠ ' ') (hquote : c ≠ '\'') (hc : c ∈ t) : c ∈ s := by
  refine h.mem_of_mem (fun _ _ _ _ hword hmem => ?_) hc
  rcases hp.romanSubstitute hword with rfl | ⟨letter, hisAlpha, rfl⟩
  · have hchars : romanFPrime.all (fun d => d.isAlpha || d == ' ') = true := by decide
    have hc := List.all_eq_true.1 hchars c hmem
    rw [hletter, Bool.false_or, beq_iff_eq] at hc
    exact hblank hc
  · simp only [List.mem_cons, List.not_mem_nil, or_false] at hmem
    rcases hmem with rfl | rfl | rfl | rfl
    · exact absurd hletter (by decide)
    · exact absurd hletter (by decide)
    · rw [hisAlpha] at hletter
      cases hletter
    · exact hquote rfl

theorem mem_plainPrimes_of_mem_canonicalPrimes (hletter : c.isAlpha = false) (hblank : c ≠ ' ')
    (hquote : c ≠ '\'') (h : c ∈ canonicalPrimes s) : c ∈ plainPrimes s := by
  have h := isRomanLetter_romanSpaced.mem_of_mem (rewrites_romanSpaced _) hletter hblank hquote h
  have h := isRomanLetter_romanFWord.mem_of_mem (rewrites_romanFWord _) hletter hblank hquote h
  have h := isRomanLetter_romanFApostrophe.mem_of_mem (rewrites_romanFApostrophe _) hletter hblank
    hquote h
  have h := isApostrophe_bareBackslash.mem_of_mem (rewrites_bareBackslashes none _) hquote h
  have h := isRomanLetter_romanBackslash.mem_of_mem (rewrites_romanBackslash none _) hletter hblank
    hquote h
  have h := isApostrophe_escapedApostrophe.mem_of_mem (rewrites_escapedApostrophe _) hquote h
  have h := isApostrophe_superscriptPrime.mem_of_mem (rewrites_superscriptPrime _) hquote h
  exact isApostrophe_escapedPrime.mem_of_mem (rewrites_escapedPrime _) hquote h

theorem not_mem_plainPrimes (hc : c = '′' ∨ c = '’') : c ∉ plainPrimes s := by
  intro hmem
  obtain ⟨d, _, hd⟩ := List.mem_map.1 hmem
  split at hd
  · subst hd
    exact absurd hc (by decide)
  · next hplain =>
    subst hd
    rcases hc with rfl | rfl <;> exact hplain rfl

theorem mem_of_mem_plainPrimes (hquote : c ≠ '\'') (h : c ∈ plainPrimes s) : c ∈ s := by
  obtain ⟨d, hmem, hd⟩ := List.mem_map.1 h
  split at hd
  · exact absurd hd.symm hquote
  · exact hd ▸ hmem

theorem plainPrimes_eq_self (hprime : '′' ∉ s) (hmark : '’' ∉ s) : plainPrimes s = s := by
  have hsame : ∀ c ∈ s, (if c == '′' || c == '’' then '\'' else c) = id c := fun c hc => by
    refine if_neg fun htypographic => ?_
    simp only [Bool.or_eq_true, beq_iff_eq] at htypographic
    rcases htypographic with rfl | rfl
    · exact hprime hc
    · exact hmark hc
  rw [plainPrimes, List.map_congr_left hsame, List.map_id]

end Characters

/-! ## Canonical primes -/

/-- No word is left that a step respells, bare backslashes apart. -/
structure HasCanonicalPrimes (s : Text) : Prop where
  prime_not_mem : '′' ∉ s
  mark_not_mem : '’' ∉ s
  escapedPrime : Nowhere EscapedPrime.Changes none s
  superscriptPrime : Nowhere SuperscriptPrime.Changes none s
  escapedApostrophe : Nowhere EscapedApostrophe.Changes none s
  romanBackslash : Nowhere RomanBackslash.Changes none s
  romanFApostrophe : Nowhere RomanFApostrophe.Changes none s
  romanFWord : Nowhere RomanFWord.Changes none s
  romanSpaced : Nowhere RomanSpaced.Changes none s

theorem keeps_romanBackslash {q : Respelling} (hstraight : q.IsStraight KeepsWord)
    (hclear : q.IsClear) : Keeps (romanBackslash.replace none) q :=
  isRomanLetter_romanBackslash.keeps (rewrites_romanBackslash none) hstraight hclear

/-- The steps behind the bare backslashes bring in no words that start at none of their
    substitutes. -/
theorem keeps_romanSteps {q : Respelling} (hstraight : q.IsStraight KeepsWord)
    (hclear : q.IsClear) : Keeps (fun s => romanSpaced.replace none (romanFWord.replace none
      (romanFApostrophe.replace none s))) q := fun s hs =>
  isRomanLetter_romanSpaced.keeps rewrites_romanSpaced hstraight hclear _
    (isRomanLetter_romanFWord.keeps rewrites_romanFWord hstraight hclear _
      (isRomanLetter_romanFApostrophe.keeps rewrites_romanFApostrophe hstraight hclear s hs))

theorem removes_canonicalPrimes_escapedPrime : Removes canonicalPrimes EscapedPrime := fun s => by
  have hclear := isApostrophe_escapedPrime.isClear
  have h := isApostrophe_escapedPrime.removes rewrites_escapedPrime
    (fun _ => isStraight_escapedPrime) unquoted_escapedPrime (plainPrimes s)
  have h := isApostrophe_superscriptPrime.keeps rewrites_superscriptPrime
    (fun _ => isStraight_escapedPrime) unquoted_escapedPrime _ h
  have h := isApostrophe_escapedApostrophe.keeps rewrites_escapedApostrophe
    (fun _ => isStraight_escapedPrime) unquoted_escapedPrime _ h
  have h := keeps_romanBackslash isStraight_escapedPrime hclear _ h
  have h := keeps_bareBackslashes isStraight_escapedPrime unquoted_escapedPrime _ h
  exact keeps_romanSteps isStraight_escapedPrime hclear _ h

theorem removes_canonicalPrimes_superscriptPrime :
    Removes canonicalPrimes SuperscriptPrime := fun s => by
  have hclear := isApostrophe_superscriptPrime.isClear
  have h := isApostrophe_superscriptPrime.removes rewrites_superscriptPrime
    (fun _ => isStraight_superscriptPrime) unquoted_superscriptPrime
    (escapedPrime.replace none (plainPrimes s))
  have h := isApostrophe_escapedApostrophe.keeps rewrites_escapedApostrophe
    (fun _ => isStraight_superscriptPrime) unquoted_superscriptPrime _ h
  have h := keeps_romanBackslash isStraight_superscriptPrime hclear _ h
  have h := keeps_bareBackslashes isStraight_superscriptPrime unquoted_superscriptPrime _ h
  exact keeps_romanSteps isStraight_superscriptPrime hclear _ h

theorem removes_canonicalPrimes_escapedApostrophe :
    Removes canonicalPrimes EscapedApostrophe := fun s => by
  have hclear := isApostrophe_escapedApostrophe.isClear
  have h := removes_escapedApostrophe
    (superscriptPrime.replace none (escapedPrime.replace none (plainPrimes s)))
  have h := keeps_romanBackslash isStraight_escapedApostrophe hclear _ h
  have h := keeps_bareBackslashes_escapedApostrophe _ h
  exact keeps_romanSteps isStraight_escapedApostrophe hclear _ h

theorem removes_canonicalPrimes_romanBackslash :
    Removes canonicalPrimes RomanBackslash := fun s => by
  have h := isRomanLetter_romanBackslash.removes (rewrites_romanBackslash none)
    isStraight_romanBackslash isClear_romanBackslash (escapedApostrophe.replace none
      (superscriptPrime.replace none (escapedPrime.replace none (plainPrimes s))))
  have h := keeps_bareBackslashes isStraight_romanBackslash unquoted_romanBackslash _ h
  exact keeps_romanSteps isStraight_romanBackslash isClear_romanBackslash _ h

/-- A run leaves nothing to do for any of its steps, bare backslashes apart. -/
theorem hasCanonicalPrimes_canonicalPrimes (s : Text) : HasCanonicalPrimes (canonicalPrimes s) where
  prime_not_mem h := not_mem_plainPrimes (.inl rfl)
    (mem_plainPrimes_of_mem_canonicalPrimes (by decide) (by decide) (by decide) h)
  mark_not_mem h := not_mem_plainPrimes (.inr rfl)
    (mem_plainPrimes_of_mem_canonicalPrimes (by decide) (by decide) (by decide) h)
  escapedPrime := removes_canonicalPrimes_escapedPrime s
  superscriptPrime := removes_canonicalPrimes_superscriptPrime s
  escapedApostrophe := removes_canonicalPrimes_escapedApostrophe s
  romanBackslash := removes_canonicalPrimes_romanBackslash s
  romanFApostrophe := keeps_romanSpaced_romanFApostrophe _
    (keeps_romanFWord_romanFApostrophe _ (removes_romanFApostrophe _))
  romanFWord := isRomanLetter_romanSpaced.keeps rewrites_romanSpaced isStraight_romanFWord
    isClear_romanFWord _ (isRomanLetter_romanFWord.removes rewrites_romanFWord
      isStraight_romanFWord isClear_romanFWord _)
  romanSpaced := isRomanLetter_romanSpaced.removes rewrites_romanSpaced isStraight_romanSpaced
    isClear_romanSpaced _

namespace HasCanonicalPrimes

variable {s : Text}

/-- Bare backslashes make no other words when they become apostrophes. -/
theorem bareBackslashes (h : HasCanonicalPrimes s) :
    HasCanonicalPrimes (bareBackslashes none s) where
  prime_not_mem hmem := h.prime_not_mem (isApostrophe_bareBackslash.mem_of_mem
    (rewrites_bareBackslashes none s) (by decide) hmem)
  mark_not_mem hmem := h.mark_not_mem (isApostrophe_bareBackslash.mem_of_mem
    (rewrites_bareBackslashes none s) (by decide) hmem)
  escapedPrime := keeps_bareBackslashes isStraight_escapedPrime unquoted_escapedPrime s
    h.escapedPrime
  superscriptPrime := keeps_bareBackslashes isStraight_superscriptPrime unquoted_superscriptPrime s
    h.superscriptPrime
  escapedApostrophe := keeps_bareBackslashes_escapedApostrophe s h.escapedApostrophe
  romanBackslash := keeps_bareBackslashes isStraight_romanBackslash unquoted_romanBackslash s
    h.romanBackslash
  romanFApostrophe := nowhere_romanFApostrophe_bareBackslashes h.romanBackslash h.romanFApostrophe
  romanFWord := keeps_bareBackslashes isStraight_romanFWord unquoted_romanFWord s h.romanFWord
  romanSpaced := nowhere_romanSpaced_bareBackslashes h.romanBackslash h.romanSpaced

theorem canonicalPrimes_eq (h : HasCanonicalPrimes s) :
    canonicalPrimes s = Repair.bareBackslashes none s := by
  have hbare := h.bareBackslashes
  simp only [canonicalPrimes]
  rw [plainPrimes_eq_self h.prime_not_mem h.mark_not_mem,
    (rewrites_escapedPrime s).eq_self h.escapedPrime,
    (rewrites_superscriptPrime s).eq_self h.superscriptPrime,
    (rewrites_escapedApostrophe s).eq_self h.escapedApostrophe,
    (rewrites_romanBackslash none s).eq_self h.romanBackslash,
    (rewrites_romanFApostrophe _).eq_self hbare.romanFApostrophe,
    (rewrites_romanFWord _).eq_self hbare.romanFWord,
    (rewrites_romanSpaced _).eq_self hbare.romanSpaced]

end HasCanonicalPrimes

/-- A text without bare backslashes stays as it is, and no other does. -/
theorem bareBackslashes_eq_self_iff {b : Option Char} {s : Text} :
    bareBackslashes b s = s ↔ Nowhere BareBackslash.Matches b s := by
  refine ⟨fun h => ?_, fun h =>
    (rewrites_bareBackslashes b s).eq_self (h.mono fun _ _ => Respelling.Changes.matches)⟩
  induction s generalizing b with
  | nil => trivial
  | cons c s ih =>
    obtain ⟨hc, hs⟩ := List.cons.inj h
    refine ⟨?_, ih hs⟩
    rintro ⟨w, rest, sub, heq, _, rfl, hbefore, hend⟩
    obtain ⟨rfl, rfl⟩ := List.cons.inj heq
    rw [if_pos (by simpa [hbefore] using hend)] at hc
    cases hc

theorem nowhere_bareBackslash_of_not_mem {b : Option Char} {s : Text} (h : '\\' ∉ s) :
    Nowhere BareBackslash.Matches b s := by
  induction s generalizing b with
  | nil => trivial
  | cons c s ih =>
    refine ⟨?_, ih fun hmem => h (List.mem_cons_of_mem _ hmem)⟩
    rintro ⟨w, rest, sub, heq, _, rfl, _⟩
    exact h (heq ▸ List.mem_cons_self)

/-- A run leaves no word that is to be respelled, but it may leave bare backslashes. A second run
    changes these and nothing else, so it changes nothing exactly if there are none; a third run
    changes nothing. Backslashes are not brought in, so a text without any is settled by the first
    run. -/
theorem canonicalPrimes_canonicalPrimes (s : Text) :
    HasCanonicalPrimes (canonicalPrimes s) ∧
      canonicalPrimes (canonicalPrimes s) = bareBackslashes none (canonicalPrimes s) ∧
      (canonicalPrimes (canonicalPrimes s) = canonicalPrimes s ↔
        Nowhere BareBackslash.Matches none (canonicalPrimes s)) ∧
      ('\\' ∉ s → canonicalPrimes (canonicalPrimes s) = canonicalPrimes s) ∧
      canonicalPrimes (canonicalPrimes (canonicalPrimes s))
        = canonicalPrimes (canonicalPrimes s) := by
  have hfirst := hasCanonicalPrimes_canonicalPrimes s
  have hsecond := hfirst.canonicalPrimes_eq
  refine ⟨hfirst, hsecond, ?_, fun hs => ?_, ?_⟩
  · rw [hsecond]
    exact bareBackslashes_eq_self_iff
  · rw [hsecond, bareBackslashes_eq_self_iff]
    refine nowhere_bareBackslash_of_not_mem fun hmem => hs ?_
    exact mem_of_mem_plainPrimes (by decide)
      (mem_plainPrimes_of_mem_canonicalPrimes (by decide) (by decide) (by decide) hmem)
  · rw [hsecond, hfirst.bareBackslashes.canonicalPrimes_eq]
    exact (rewrites_bareBackslashes none _).eq_self (removes_bareBackslashes _)

theorem canonicalPrimes_canonicalPrimes_spellings :
    '\\' ∉ "rm x' + rm F ^ prime + f′".toList ∧
      canonicalPrimes "rm x' + rm F ^ prime + f′".toList = "rmx' + rm F prime + f'".toList ∧
      canonicalPrimes (canonicalPrimes "rm x' + rm F ^ prime + f′".toList)
        = canonicalPrimes "rm x' + rm F ^ prime + f′".toList :=
  ⟨by decide, by decide +kernel, (canonicalPrimes_canonicalPrimes _).2.2.2.1 (by decide)⟩

/-- The backslash is not bare as long as the apostrophe stands in front of it. -/
theorem canonicalPrimes_canonicalPrimes_romanFApostrophe :
    canonicalPrimes "rm F'\\".toList = "rm F prime\\".toList ∧
      canonicalPrimes (canonicalPrimes "rm F'\\".toList) = "rm F prime'".toList ∧
      canonicalPrimes (canonicalPrimes "rm F'\\".toList) ≠ canonicalPrimes "rm F'\\".toList := by
  decide +kernel

end Scribe.Repair
