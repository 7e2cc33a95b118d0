import Scribe.Proofs.Script.Tiers
import Scribe.Proofs.Repair.Respelling

set_option autoImplicit false

/-! # The words that the prime rules respell

Each step towards canonical primes is a pass from the left, and what it replaces is a word: a run of
backslashes with the word `prime`, a roman letter with its mark. The rules find these words by
skipping white space and stripping pieces; here the words are said outright, with what may stand
around them. Main statements: each step rewrites exactly its words. -/

namespace Scribe.Repair

open Text (isWhite isWord)

/-! ## Pieces of rules -/

section Pieces

variable {b : Option Char} {gap s r w word : Text} {c : Char}

theorem eq_append_of_skipWhite (h : skipWhite s = r) :
    ∃ gap, (∀ c ∈ gap, isWhite c = true) ∧ s = gap ++ r :=
  ⟨s.takeWhile isWhite, fun c hc => List.all_eq_true.1 List.all_takeWhile c hc,
    by rw [← h, skipWhite, List.takeWhile_append_dropWhile]⟩

theorem skipWhite_append (hgap : ∀ c ∈ gap, isWhite c = true) (hc : isWhite c = false) (s : Text) :
    skipWhite (gap ++ c :: s) = c :: s := by
  rw [skipWhite, List.dropWhile_append_of_pos hgap, List.dropWhile_cons_of_neg (by simp [hc])]

theorem backslashes?_eq_some_iff :
    backslashes? s = some r ↔ r.head? ≠ some '\\' ∧ ∃ n, s = List.replicate (n + 1) '\\' ++ r := by
  unfold backslashes?
  constructor
  · intro h
    split at h
    · next t =>
      rw [Option.some.injEq] at h
      subst h
      have hrun : t.takeWhile (· == '\\')
          = List.replicate (t.takeWhile (· == '\\')).length '\\' :=
        List.eq_replicate_iff.2
          ⟨rfl, fun c hc => by simpa using List.all_eq_true.1 List.all_takeWhile c hc⟩
      refine ⟨fun hhead => ?_, (t.takeWhile (· == '\\')).length, ?_⟩
      · have hstop := List.head?_dropWhile_not (· == '\\') t
        simp [hhead] at hstop
      · rw [List.replicate_succ, ← hrun, List.cons_append, List.takeWhile_append_dropWhile]
    · cases h
  · rintro ⟨hhead, n, rfl⟩
    rw [List.replicate_succ, List.cons_append]
    simp only [Option.some.injEq]
    rw [List.dropWhile_append_of_pos (by simp)]
    cases r with
    | nil => rfl
    | cons c r => exact List.dropWhile_cons_of_neg (by simpa using hhead)

theorem anyCase?_eq_some_iff :
    anyCase? word s = some r ↔ ∃ w, Text.toLower w = word ∧ s = w ++ r := by
  rw [anyCase?, Option.ite_none_right_eq_some, Option.some.injEq]
  constructor
  · rintro ⟨hword, rfl⟩
    exact ⟨s.take word.length, hword, (List.take_append_drop _ _).symm⟩
  · rintro ⟨w, rfl, rfl⟩
    have hlength : (Text.toLower w).length = w.length := List.length_map _
    rw [hlength, List.take_left, List.drop_left]
    exact ⟨rfl, rfl⟩

theorem wordEnd?_eq_some_iff : wordEnd? s = some r ↔ s = r ∧ r.head?.any isWord = false := by
  rw [wordEnd?, Option.ite_none_left_eq_some, Option.some.injEq, Bool.not_eq_true]
  constructor
  · rintro ⟨h, rfl⟩
    exact ⟨rfl, h⟩
  · rintro ⟨rfl, h⟩
    exact ⟨h, rfl⟩

theorem roman?_eq_some_iff :
    roman? b s = some r ↔ b.any isWord = false ∧ s = "rm".toList ++ r := by
  rw [roman?, Option.ite_none_left_eq_some, Scanner.stripStart?_eq_some_iff, Bool.not_eq_true]

theorem isAlpha_of_toLower (h : c.toLower.isAlpha = true) : c.isAlpha = true := by
  by_cases hup : c.isUpper = true
  · exact Bool.or_eq_true_iff.2 (.inl hup)
  · have hsame : c.toLower = c := dif_neg fun hrange => hup (decide_eq_true hrange)
    rwa [hsame] at h

theorem isWord_of_isAlpha (h : c.isAlpha = true) : isWord c = true := by
  have hsmall : c.toNat < 128 := by
    rcases Bool.or_eq_true_iff.1 h with hup | hlow
    · have hrange : c.val ≥ 'A'.val ∧ c.val ≤ 'Z'.val := of_decide_eq_true hup
      exact Nat.lt_of_le_of_lt (UInt32.le_iff_toNat_le.1 hrange.2) (by decide)
    · have hrange : c.val ≤ 'z'.val := of_decide_eq_true (Bool.and_eq_true_iff.1 hlow).2
      exact Nat.lt_of_le_of_lt (UInt32.le_iff_toNat_le.1 hrange) (by decide)
  rw [isWord, if_pos hsmall]
  simp [Text.isIdentChar, Char.isAlphanum, h]

theorem isWhite_of_isAlpha (h : c.isAlpha = true) : isWhite c = false :=
  isWhite_of_isIdentChar (by simp [Text.isIdentChar, Char.isAlphanum, h])

/-- The word `prime`, letter by letter. -/
theorem toLower_eq_primeWord_iff : Text.toLower w = primeWord ↔
    ∃ c₁ c₂ c₃ c₄ c₅ : Char, w = [c₁, c₂, c₃, c₄, c₅] ∧ c₁.toLower = 'p' ∧ c₂.toLower = 'r' ∧
      c₃.toLower = 'i' ∧ c₄.toLower = 'm' ∧ c₅.toLower = 'e' := by
  rw [Text.toLower, show primeWord = ['p', 'r', 'i', 'm', 'e'] from rfl]
  simp only [List.map_eq_cons_iff, List.map_eq_nil_iff]
  constructor
  · rintro ⟨c₁, _, rfl, h₁, c₂, _, rfl, h₂, c₃, _, rfl, h₃, c₄, _, rfl, h₄, c₅, _, rfl, h₅, rfl⟩
    exact ⟨c₁, c₂, c₃, c₄, c₅, rfl, h₁, h₂, h₃, h₄, h₅⟩
  · rintro ⟨c₁, c₂, c₃, c₄, c₅, rfl, h₁, h₂, h₃, h₄, h₅⟩
    exact ⟨c₁, _, rfl, h₁, c₂, _, rfl, h₂, c₃, _, rfl, h₃, c₄, _, rfl, h₄, c₅, _, rfl, h₅, rfl⟩

theorem isWhite_head_primeWord (h : Text.toLower w = primeWord) :
    ∃ c r, w = c :: r ∧ isWhite c = false := by
  obtain ⟨c₁, c₂, c₃, c₄, c₅, rfl, hc, _⟩ := toLower_eq_primeWord_iff.1 h
  exact ⟨c₁, _, rfl, isWhite_of_isAlpha (isAlpha_of_toLower (by rw [hc]; rfl))⟩

end Pieces

/-! ## Words -/

/-- A run of backslashes with the word `prime`. -/
def EscapedPrime : Respelling := fun _ w next sub =>
  sub = ['\''] ∧ next.any isWord = false ∧
    ∃ n word, Text.toLower word = primeWord ∧ w = List.replicate (n + 1) '\\' ++ word

/-- The word `prime` as a superscript. -/
def SuperscriptPrime : Respelling := fun _ w next sub =>
  sub = ['\''] ∧ ∃ gap, (∀ c ∈ gap, isWhite c = true) ∧
    ((next.any isWord = false ∧ w = '^' :: (gap ++ primeWord)) ∨
      ∃ inner outer, (∀ c ∈ inner, isWhite c = true) ∧ (∀ c ∈ outer, isWhite c = true) ∧
        w = '^' :: (gap ++ '{' :: (inner ++ (primeWord ++ (outer ++ ['}'])))))

/-- A run of backslashes with an apostrophe. -/
def EscapedApostrophe : Respelling := fun _ w _ sub =>
  sub = ['\''] ∧ ∃ n, w = List.replicate (n + 1) '\\' ++ ['\'']

/-- A backslash behind a letter and not in front of one. -/
def BareBackslash : Respelling := fun b w next sub =>
  sub = ['\''] ∧ w = ['\\'] ∧ b.any Char.isAlpha = true ∧ next.any Char.isAlpha = false

/-- `rm` at the start of a word, a letter and what marks it, with gaps between them. -/
structure IsRoman (b : Option Char) (lead gap : Text) (letter : Char) (gap' mark w : Text) :
    Prop where
  before : b.any isWord = false
  toLower_lead : Text.toLower lead = "rm".toList
  isWhite_gap : ∀ c ∈ gap, isWhite c = true
  isAlpha_letter : letter.isAlpha = true
  isWhite_gap' : ∀ c ∈ gap', isWhite c = true
  mark_eq : ∃ c r, mark = c :: r ∧ isWhite c = false
  eq : w = lead ++ (gap ++ letter :: (gap' ++ mark))

section IsRoman

variable {b : Option Char} {lead gap gap' mark w : Text} {letter : Char}

theorem IsRoman.exists_lead (h : IsRoman b lead gap letter gap' mark w) :
    ∃ c d, lead = [c, d] ∧ c.toLower = 'r' ∧ d.toLower = 'm' := by
  have hlead := h.toLower_lead
  rw [Text.toLower, show "rm".toList = ['r', 'm'] from rfl] at hlead
  simp only [List.map_eq_cons_iff, List.map_eq_nil_iff] at hlead
  obtain ⟨c, _, rfl, hc, d, _, rfl, hd, rfl⟩ := hlead
  exact ⟨c, d, rfl, hc, hd⟩

/-- It starts with a letter. -/
theorem IsRoman.exists_head (h : IsRoman b lead gap letter gap' mark w) :
    ∃ c r, w = c :: r ∧ c.toLower = 'r' ∧ c.isAlpha = true := by
  obtain ⟨c, d, rfl, hc, _⟩ := h.exists_lead
  exact ⟨c, _, h.eq, hc, isAlpha_of_toLower (by rw [hc]; rfl)⟩

end IsRoman

/-- A roman letter with a backslash for a prime. -/
def RomanBackslash : Respelling := fun b w next sub =>
  next.any Char.isAlpha = false ∧ ∃ gap letter gap',
    IsRoman b "rm".toList gap letter gap' ['\\'] w ∧ sub = ['r', 'm', letter, '\'']

/-- A roman `F` with an apostrophe. -/
def RomanFApostrophe : Respelling := fun b w _ sub =>
  sub = romanFPrime ∧ ∃ gap gap', IsRoman b "rm".toList gap 'F' gap' ['\''] w

/-- A roman `F` with the word `prime`. -/
def RomanFWord : Respelling := fun b w next sub =>
  sub = romanFPrime ∧ next.any isWord = false ∧ ∃ lead gap letter gap' mark,
    IsRoman b lead gap letter gap' mark w ∧ letter.toLower = 'f' ∧ Text.toLower mark = primeWord

/-- A primed roman letter that is set apart. -/
def RomanSpaced : Respelling := fun b w _ sub =>
  ∃ gap letter, gap ≠ [] ∧ IsRoman b "rm".toList gap letter [] ['\''] w ∧
    sub = ['r', 'm', letter, '\'']

/-! ## Steps -/

section Steps

variable {b : Option Char} {s sub rest : Text}

theorem finds_escapedPrime : Rule.Finds escapedPrime EscapedPrime := by
  intro b s sub rest
  simp only [escapedPrime, Option.bind_eq_bind, Option.bind_eq_some_iff, wordEnd?_eq_some_iff,
    anyCase?_eq_some_iff, backslashes?_eq_some_iff, Option.pure_def, Option.some.injEq,
    Replacement.mk.injEq]
  constructor
  · rintro ⟨_, ⟨_, n, rfl⟩, _, ⟨word, hword, rfl⟩, _, ⟨rfl, hend⟩, rfl, rfl⟩
    exact ⟨List.replicate (n + 1) '\\' ++ word, (List.append_assoc _ _ _).symm,
      rfl, hend, n, word, hword, rfl⟩
  · rintro ⟨_, rfl, rfl, hend, n, word, hword, rfl⟩
    refine ⟨word ++ rest, ⟨?_, n, List.append_assoc _ _ _⟩, rest, ⟨word, hword, rfl⟩, rest,
      ⟨rfl, hend⟩, rfl, rfl⟩
    obtain ⟨c₁, c₂, c₃, c₄, c₅, rfl, hc, _⟩ := toLower_eq_primeWord_iff.1 hword
    rintro ⟨⟩
    exact absurd hc (by decide)

theorem finds_superscriptPrime : Rule.Finds superscriptPrime SuperscriptPrime := by
  intro b s sub rest
  simp only [superscriptPrime, Option.bind_eq_bind, Option.bind_eq_some_iff,
    Scanner.stripStart?_eq_some_iff]
  constructor
  · rintro ⟨t, rfl, h⟩
    split at h
    · next t' hskip =>
      obtain ⟨gap, hgap, rfl⟩ := eq_append_of_skipWhite hskip
      simp only [Option.bind_eq_some_iff, Scanner.stripStart?_eq_some_iff, Option.pure_def,
        Option.some.injEq, Replacement.mk.injEq] at h
      obtain ⟨u, hinner, _, houter, rfl, rfl⟩ := h
      obtain ⟨inner, hwhite, rfl⟩ := eq_append_of_skipWhite hinner
      obtain ⟨outer, hwhite', rfl⟩ := eq_append_of_skipWhite houter
      exact ⟨'^' :: (gap ++ '{' :: (inner ++ (primeWord ++ (outer ++ ['}'])))), by simp, rfl, gap,
        hgap, .inr ⟨inner, outer, hwhite, hwhite', rfl⟩⟩
    · next hbrace =>
      simp only [Option.bind_eq_some_iff, Scanner.stripStart?_eq_some_iff, wordEnd?_eq_some_iff,
        Option.pure_def, Option.some.injEq, Replacement.mk.injEq] at h
      obtain ⟨u, hword, _, ⟨rfl, hend⟩, rfl, rfl⟩ := h
      obtain ⟨gap, hgap, rfl⟩ := eq_append_of_skipWhite hword
      exact ⟨'^' :: (gap ++ primeWord), by simp, rfl, gap, hgap, .inl ⟨hend, rfl⟩⟩
  · rintro ⟨w, rfl, rfl, gap, hgap, ⟨hend, rfl⟩ | ⟨inner, outer, hinner, houter, rfl⟩⟩
    · refine ⟨gap ++ (primeWord ++ rest), by simp, ?_⟩
      have hskip : skipWhite (gap ++ (primeWord ++ rest)) = primeWord ++ rest :=
        skipWhite_append hgap (by decide) _
      have hstrip : Text.stripStart? primeWord (primeWord ++ rest) = some rest :=
        Scanner.stripStart?_eq_some_iff.2 rfl
      rw [hskip]
      split
      · next hbrace => cases hbrace
      · simp [hstrip, wordEnd?_eq_some_iff.2 ⟨rfl, hend⟩]
    · refine ⟨gap ++ '{' :: (inner ++ (primeWord ++ (outer ++ '}' :: rest))), by simp, ?_⟩
      have hskip := skipWhite_append hgap (c := '{') (by decide)
        (inner ++ (primeWord ++ (outer ++ '}' :: rest)))
      have hinner : skipWhite (inner ++ (primeWord ++ (outer ++ '}' :: rest)))
          = primeWord ++ (outer ++ '}' :: rest) := skipWhite_append hinner (by decide) _
      have houter : skipWhite (outer ++ '}' :: rest) = '}' :: rest :=
        skipWhite_append houter (by decide) _
      rw [hskip]
      simp only [hinner, Option.bind_eq_some_iff, Scanner.stripStart?_eq_some_iff]
      exact ⟨outer ++ '}' :: rest, rfl, rest, houter, rfl⟩

theorem finds_escapedApostrophe : Rule.Finds escapedApostrophe EscapedApostrophe := by
  intro b s sub rest
  simp only [escapedApostrophe, Option.bind_eq_bind, Option.bind_eq_some_iff,
    backslashes?_eq_some_iff, Scanner.stripStart?_eq_some_iff, Option.pure_def, Option.some.injEq,
    Replacement.mk.injEq]
  constructor
  · rintro ⟨_, ⟨_, n, rfl⟩, _, rfl, rfl, rfl⟩
    exact ⟨List.replicate (n + 1) '\\' ++ ['\''], (List.append_assoc _ _ _).symm, rfl, n, rfl⟩
  · rintro ⟨_, rfl, rfl, n, rfl⟩
    exact ⟨['\''] ++ rest, ⟨by simp, n, List.append_assoc _ _ _⟩, rest, rfl, rfl, rfl⟩

theorem finds_romanFApostrophe : Rule.Finds romanFApostrophe RomanFApostrophe := by
  intro b s sub rest
  simp only [romanFApostrophe, Option.bind_eq_bind, Option.bind_eq_some_iff, roman?_eq_some_iff,
    Scanner.stripStart?_eq_some_iff, Option.pure_def, Option.some.injEq, Replacement.mk.injEq]
  constructor
  · rintro ⟨_, ⟨hbefore, rfl⟩, _, hskip, _, hskip', rfl, rfl⟩
    obtain ⟨gap, hgap, rfl⟩ := eq_append_of_skipWhite hskip
    obtain ⟨gap', hgap', rfl⟩ := eq_append_of_skipWhite hskip'
    exact ⟨"rm".toList ++ (gap ++ 'F' :: (gap' ++ ['\''])), by simp, rfl, gap, gap', hbefore, rfl,
      hgap, rfl, hgap', ⟨'\'', [], rfl, rfl⟩, rfl⟩
  · rintro ⟨_, rfl, rfl, gap, gap', h⟩
    refine ⟨gap ++ 'F' :: (gap' ++ '\'' :: rest), ⟨h.before, by rw [h.eq]; simp⟩, _,
      skipWhite_append h.isWhite_gap rfl _, rest, skipWhite_append h.isWhite_gap' rfl _, rfl, rfl⟩

theorem finds_romanFWord : Rule.Finds romanFWord RomanFWord := by
  intro b s sub rest
  simp only [romanFWord, Option.bind_eq_bind, Option.bind_none, Option.ite_none_left_eq_some,
    Bool.not_eq_true, Option.bind_eq_some_iff, anyCase?_eq_some_iff, wordEnd?_eq_some_iff,
    Option.pure_def, Option.some.injEq, Replacement.mk.injEq]
  constructor
  · rintro ⟨hbefore, _, ⟨lead, hlead, rfl⟩, _, ⟨f, hf, hskip⟩, _, ⟨mark, hmark, hskip'⟩, _,
      ⟨rfl, hend⟩, rfl, rfl⟩
    obtain ⟨letter, rfl, hletter⟩ := List.map_eq_singleton_iff.1 hf
    obtain ⟨gap, hgap, rfl⟩ := eq_append_of_skipWhite hskip
    obtain ⟨gap', hgap', rfl⟩ := eq_append_of_skipWhite hskip'
    refine ⟨lead ++ (gap ++ letter :: (gap' ++ mark)), by simp, rfl, hend, lead, gap, letter, gap',
      mark, ⟨hbefore, hlead, hgap, ?_, hgap', isWhite_head_primeWord hmark, rfl⟩, hletter, hmark⟩
    exact isAlpha_of_toLower (by rw [hletter]; rfl)
  · rintro ⟨_, rfl, rfl, hend, lead, gap, letter, gap', mark, h, hletter, hmark⟩
    obtain ⟨c, r, rfl, hc⟩ := h.mark_eq
    refine ⟨h.before, gap ++ letter :: (gap' ++ (c :: r ++ rest)), ⟨lead, h.toLower_lead, ?_⟩,
      gap' ++ (c :: r ++ rest), ⟨[letter], by simp [Text.toLower, hletter], ?_⟩,
      rest, ⟨c :: r, hmark, skipWhite_append h.isWhite_gap' hc _⟩, rest, ⟨rfl, hend⟩, rfl, rfl⟩
    · rw [h.eq]
      simp
    · exact skipWhite_append h.isWhite_gap (isWhite_of_isAlpha h.isAlpha_letter) _

theorem finds_romanSpaced : Rule.Finds romanSpaced RomanSpaced := by
  intro b s sub rest
  simp only [romanSpaced, Option.bind_eq_bind, Option.bind_eq_some_iff, roman?_eq_some_iff]
  constructor
  · rintro ⟨t, ⟨hbefore, rfl⟩, h⟩
    split at h
    · next c t =>
      split at h
      · cases h
      · next hc =>
        split at h
        · next letter rest' hskip =>
          obtain ⟨hletter, h⟩ := Option.ite_none_right_eq_some.1 h
          cases h
          obtain ⟨gap, hgap, rfl⟩ := eq_append_of_skipWhite hskip
          exact ⟨"rm".toList ++ (c :: gap ++ letter :: ([] ++ ['\''])), by simp, c :: gap, letter,
            List.cons_ne_nil _ _, ⟨hbefore, rfl, List.forall_mem_cons.2 ⟨by simpa using hc, hgap⟩,
              hletter, by simp, ⟨'\'', [], rfl, rfl⟩, rfl⟩, rfl⟩
        · cases h
    · cases h
  · rintro ⟨_, rfl, gap, letter, hne, h, rfl⟩
    obtain ⟨c, gap, rfl⟩ := List.exists_cons_of_ne_nil hne
    obtain ⟨hc, hgap⟩ := List.forall_mem_cons.1 h.isWhite_gap
    refine ⟨c :: (gap ++ letter :: '\'' :: rest), ⟨h.before, by rw [h.eq]; simp⟩, ?_⟩
    have hskip : skipWhite (gap ++ letter :: '\'' :: rest) = letter :: '\'' :: rest :=
      skipWhite_append hgap (isWhite_of_isAlpha h.isAlpha_letter) _
    simp [hc, hskip, h.isAlpha_letter]

theorem romanBackslash_append {gap gap' w : Text} {letter : Char}
    (h : IsRoman b "rm".toList gap letter gap' ['\\'] w) (rest : Text) :
    romanBackslash b (w ++ rest) = match rest with
      | [] => some ⟨['r', 'm', letter, '\''], []⟩
      | c :: r => if c.isAlpha then none else some ⟨['r', 'm', letter, '\'', c], r⟩ := by
  have hroman : roman? b (w ++ rest) = some (gap ++ letter :: (gap' ++ '\\' :: rest)) :=
    roman?_eq_some_iff.2 ⟨h.before, by rw [h.eq]; simp⟩
  have hskip : skipWhite (gap ++ letter :: (gap' ++ '\\' :: rest))
      = letter :: (gap' ++ '\\' :: rest) :=
    skipWhite_append h.isWhite_gap (isWhite_of_isAlpha h.isAlpha_letter) _
  have hskip' : skipWhite (gap' ++ '\\' :: rest) = '\\' :: rest :=
    skipWhite_append h.isWhite_gap' rfl _
  simp only [romanBackslash, hroman, Option.bind_eq_bind, Option.bind_some, hskip,
    h.isAlpha_letter, hskip']
  cases rest <;> rfl

theorem rewrites_romanBackslash (b : Option Char) (s : Text) :
    Rewrites RomanBackslash b s (romanBackslash.replace b s) := by
  refine rewrites_replace ?_ ?_ b s
  · rintro b s hdeclined ⟨w, rest, sub, rfl, hend, gap, letter, gap', hw, rfl⟩
    rw [romanBackslash_append hw] at hdeclined
    cases rest with
    | nil => cases hdeclined
    | cons c r =>
      have hc : c.isAlpha = false := hend
      simp [hc] at hdeclined
  · intro b s sub rest hfound
    simp only [romanBackslash, Option.bind_eq_bind, Option.bind_eq_some_iff, roman?_eq_some_iff]
      at hfound
    obtain ⟨t, ⟨hbefore, rfl⟩, hfound⟩ := hfound
    split at hfound
    · cases hfound
    · next letter u hskip =>
      obtain ⟨gap, hgap, rfl⟩ := eq_append_of_skipWhite hskip
      obtain ⟨hletter, hfound⟩ := Option.ite_none_left_eq_some.1 hfound
      have hword {gap' : Text} (hgap' : ∀ c ∈ gap', isWhite c = true) :
          IsRoman b "rm".toList gap letter gap' ['\\']
            ("rm".toList ++ (gap ++ letter :: gap') ++ ['\\']) :=
        ⟨hbefore, rfl, hgap, by simpa using hletter, hgap', ⟨'\\', [], rfl, rfl⟩, by simp⟩
      split at hfound
      · next hskip' =>
        cases hfound
        obtain ⟨gap', hgap', rfl⟩ := eq_append_of_skipWhite hskip'
        refine ⟨"rm".toList ++ (gap ++ letter :: gap'), '\\', by simp, fun t h => ?_⟩
        have hpiece := Rewrites.found ⟨rfl, gap, letter, gap', hword hgap', rfl⟩ h
        simpa using hpiece
      · next c rest' hskip' =>
        obtain ⟨hc, hfound⟩ := Option.ite_none_left_eq_some.1 hfound
        cases hfound
        obtain ⟨gap', hgap', rfl⟩ := eq_append_of_skipWhite hskip'
        refine ⟨"rm".toList ++ (gap ++ letter :: (gap' ++ ['\\'])), c, by simp, fun t h => ?_⟩
        -- The character behind the backslash starts no word, so it may as well be copied.
        have hcopied : Rewrites RomanBackslash (some '\\') (c :: rest) (c :: t) := by
          refine .copied ?_ h
          rintro ⟨w, rest, sub, heq, _, gap, letter, gap', hw, _⟩
          obtain ⟨d, r, rfl, _, hd⟩ := hw.exists_head
          obtain ⟨rfl, _⟩ := List.cons.inj heq
          exact hc hd
        have hpiece := Rewrites.found
          ⟨by simpa using hc, gap, letter, gap', hword hgap', rfl⟩ hcopied
        simpa using hpiece
      · cases hfound

/-- A bare backslash is found character by character. -/
theorem rewrites_bareBackslashes (b : Option Char) (s : Text) :
    Rewrites BareBackslash b s (bareBackslashes b s) := by
  induction s generalizing b with
  | nil => exact .nil b
  | cons c s ih =>
    simp only [bareBackslashes]
    split
    · next hprime =>
      simp only [Bool.and_eq_true, beq_iff_eq, Bool.not_eq_true'] at hprime
      obtain ⟨⟨rfl, hbefore⟩, hend⟩ := hprime
      exact @Rewrites.found BareBackslash b [] s ['\''] _ '\\' ⟨rfl, rfl, hbefore, hend⟩ (ih _)
    · next hprime =>
      refine .copied ?_ (ih _)
      rintro ⟨w, rest, sub, heq, _, rfl, hbefore, hend⟩
      obtain ⟨rfl, rfl⟩ := List.cons.inj heq
      exact hprime (by simp [hbefore, hend])

end Steps

end Scribe.Repair
