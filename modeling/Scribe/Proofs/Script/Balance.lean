import Scribe.Script.Balance

set_option autoImplicit false

/-! # What a balance does with a text

Which characters leave a balance alone, what closing everything that is open restores, where a text
is cut at separators, and which texts are closed in themselves, so that whoever counts parentheses
passes over them. -/

namespace Scribe

namespace Balance

@[simp] theorem feedAll_nil (b : Balance) : b.feedAll [] = b := rfl

@[simp] theorem feedAll_cons (b : Balance) (c : Char) (s : Text) :
    b.feedAll (c :: s) = (b.feed c).feedAll s := rfl

@[simp] theorem feedAll_append (b : Balance) (s t : Text) :
    b.feedAll (s ++ t) = (b.feedAll s).feedAll t := List.foldl_append

theorem scan_append (s t : Text) : scan (s ++ t) = (scan s).feedAll t := feedAll_append _ _ _

/-! ## Balances that can occur -/

/-- A balance that some text leads to: only inside a literal can a backslash wait for its
    partner, and only a quote character opens a literal. -/
structure Valid (b : Balance) : Prop where
  escaped_eq : b.quote = none → b.escaped = false
  quote_eq : ∀ q, b.quote = some q → q = '\'' ∨ q = '"'

theorem valid_empty : Valid {} := ⟨fun _ => rfl, fun _ h => by simp at h⟩

theorem Valid.feed {b : Balance} (h : Valid b) (c : Char) : Valid (b.feed c) := by
  unfold Balance.feed
  split
  · next q hq =>
    split
    · exact ⟨fun hn => by simp [hq] at hn, h.quote_eq⟩
    · split
      · exact ⟨fun hn => by simp [hq] at hn, h.quote_eq⟩
      · split
        · next he _ _ => exact ⟨fun _ => by simpa using he, fun _ hn => by simp at hn⟩
        · exact h
  · next hq =>
    split
    · next hc =>
      refine ⟨fun hn => by simp at hn, fun q hn => ?_⟩
      rw [← Option.some.inj hn]
      exact hc
    · split
      · exact ⟨h.escaped_eq, h.quote_eq⟩
      · split
        · exact ⟨h.escaped_eq, h.quote_eq⟩
        · split
          · exact ⟨h.escaped_eq, h.quote_eq⟩
          · split
            · exact ⟨h.escaped_eq, h.quote_eq⟩
            · exact h

theorem Valid.feedAll {b : Balance} (h : Valid b) (s : Text) : Valid (b.feedAll s) := by
  induction s generalizing b with
  | nil => exact h
  | cons c s ih => exact ih (h.feed c)

theorem valid_scan (s : Text) : Valid (scan s) := valid_empty.feedAll s

/-- With nothing open, a balance is the one at the start of a text. -/
theorem Valid.eq_empty {b : Balance} (h : Valid b) (ht : b.atTopLevel = true) : b = {} := by
  obtain ⟨q, e, p, k⟩ := b
  simp only [atTopLevel, Bool.and_eq_true, Option.isNone_iff_eq_none, beq_iff_eq] at ht
  obtain ⟨⟨rfl, rfl⟩, rfl⟩ := ht
  have he : e = false := h.escaped_eq rfl
  rw [he]

/-! ## Characters that change nothing -/

/-- Characters that mean nothing outside literals. -/
def IsPlain (c : Char) : Prop :=
  c ≠ '\'' ∧ c ≠ '"' ∧ c ≠ '(' ∧ c ≠ ')' ∧ c ≠ '[' ∧ c ≠ ']'

instance (c : Char) : Decidable (IsPlain c) := by unfold IsPlain; infer_instance

theorem isPlain_of_isWhite {c : Char} (h : Text.isWhite c = true) : IsPlain c := by
  refine ⟨?_, ?_, ?_, ?_, ?_, ?_⟩ <;> rintro rfl <;> exact absurd h (by decide)

theorem feed_of_isPlain {b : Balance} {c : Char} (hq : b.quote = none) (hc : IsPlain c) :
    b.feed c = b := by
  obtain ⟨h₁, h₂, h₃, h₄, h₅, h₆⟩ := hc
  simp [feed, hq, h₁, h₂, h₃, h₄, h₅, h₆]

theorem feedAll_of_isPlain {b : Balance} {s : Text} (hq : b.quote = none)
    (hs : ∀ c ∈ s, IsPlain c) : b.feedAll s = b := by
  induction s with
  | nil => rfl
  | cons c s ih =>
    rw [feedAll_cons, feed_of_isPlain hq (hs c List.mem_cons_self)]
    exact ih fun c hc => hs c (List.mem_cons_of_mem _ hc)

/-- A character that is neither a quote nor a backslash opens and closes no literal. -/
theorem Valid.quote_feed {b : Balance} (h : Valid b) {c : Char} (hc : IsPlain c) :
    (b.feed c).quote = b.quote := by
  cases hq : b.quote with
  | none => rw [feed_of_isPlain hq hc, hq]
  | some q =>
    have hcq : c ≠ q := by
      rcases h.quote_eq q hq with rfl | rfl
      · exact hc.1
      · exact hc.2.1
    simp only [Balance.feed, hq, hcq, if_false]
    split
    · rfl
    · split
      · rfl
      · exact hq

theorem Valid.quote_feedAll {b : Balance} (h : Valid b) {s : Text} (hs : ∀ c ∈ s, IsPlain c) :
    (b.feedAll s).quote = b.quote := by
  induction s generalizing b with
  | nil => rfl
  | cons c s ih =>
    rw [feedAll_cons, ih (h.feed c) fun c hc => hs c (List.mem_cons_of_mem _ hc)]
    exact h.quote_feed (hs c List.mem_cons_self)

/-! ## Closing what is open -/

theorem feedAll_replicate_bracket {b : Balance} (hq : b.quote = none) (n : Nat) :
    b.feedAll (List.replicate n ']') = { b with brackets := b.brackets - n } := by
  induction n generalizing b with
  | zero => rfl
  | succ n ih =>
    rw [List.replicate_succ, feedAll_cons]
    have hf : b.feed ']' = { b with brackets := b.brackets - 1 } := by simp [feed, hq]
    rw [hf, ih (b := { b with brackets := b.brackets - 1 }) hq]
    simp only [Balance.mk.injEq, true_and]
    omega

theorem feedAll_replicate_paren {b : Balance} (hq : b.quote = none) (n : Nat) :
    b.feedAll (List.replicate n ')') = { b with parens := b.parens - n } := by
  induction n generalizing b with
  | zero => rfl
  | succ n ih =>
    rw [List.replicate_succ, feedAll_cons]
    have hf : b.feed ')' = { b with parens := b.parens - 1 } := by simp [feed, hq]
    rw [hf, ih (b := { b with parens := b.parens - 1 }) hq]
    simp only [Balance.mk.injEq, true_and, and_true]
    omega

/-- Only a backslash inside a literal makes a balance wait for a partner. -/
theorem Valid.escaped_feed {b : Balance} (h : Valid b) {c : Char}
    (he : (b.feed c).escaped = true) :
    c = '\\' ∧ b.escaped = false ∧ b.feed c = { b with escaped := true } := by
  obtain ⟨q, e, p, k⟩ := b
  cases q with
  | none =>
    have hf : e = false := h.escaped_eq rfl
    subst hf
    simp only [Balance.feed] at he
    repeat' split at he
    all_goals simp at he
  | some q =>
    cases e with
    | true => simp [Balance.feed] at he
    | false =>
      by_cases hc : c = '\\'
      · exact ⟨hc, rfl, by simp [Balance.feed, hc]⟩
      · simp only [Balance.feed, hc, if_false] at he
        split at he
        · simp at he
        · split at he <;> simp at he

/-- A backslash that waits for its partner is the last character. -/
theorem exists_of_escaped_scan {s : Text} (h : (scan s).escaped = true) :
    ∃ t, s = t ++ ['\\'] ∧ scan t = { scan s with escaped := false } := by
  rcases List.eq_nil_or_concat s with rfl | ⟨t, c, rfl⟩
  · simp [scan] at h
  · rw [List.concat_eq_append, scan_append, feedAll_cons, feedAll_nil] at h ⊢
    obtain ⟨rfl, he, hf⟩ := (valid_scan t).escaped_feed h
    refine ⟨t, rfl, ?_⟩
    rw [hf, ← he]

/-- A text without a backslash that waits for its partner is read like the whole, up to this. -/
theorem exists_kept (s : Text) :
    ∃ kept, s = kept ++ (if (scan s).escaped then ['\\'] else []) ∧
      scan kept = { scan s with escaped := false } := by
  cases he : (scan s).escaped with
  | true =>
    obtain ⟨t, hs, ht⟩ := exists_of_escaped_scan he
    exact ⟨t, hs, ht⟩
  | false =>
    refine ⟨s, (List.append_nil s).symm, ?_⟩
    rw [← he]

/-- What closes the literal that is open, then the brackets, then the parentheses. -/
def closers (b : Balance) : Text :=
  b.quote.toList ++ (List.replicate b.brackets ']' ++ List.replicate b.parens ')')

/-- Closing keeps the text but for a backslash that waits for its partner. -/
theorem closeOpen_eq {b : Balance} (hb : Valid b) {s kept : Text}
    (hs : s = kept ++ if b.escaped then ['\\'] else []) : b.closeOpen s = kept ++ b.closers := by
  unfold closeOpen closers
  cases hq : b.quote with
  | none =>
    have hkept : s = kept := by
      rw [hs, hb.escaped_eq hq]
      exact List.append_nil kept
    simp [hkept]
  | some q =>
    cases he : b.escaped with
    | true => simp [hs, he]
    | false => simp [hs, he]

theorem feedAll_closers {b : Balance} (hb : Valid b) (he : b.escaped = false) :
    b.feedAll b.closers = {} := by
  -- behind the quote the balance is outside literals
  have hquote : b.feedAll b.quote.toList = { b with quote := none } := by
    cases hq : b.quote with
    | none =>
      obtain ⟨quote, _, _, _⟩ := b
      obtain rfl : quote = none := hq
      rfl
    | some q =>
      have hne : q ≠ '\\' := by
        rcases hb.quote_eq q hq with rfl | rfl <;> decide
      simp [feed, hq, he, hne]
  rw [closers, feedAll_append, feedAll_append, hquote, feedAll_replicate_bracket rfl,
    feedAll_replicate_paren rfl]
  simp [he]

/-- Closing what is open leaves nothing open. -/
theorem scan_closeOpen (s : Text) : scan ((scan s).closeOpen s) = {} := by
  obtain ⟨kept, hs, hkept⟩ := exists_kept s
  have hvalid : Valid { scan s with escaped := false } := hkept ▸ valid_scan kept
  rw [closeOpen_eq (valid_scan s) hs, scan_append, hkept]
  exact feedAll_closers hvalid rfl

/-- Closing brings a text to top level. The text is kept but for a backslash that waits for its
    partner, without which it is read the same, and just what is open there is closed. -/
theorem atTopLevel_scan_closeOpen (s : Text) :
    (scan ((scan s).closeOpen s)).atTopLevel = true ∧
      ∃ kept, s = kept ++ (if (scan s).escaped then ['\\'] else []) ∧
        scan kept = { scan s with escaped := false } ∧
        (scan s).closeOpen s = kept ++ (scan s).closers := by
  obtain ⟨kept, hs, hkept⟩ := exists_kept s
  refine ⟨?_, kept, hs, hkept, closeOpen_eq (valid_scan s) hs⟩
  rw [scan_closeOpen]
  rfl

example : (scan "))f(\"it's\", ['a\\".toList).closeOpen "))f(\"it's\", ['a\\".toList =
    "))f(\"it's\", ['a'])".toList := by decide

/-! ## Separators at top level -/

/-- A text has a first piece. -/
theorem splitFrom_ne_nil (sep : Char → Bool) (b : Balance) (s : Text) :
    splitFrom sep b s ≠ [] := by
  cases s with
  | nil => simp [splitFrom]
  | cons c s =>
    simp only [splitFrom]
    split
    · simp
    · split <;> simp

/-- The first piece of a text is all of it, or ends at a separator that stands at top level. -/
theorem splitFrom_cases {sep : Char → Bool} {b : Balance} (hb : Valid b) {s p : Text}
    {ps : List Text} (h : splitFrom sep b s = p :: ps) :
    (p = s ∧ ps = []) ∨
      ∃ c t, sep c = true ∧ s = p ++ c :: t ∧ b.feedAll p = {} ∧ ps = splitFrom sep {} t := by
  induction s generalizing b p with
  | nil =>
    simp only [splitFrom, List.cons.injEq] at h
    exact Or.inl ⟨h.1.symm, h.2.symm⟩
  | cons c s ih =>
    simp only [splitFrom] at h
    split at h
    · next hc =>
      simp only [Bool.and_eq_true] at hc
      have he := hb.eq_empty hc.1
      cases h
      exact Or.inr ⟨c, s, hc.2, rfl, he, by rw [he]⟩
    · split at h
      · next hn =>
        cases h
        exact absurd hn (splitFrom_ne_nil _ _ _)
      · next q qs hq =>
        cases h
        rcases ih (hb.feed c) hq with ⟨rfl, rfl⟩ | ⟨d, t, hd, rfl, hf, rfl⟩
        · exact Or.inl ⟨rfl, rfl⟩
        · exact Or.inr ⟨d, t, hd, rfl, hf, rfl⟩

/-- Where a piece of a text stands: behind a separator or at the start, with nothing open there,
    and with nothing open at its end unless it is the last piece. -/
theorem exists_of_mem_splitFrom {sep : Char → Bool} (hsep : ∀ c, sep c = true → IsPlain c)
    {s p : Text} (h : p ∈ splitFrom sep {} s) :
    ∃ a z, s = a ++ p ++ z ∧ scan a = {} ∧ (∀ c, a.getLast? = some c → sep c = true)
      ∧ (z = [] ∨ scan p = {}) := by
  generalize hps : splitFrom sep {} s = ps at h
  induction ps generalizing s with
  | nil => simp at h
  | cons q qs ih =>
    rcases splitFrom_cases valid_empty hps with ⟨rfl, rfl⟩ | ⟨c, t, hc, rfl, hq, rfl⟩
    · rw [List.mem_singleton.1 h]
      exact ⟨[], [], by simp, rfl, by simp, Or.inl rfl⟩
    · rcases List.mem_cons.1 h with rfl | h
      · exact ⟨[], c :: t, by simp, rfl, by simp, Or.inr hq⟩
      · obtain ⟨a, z, rfl, ha, hlast, hz⟩ := ih rfl h
        -- In front of a later piece stand the first, which leaves nothing open, and a separator.
        refine ⟨q ++ c :: a, z, by simp, ?_, ?_, hz⟩
        · have hscan : scan q = {} := hq
          rw [scan_append, hscan, feedAll_cons, feed_of_isPlain rfl (hsep c hc)]
          exact ha
        · intro d hd
          cases a with
          | nil =>
            simp only [List.getLast?_append, List.getLast?_singleton, Option.some_or,
              Option.some.injEq] at hd
            exact hd ▸ hc
          | cons e a =>
            rw [List.getLast?_append, List.getLast?_cons_cons] at hd
            cases hl : (e :: a).getLast? with
            | none => simp at hl
            | some f =>
              rw [hl, Option.some_or, Option.some.injEq] at hd
              exact hlast d (hl.trans (by rw [hd]))

/-! ## Texts in one piece -/

section OnePiece

variable {sep : Char → Bool} {b : Balance}

theorem splitFrom_cons_eq_iff {c : Char} {s : Text} :
    splitFrom sep b (c :: s) = [c :: s] ↔
      (b.atTopLevel && sep c) = false ∧ splitFrom sep (b.feed c) s = [s] := by
  rw [splitFrom]
  by_cases hc : (b.atTopLevel && sep c) = true
  · simp [hc]
  · rw [if_neg hc]
    cases hs : splitFrom sep (b.feed c) s with
    | nil => exact absurd hs (splitFrom_ne_nil _ _ _)
    | cons p ps => simp [hc]

/-- A text is in one piece if and only if both parts of it are, the second one read where the first
    one leaves off. -/
theorem splitFrom_append_eq_iff {s t : Text} :
    splitFrom sep b (s ++ t) = [s ++ t] ↔
      splitFrom sep b s = [s] ∧ splitFrom sep (b.feedAll s) t = [t] := by
  induction s generalizing b with
  | nil => simp [splitFrom]
  | cons c s ih =>
    rw [List.cons_append, splitFrom_cons_eq_iff, splitFrom_cons_eq_iff, ih, feedAll_cons, and_assoc]

theorem splitFrom_eq (b : Balance) {s : Text} (h : ∀ c ∈ s, sep c = false) :
    splitFrom sep b s = [s] := by
  induction s generalizing b with
  | nil => rfl
  | cons c s ih =>
    rw [splitFrom_cons_eq_iff, h c List.mem_cons_self, Bool.and_false]
    exact ⟨rfl, ih (b.feed c) fun d hd => h d (List.mem_cons_of_mem _ hd)⟩

/-- The pieces of a text are in one piece each. -/
theorem splitFrom_of_splitFrom (hb : Valid b) {s p : Text} {ps : List Text}
    (h : splitFrom sep b s = p :: ps) :
    splitFrom sep b p = [p] ∧ ∀ q ∈ ps, splitFrom sep {} q = [q] := by
  induction s generalizing b p ps with
  | nil =>
    simp only [splitFrom, List.cons.injEq, List.nil_eq] at h
    obtain ⟨rfl, rfl⟩ := h
    simp [splitFrom]
  | cons c s ih =>
    rw [splitFrom] at h
    split at h
    · next hc =>
      -- Behind a separator everything starts anew.
      have hstart := hb.eq_empty (Bool.and_eq_true_iff.1 hc).1
      cases h
      refine ⟨rfl, fun q hq => ?_⟩
      cases hs : splitFrom sep b s with
      | nil => exact absurd hs (splitFrom_ne_nil _ _ _)
      | cons r rs =>
        obtain ⟨hr, hrs⟩ := ih hb hs
        rw [hs] at hq
        rcases List.mem_cons.1 hq with rfl | hq
        · rwa [hstart] at hr
        · exact hrs q hq
    · next hc =>
      cases hs : splitFrom sep (b.feed c) s with
      | nil => exact absurd hs (splitFrom_ne_nil _ _ _)
      | cons r rs =>
        obtain ⟨hr, hrs⟩ := ih (hb.feed c) hs
        rw [hs] at h
        cases h
        exact ⟨splitFrom_cons_eq_iff.2 ⟨by simpa using hc, hr⟩, hrs⟩

/-- A piece that leaves nothing open is cut off at the separator behind it. -/
theorem splitFrom_append_cons {p : Text} (hp : splitFrom sep b p = [p]) (hb : b.feedAll p = {})
    {c : Char} (hc : sep c = true) (t : Text) :
    splitFrom sep b (p ++ c :: t) = p :: splitFrom sep {} t := by
  induction p generalizing b with
  | nil =>
    have hstart : b = {} := hb
    have htop : (atTopLevel {} && sep c) = true := by rw [hc]; rfl
    rw [List.nil_append, hstart, splitFrom, if_pos htop]
  | cons d p ih =>
    obtain ⟨hd, hp⟩ := splitFrom_cons_eq_iff.1 hp
    rw [List.cons_append, splitFrom, if_neg (by simp [hd]), ih hp hb]

end OnePiece

/-! ## Texts that are closed in themselves -/

/-- A text in which everything that is opened is closed again, and nothing else: a reader outside
    literals is in the same state behind it, and whoever looks for a closing parenthesis passes
    over it. -/
structure IsClosed (u : Text) : Prop where
  feedAll_eq : ∀ b : Balance, b.quote = none → b.escaped = false → b.feedAll u = b
  untilClosed?_append : ∀ (b : Balance) (s : Text), b.quote = none → b.escaped = false →
    0 < b.parens → b.untilClosed? (u ++ s) = (b.untilClosed? s).map fun r => (u ++ r.1, r.2)

theorem isClosed_nil : IsClosed [] :=
  ⟨fun _ _ _ => rfl, fun b s _ _ _ => by cases h : b.untilClosed? s <;> simp [h]⟩

theorem IsClosed.append {u v : Text} (hu : IsClosed u) (hv : IsClosed v) : IsClosed (u ++ v) := by
  refine ⟨fun b hq he => ?_, fun b s hq he hp => ?_⟩
  · rw [feedAll_append, hu.feedAll_eq b hq he, hv.feedAll_eq b hq he]
  · rw [List.append_assoc, hu.untilClosed?_append b _ hq he hp,
      hv.untilClosed?_append b s hq he hp, Option.map_map]
    simp [Function.comp_def]

theorem isClosed_singleton {c : Char} (hc : IsPlain c) : IsClosed [c] := by
  refine ⟨fun b hq _ => feed_of_isPlain hq hc, fun b s hq _ _ => ?_⟩
  simp only [List.singleton_append, untilClosed?, feed_of_isPlain hq hc]
  rw [if_neg fun h => hc.2.2.2.1 h.1]

theorem isClosed_of_isPlain {u : Text} (h : ∀ c ∈ u, IsPlain c) : IsClosed u := by
  induction u with
  | nil => exact isClosed_nil
  | cons c u ih =>
    exact (isClosed_singleton (h c List.mem_cons_self)).append
      (ih fun c hc => h c (List.mem_cons_of_mem _ hc))

/-- A closed text between an opening character and the one that undoes it. -/
theorem IsClosed.enclosed {u : Text} (hu : IsClosed u) {o c : Char} (up : Balance → Balance)
    (ho : o ≠ ')') (hopen : ∀ b : Balance, b.quote = none → b.feed o = up b)
    (hclose : ∀ b : Balance, b.quote = none → (up b).feed c = b)
    (hquote : ∀ b : Balance, b.quote = none → (up b).quote = none)
    (hescaped : ∀ b : Balance, (up b).escaped = b.escaped)
    (hparens : ∀ b : Balance, b.parens ≤ (up b).parens) : IsClosed (o :: u ++ [c]) := by
  refine ⟨fun b hq he => ?_, fun b s hq he hp => ?_⟩
  · rw [List.cons_append, feedAll_cons, hopen b hq, feedAll_append,
      hu.feedAll_eq _ (hquote b hq) ((hescaped b).trans he), feedAll_cons, hclose b hq, feedAll_nil]
  · have hinner := hu.untilClosed?_append (up b) (c :: s) (hquote b hq) ((hescaped b).trans he)
      (Nat.lt_of_lt_of_le hp (hparens b))
    have hafter : (up b).untilClosed? (c :: s)
        = (b.untilClosed? s).map fun r => (c :: r.1, r.2) := by
      simp only [untilClosed?, hclose b hq]
      rw [if_neg fun h => by omega]
    have happ : o :: u ++ [c] ++ s = o :: (u ++ c :: s) := by simp
    rw [happ, untilClosed?, if_neg fun h => ho h.1, hopen b hq, hinner, hafter, Option.map_map,
      Option.map_map]
    simp [Function.comp_def]

theorem IsClosed.parenthesised {u : Text} (hu : IsClosed u) : IsClosed ('(' :: u ++ [')']) :=
  hu.enclosed (fun b => { b with parens := b.parens + 1 }) (by decide)
    (fun b hq => by simp [feed, hq]) (fun b hq => by obtain ⟨q, e, p, k⟩ := b; simp_all [feed])
    (fun _ hq => hq) (fun _ => rfl) (fun _ => Nat.le_succ _)

theorem IsClosed.bracketed {u : Text} (hu : IsClosed u) : IsClosed ('[' :: u ++ [']']) :=
  hu.enclosed (fun b => { b with brackets := b.brackets + 1 }) (by decide)
    (fun b hq => by simp [feed, hq]) (fun b hq => by obtain ⟨q, e, p, k⟩ := b; simp_all [feed])
    (fun _ hq => hq) (fun _ => rfl) (fun _ => Nat.le_refl _)

/-- A closed argument list ends at its own closing parenthesis. -/
theorem IsClosed.argumentList?_eq {u : Text} (hu : IsClosed u) (s : Text) :
    argumentList? (u ++ ')' :: s) = some (u, s) := by
  rw [argumentList?, hu.untilClosed?_append _ _ rfl rfl Nat.one_pos]
  simp [untilClosed?, feed]

/-- An argument list ends at its closing parenthesis, whatever stands behind that. -/
theorem untilClosed?_append {b : Balance} {s inner rest : Text}
    (h : b.untilClosed? s = some (inner, rest)) (t : Text) :
    b.untilClosed? (s ++ t) = some (inner, rest ++ t) := by
  induction s generalizing b inner with
  | nil => simp [untilClosed?] at h
  | cons c s ih =>
    simp only [untilClosed?, List.cons_append] at h ⊢
    split at h
    · next hc =>
      cases h
      rw [if_pos hc]
    · next hc =>
      obtain ⟨⟨i, r⟩, hir, heq⟩ := Option.map_eq_some_iff.1 h
      cases heq
      rw [if_neg hc, ih hir, Option.map_some]

/-! ## Inside an argument list -/

/-- Only a closing parenthesis outside literals takes the last open one away. -/
theorem parens_feed_eq_zero {b : Balance} {c : Char} (hb : 0 < b.parens)
    (h : (b.feed c).parens = 0) : c = ')' ∧ (b.feed c).quote = none := by
  have hne : b.parens ≠ 0 := Nat.ne_of_gt hb
  unfold feed at h ⊢
  split at h
  · -- Inside a literal no parenthesis counts.
    repeat' split at h
    all_goals exact absurd h hne
  · next hq =>
    split at h
    · exact absurd h hne
    · split at h
      · exact absurd h (Nat.succ_ne_zero _)
      · split at h
        · next hc => exact ⟨hc, by simp [hq, hc]⟩
        · repeat' split at h
          all_goals exact absurd h hne

/-- What is behind a character that does not end the argument list is inside it still. -/
theorem parens_feed_pos {b : Balance} {c : Char} (hb : 0 < b.parens)
    (hopen : ¬(c = ')' ∧ (b.feed c).quote = none ∧ (b.feed c).parens = 0)) :
    0 < (b.feed c).parens := by
  refine Nat.pos_of_ne_zero fun hzero => ?_
  obtain ⟨hc, hq⟩ := parens_feed_eq_zero hb hzero
  exact hopen ⟨hc, hq, hzero⟩

/-- No separator inside an argument list stands at top level. -/
theorem splitFrom_of_untilClosed? {sep : Char → Bool} {b : Balance} {s inner : Text}
    (hb : 0 < b.parens) (h : b.untilClosed? s = some (inner, [])) : splitFrom sep b s = [s] := by
  -- A parenthesis is open in front of every character, the closing one included.
  induction s generalizing b inner with
  | nil => simp [untilClosed?] at h
  | cons c s ih =>
    have htop : b.atTopLevel = false := by
      have hparens : (b.parens == 0) = false := by simpa using Nat.ne_of_gt hb
      rw [atTopLevel, hparens, Bool.and_false, Bool.false_and]
    rw [splitFrom_cons_eq_iff, htop, Bool.false_and]
    refine ⟨rfl, ?_⟩
    simp only [untilClosed?] at h
    split at h
    · cases h
      rfl
    · next hopen =>
      obtain ⟨⟨i, r⟩, hir, heq⟩ := Option.map_eq_some_iff.1 h
      cases heq
      exact ih (parens_feed_pos hb hopen) hir

end Balance

end Scribe
