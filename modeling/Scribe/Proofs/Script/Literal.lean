import Scribe.Script.Literal
import Scribe.Proofs.Script.Balance

set_option autoImplicit false

/-! # Literals and what stands around them

The reader of literals and the counter of quotes and parentheses find the same end of a literal, so
a literal is closed in itself. What a literal is does not depend on the text behind it. -/

namespace Scribe.Literal

open Balance (IsClosed IsPlain)

theorem isQuote_iff {c : Char} : isQuote c = true ↔ c = '\'' ∨ c = '"' := by
  simp [isQuote]

theorem ne_backslash_of_isQuote {q : Char} (h : isQuote q = true) : q ≠ '\\' := by
  rcases isQuote_iff.1 h with rfl | rfl <;> decide

/-! ## The inside of a literal -/

theorem inside?_escape (q c : Char) (s : Text) :
    inside? q ('\\' :: c :: s) = (inside? q s).map fun r => ('\\' :: c :: r.1, r.2) := rfl

theorem inside?_cons {q c : Char} (hc : c ≠ '\\') (s : Text) :
    inside? q (c :: s) =
      if c = q then some ([], s)
      else if c = '\n' then none
      else (inside? q s).map fun r => (c :: r.1, r.2) := by
  rw [inside?]
  exact fun _ _ he => absurd he hc

theorem inside?_backslash {q : Char} (hq : q ≠ '\\') : inside? q ['\\'] = none := by
  simp [inside?, hq.symm]

/-- The inside of a literal is read the same whatever stands behind the closing quote. -/
theorem inside?_append {q : Char} (hq : q ≠ '\\') {s inner rest : Text}
    (h : inside? q s = some (inner, rest)) (t : Text) :
    inside? q (s ++ t) = some (inner, rest ++ t) := by
  induction s using inside?.induct q generalizing inner with
  | case1 => simp [inside?] at h
  | case2 c s ih =>
    rw [inside?_escape, Option.map_eq_some_iff] at h
    obtain ⟨⟨i, r⟩, hir, heq⟩ := h
    cases heq
    simp [inside?_escape, ih hir]
  | case3 s hs =>
    rw [inside?_cons hq, if_pos rfl] at h
    cases h
    simp [inside?_cons hq]
  | case4 s hs hne =>
    rw [inside?_cons (by decide), if_neg hne, if_pos rfl] at h
    simp at h
  | case5 c s hc hne hnl ih =>
    by_cases hb : c = '\\'
    · -- A backslash with nothing behind it escapes nothing.
      subst hb
      cases s with
      | nil => simp [inside?_backslash hq] at h
      | cons d s => exact absurd rfl (hc d s rfl)
    · rw [inside?_cons hb, if_neg hne, if_neg hnl, Option.map_eq_some_iff] at h
      obtain ⟨⟨i, r⟩, hir, heq⟩ := h
      cases heq
      simp [inside?_cons hb, hne, hnl, ih hir]

/-- The inside of a literal is read the same where it is cut out. -/
theorem inside?_append_quote {q : Char} (hq : q ≠ '\\') {s inner rest : Text}
    (h : inside? q s = some (inner, rest)) : inside? q (inner ++ [q]) = some (inner, []) := by
  induction s using inside?.induct q generalizing inner with
  | case1 => simp [inside?] at h
  | case2 c s ih =>
    rw [inside?_escape, Option.map_eq_some_iff] at h
    obtain ⟨⟨i, r⟩, hir, heq⟩ := h
    cases heq
    simp [inside?_escape, ih hir]
  | case3 s hs =>
    rw [inside?_cons hq, if_pos rfl] at h
    cases h
    simp [inside?_cons hq]
  | case4 s hs hne =>
    rw [inside?_cons (by decide), if_neg hne, if_pos rfl] at h
    simp at h
  | case5 c s hc hne hnl ih =>
    by_cases hb : c = '\\'
    · subst hb
      cases s with
      | nil => simp [inside?_backslash hq] at h
      | cons d s => exact absurd rfl (hc d s rfl)
    · rw [inside?_cons hb, if_neg hne, if_neg hnl, Option.map_eq_some_iff] at h
      obtain ⟨⟨i, r⟩, hir, heq⟩ := h
      cases heq
      simp [inside?_cons hb, hne, hnl, ih hir]

theorem inside?_eq_iff {q : Char} (hq : q ≠ '\\') {s inner rest : Text} :
    inside? q s = some (inner, rest) ↔
      s = inner ++ q :: rest ∧ inside? q (inner ++ [q]) = some (inner, []) := by
  constructor
  · exact fun h => ⟨eq_append_of_inside? h, inside?_append_quote hq h⟩
  · rintro ⟨rfl, h⟩
    have happ := inside?_append hq h rest
    rwa [List.append_assoc, List.singleton_append, List.nil_append] at happ

/-! ## Counting over a literal -/

/-- A counter of parentheses inside a literal passes over what remains of it. -/
theorem passes_inside {q : Char} (hq : isQuote q = true) {s inner rest : Text}
    (h : inside? q s = some (inner, rest)) {b : Balance} (hb : b.quote = some q)
    (he : b.escaped = false) :
    b.feedAll (inner ++ [q]) = { b with quote := none } ∧
      ∀ t, b.untilClosed? (inner ++ q :: t)
        = (Balance.untilClosed? { b with quote := none } t).map
            fun r => (inner ++ q :: r.1, r.2) := by
  have hqb := ne_backslash_of_isQuote hq
  have hqp : q ≠ ')' := by rcases isQuote_iff.1 hq with rfl | rfl <;> decide
  -- one character that leaves the literal open is passed over
  have hstep (b' : Balance) (c : Char) (u : Text) (hn : (b'.feed c).quote = some q) :
      b'.untilClosed? (c :: u) = ((b'.feed c).untilClosed? u).map fun r => (c :: r.1, r.2) := by
    rw [Balance.untilClosed?, if_neg fun h => by simp [hn] at h]
  fun_induction inside? q s generalizing inner with
  | case1 => simp at h
  | case2 c s ih =>
    obtain ⟨⟨i, r⟩, hir, heq⟩ := Option.map_eq_some_iff.1 h
    cases heq
    have hbs : b.feed '\\' = { b with escaped := true } := by simp [Balance.feed, hb, he]
    have hc : ({ b with escaped := true } : Balance).feed c = b := by
      obtain ⟨bq, be, bp, bk⟩ := b
      simp_all [Balance.feed]
    obtain ⟨hall, huntil⟩ := ih hir
    refine ⟨by simp [hbs, hc, ← hall], fun t => ?_⟩
    rw [List.cons_append, hstep b _ _ (by rw [hbs]; exact hb), hbs, List.cons_append,
      hstep _ _ _ (by rw [hc]; exact hb), hc, huntil t]
    simp [Function.comp_def]
  | case3 s hs =>
    cases h
    have hclose : b.feed q = { b with quote := none } := by simp [Balance.feed, hb, he, hqb]
    refine ⟨by simp [hclose], fun t => ?_⟩
    rw [List.nil_append, Balance.untilClosed?, if_neg fun h => hqp h.1, hclose]
    rfl
  | case4 => simp at h
  | case5 c s hc hne hnl ih =>
    obtain ⟨⟨i, r⟩, hir, heq⟩ := Option.map_eq_some_iff.1 h
    cases heq
    have hcb : c ≠ '\\' := by
      rintro rfl
      cases s with
      | nil => simp [inside?] at hir
      | cons d s => exact hc d s rfl rfl
    have hfeed : b.feed c = b := by simp [Balance.feed, hb, he, hcb, hne]
    obtain ⟨hall, huntil⟩ := ih hir
    refine ⟨by simp [hfeed, ← hall], fun t => ?_⟩
    rw [List.cons_append, hstep b _ _ (by rw [hfeed]; exact hb), hfeed, huntil t]
    simp [Function.comp_def]

/-- A literal without a verbatim mark is closed in itself. -/
theorem isClosed_of_inside? {q : Char} (hq : isQuote q = true) {s inner rest : Text}
    (h : inside? q s = some (inner, rest)) : IsClosed (q :: inner ++ [q]) := by
  have hqp : q ≠ ')' := by rcases isQuote_iff.1 hq with rfl | rfl <;> decide
  have hopen (b : Balance) (hb : b.quote = none) : b.feed q = { b with quote := some q } := by
    simp [Balance.feed, hb, isQuote_iff.1 hq]
  have hclosed (b : Balance) (hb : b.quote = none) :
      ({ b with quote := none } : Balance) = b := by rw [← hb]
  refine ⟨fun b hb he => ?_, fun b t hb he _ => ?_⟩
  · obtain ⟨hall, _⟩ := passes_inside hq h (b := { b with quote := some q }) rfl he
    rw [List.cons_append, Balance.feedAll_cons, hopen b hb, hall]
    exact hclosed b hb
  · obtain ⟨_, huntil⟩ := passes_inside hq h (b := { b with quote := some q }) rfl he
    have happ : q :: inner ++ [q] ++ t = q :: (inner ++ q :: t) := by simp
    rw [happ, Balance.untilClosed?, if_neg fun h => hqp h.1, hopen b hb, huntil t]
    simp [Function.comp_def, hclosed b hb]

/-- Inside a literal, a line break stands only behind a backslash. -/
theorem getLast?_of_newline_inside? {q : Char} (hq : isQuote q = true) {s inner rest : Text}
    (h : inside? q s = some (inner, rest)) {a z : Text} (ha : inner ++ [q] = a ++ '\n' :: z) :
    a.getLast? = some '\\' := by
  have hqn : q ≠ '\n' := by rcases isQuote_iff.1 hq with rfl | rfl <;> decide
  fun_induction inside? q s generalizing inner a with
  | case1 => simp at h
  | case2 c s ih =>
    obtain ⟨⟨i, r⟩, hir, heq⟩ := Option.map_eq_some_iff.1 h
    cases heq
    -- An escape starts with the backslash: the line break is what it escapes, or stands behind it.
    cases a with
    | nil => simp at ha
    | cons d a =>
      cases a with
      | nil =>
        simp only [List.cons_append, List.nil_append, List.cons.injEq] at ha
        rw [← ha.1]
        rfl
      | cons e a =>
        simp only [List.cons_append, List.cons.injEq] at ha
        have hlast := ih hir ha.2.2
        have hne : a ≠ [] := fun hn => by simp [hn] at hlast
        rwa [List.getLast?_cons_of_ne_nil (by simp), List.getLast?_cons_of_ne_nil hne]
  | case3 s hs =>
    cases h
    cases a with
    | nil => exact absurd (List.cons.inj ha).1 hqn
    | cons d a => simp at ha
  | case4 => simp at h
  | case5 c s hc hne hnl ih =>
    obtain ⟨⟨i, r⟩, hir, heq⟩ := Option.map_eq_some_iff.1 h
    cases heq
    cases a with
    | nil => exact absurd (List.cons.inj ha).1 hnl
    | cons d a =>
      simp only [List.cons_append, List.cons.injEq] at ha
      have hlast := ih hir ha.2
      have hne : a ≠ [] := fun hn => by simp [hn] at hlast
      rwa [List.getLast?_cons_of_ne_nil hne]

/-! ## Whole literals -/

/-- The text of a literal: closed in itself, with its mark or its quote in front, and with no line
    break in it except behind a backslash. -/
structure IsLiteral (u : Text) : Prop where
  isClosed : IsClosed u
  exists_cons : ∃ c w, u = c :: w ∧ (isQuote c = true ∨ c = 'r' ∨ c = 'R')
  getLast?_of_newline : ∀ a z, u = a ++ '\n' :: z → a.getLast? = some '\\'

theorem isLiteral_of_inside? {q : Char} (hq : isQuote q = true) {s inner rest : Text}
    (h : inside? q s = some (inner, rest)) : IsLiteral (q :: inner ++ [q]) := by
  refine ⟨isClosed_of_inside? hq h, ⟨q, inner ++ [q], rfl, Or.inl hq⟩, fun a z ha => ?_⟩
  cases a with
  | nil =>
    rcases isQuote_iff.1 hq with rfl | rfl <;> exact absurd (List.cons.inj ha).1 (by decide)
  | cons d a =>
    simp only [List.cons_append, List.cons.injEq] at ha
    have hlast := getLast?_of_newline_inside? hq h ha.2
    have hne : a ≠ [] := fun hn => by simp [hn] at hlast
    rwa [List.getLast?_cons_of_ne_nil hne]

theorem IsLiteral.mark {u : Text} (hu : IsLiteral u) {c : Char} (hc : c = 'r' ∨ c = 'R') :
    IsLiteral (c :: u) := by
  have hplain : IsPlain c := by rcases hc with rfl | rfl <;> decide
  have hnl : c ≠ '\n' := by rcases hc with rfl | rfl <;> decide
  refine ⟨(Balance.isClosed_singleton hplain).append hu.isClosed, ⟨c, u, rfl, Or.inr hc⟩, ?_⟩
  intro a z ha
  cases a with
  | nil => exact absurd (List.cons.inj ha).1 hnl
  | cons d a =>
    have hlast := hu.getLast?_of_newline a z (List.cons.inj ha).2
    have hne : a ≠ [] := fun hn => by simp [hn] at hlast
    rwa [List.getLast?_cons_of_ne_nil hne]

/-- What a literal without a verbatim mark at the start of a text consists of. -/
theorem exists_of_scanPlain? {decode : Text → Text} {s value rest : Text}
    (h : scanPlain? decode s = some (value, rest)) :
    ∃ q u, isQuote q = true ∧ s = q :: u ++ rest ∧ IsLiteral (q :: u) ∧
      ∀ t, scanPlain? decode (q :: u ++ t) = some (value, t) := by
  cases s with
  | nil => simp [scanPlain?] at h
  | cons q s =>
    simp only [scanPlain?] at h
    split at h
    · next hq =>
      obtain ⟨⟨inner, r⟩, hir, heq⟩ := Option.map_eq_some_iff.1 h
      cases heq
      have hqb := ne_backslash_of_isQuote hq
      obtain ⟨hs, hi⟩ := (inside?_eq_iff hqb).1 hir
      refine ⟨q, inner ++ [q], hq, by simp [hs], isLiteral_of_inside? hq hir, fun t => ?_⟩
      have ht : inside? q (inner ++ q :: t) = some (inner, t) := (inside?_eq_iff hqb).2 ⟨rfl, hi⟩
      simp [scanPlain?, hq, ht]
    · simp at h

theorem scan?_of_isQuote {q : Char} (hq : isQuote q = true) (s : Text) :
    scan? (q :: s) = scanPlain? unescape (q :: s) := by
  rcases isQuote_iff.1 hq with rfl | rfl <;> rfl

/-- A literal starts with its quote, or with the mark that keeps it verbatim. -/
theorem scan?_eq_none {c : Char} (h : c ∉ ['\'', '"', 'r', 'R']) (s : Text) :
    scan? (c :: s) = none := by
  simp only [List.mem_cons, List.not_mem_nil, or_false, not_or] at h
  unfold scan?
  split
  · next heq => exact absurd (List.cons.inj heq).1 h.2.2.1
  · next heq => exact absurd (List.cons.inj heq).1 h.2.2.2
  · simp [scanPlain?, isQuote, h]

theorem scan?_eq_none_of_head {c : Char} (hc : isQuote c = false) {s : Text}
    (hs : ∀ d ∈ s.head?, isQuote d = false) : scan? (c :: s) = none := by
  have hplain (decode : Text → Text) {s : Text} (hs : ∀ d ∈ s.head?, isQuote d = false) :
      scanPlain? decode s = none := by
    cases s with
    | nil => rfl
    | cons d s => simp [scanPlain?, hs d rfl]
  unfold scan?
  split
  · next heq => exact hplain id ((List.cons.inj heq).2 ▸ hs)
  · next heq => exact hplain id ((List.cons.inj heq).2 ▸ hs)
  · simp [scanPlain?, hc]

/-- A literal at the start of a text means the same whatever stands behind it. -/
theorem exists_of_scan? {s value rest : Text} (h : scan? s = some (value, rest)) :
    ∃ u, s = u ++ rest ∧ IsLiteral u ∧ ∀ t, scan? (u ++ t) = some (value, t) := by
  have hmark (c : Char) (hc : c = 'r' ∨ c = 'R') {s : Text}
      (hscan : ∀ t, scan? (c :: t) = scanPlain? id t) (h : scanPlain? id s = some (value, rest)) :
      ∃ u, c :: s = u ++ rest ∧ IsLiteral u ∧ ∀ t, scan? (u ++ t) = some (value, t) := by
    obtain ⟨q, u, _, rfl, hu, ht⟩ := exists_of_scanPlain? h
    refine ⟨c :: q :: u, rfl, hu.mark hc, fun t => ?_⟩
    rw [List.cons_append, hscan]
    exact ht t
  unfold scan? at h
  split at h
  · exact hmark 'r' (Or.inl rfl) (fun _ => rfl) h
  · exact hmark 'R' (Or.inr rfl) (fun _ => rfl) h
  · obtain ⟨q, u, hq, rfl, hu, ht⟩ := exists_of_scanPlain? h
    refine ⟨q :: u, rfl, hu, fun t => ?_⟩
    rw [List.cons_append, scan?_of_isQuote hq]
    exact ht t

/-- The text behind a literal has no part in whether there is one. -/
theorem scan?_append {s value rest : Text} (h : scan? s = some (value, rest)) (t : Text) :
    scan? (s ++ t) = some (value, rest ++ t) := by
  obtain ⟨u, rfl, _, hu⟩ := exists_of_scan? h
  rw [List.append_assoc]
  exact hu _

theorem scan?_eq_none_of_append {s t : Text} (h : scan? (s ++ t) = none) : scan? s = none := by
  cases hs : scan? s with
  | none => rfl
  | some r =>
    rw [scan?_append hs t] at h
    simp at h

theorem scan?_of_append {s t value rest : Text} (h : scan? (s ++ t) = some (value, rest ++ t)) :
    scan? s = some (value, rest) := by
  obtain ⟨u, hs, _, hu⟩ := exists_of_scan? h
  rw [← List.append_assoc, List.append_left_inj] at hs
  rw [hs]
  exact hu rest

/-! ## Written literals -/

theorem isQuote_quoteStyle (value : Text) : isQuote (quoteStyle value) = true := by
  unfold quoteStyle
  split <;> rfl

/-- A character between quotes is written as a pair with a backslash, or as itself. -/
theorem escapeChar_cases (q c : Char) :
    (∃ d, escapeChar q c = ['\\', d] ∧ d ≠ '\n') ∨
      (escapeChar q c = [c] ∧ c ≠ '\\' ∧ c ≠ '\n' ∧ c ≠ q) := by
  unfold escapeChar
  split
  · exact Or.inl ⟨'\\', rfl, by decide⟩
  · split
    · exact Or.inl ⟨'n', rfl, by decide⟩
    · split
      · exact Or.inl ⟨'t', rfl, by decide⟩
      · split
        · exact Or.inl ⟨'r', rfl, by decide⟩
        · split
          · next hn _ _ _ => exact Or.inl ⟨c, rfl, hn⟩
          · next hb hn _ _ hq => exact Or.inr ⟨rfl, hb, hn, hq⟩

/-- What is written between quotes is read back up to the closing quote. -/
theorem inside?_flatMap_escapeChar {q : Char} (hq : isQuote q = true) (value : Text) :
    inside? q (value.flatMap (escapeChar q) ++ [q])
      = some (value.flatMap (escapeChar q), []) := by
  induction value with
  | nil => simp [inside?_cons (ne_backslash_of_isQuote hq)]
  | cons c value ih =>
    rw [List.flatMap_cons, List.append_assoc]
    rcases escapeChar_cases q c with ⟨d, he, _⟩ | ⟨he, hb, hn, hc⟩
    · simp [he, inside?_escape, ih]
    · simp [he, inside?_cons hb, hn, hc, ih]

/-- A written literal is closed in itself. -/
theorem isClosed_quote (value : Text) : IsClosed (quote value) :=
  isClosed_of_inside? (isQuote_quoteStyle value)
    (inside?_flatMap_escapeChar (isQuote_quoteStyle value) value)

theorem unescape_cons {c : Char} (hc : c ≠ '\\') (s : Text) :
    unescape (c :: s) = c :: unescape s := by
  rw [unescape]
  exact fun _ _ he => absurd he hc

/-- Decoding undoes the escapes. -/
theorem unescape_flatMap_escapeChar {q : Char} (hq : isQuote q = true) (value : Text) :
    unescape (value.flatMap (escapeChar q)) = value := by
  induction value with
  | nil => rfl
  | cons c value ih =>
    rw [List.flatMap_cons, escapeChar]
    split
    · next hc => simp [unescape, ih, hc]
    · split
      · next hc => simp [unescape, ih, hc]
      · split
        · next hc => simp [unescape, ih, hc]
        · split
          · next hc => simp [unescape, ih, hc]
          · split
            · next hc =>
              rw [hc]
              rcases isQuote_iff.1 hq with rfl | rfl <;> simp [unescape, ih]
            · next hb _ _ _ _ => rw [List.singleton_append, unescape_cons hb, ih]

/-- A written literal is read back as the value it denotes. -/
theorem scan?_quote (value rest : Text) : scan? (quote value ++ rest) = some (value, rest) := by
  have hq := isQuote_quoteStyle value
  have hinside : inside? (quoteStyle value)
      (value.flatMap (escapeChar (quoteStyle value)) ++ quoteStyle value :: rest)
        = some (value.flatMap (escapeChar (quoteStyle value)), rest) :=
    (inside?_eq_iff (ne_backslash_of_isQuote hq)).2 ⟨rfl, inside?_flatMap_escapeChar hq value⟩
  have happ : quote value ++ rest = quoteStyle value ::
      (value.flatMap (escapeChar (quoteStyle value)) ++ quoteStyle value :: rest) := by
    simp [quote]
  rw [happ, scan?_of_isQuote hq]
  simp [scanPlain?, hq, hinside, unescape_flatMap_escapeChar hq]

/-- A written literal stands on one line. -/
theorem newline_not_mem_quote (value : Text) : '\n' ∉ quote value := by
  have hq : '\n' ≠ quoteStyle value := by
    intro h
    have := isQuote_quoteStyle value
    rw [← h] at this
    exact absurd this (by decide)
  have hin : '\n' ∉ value.flatMap (escapeChar (quoteStyle value)) := by
    rw [List.mem_flatMap]
    rintro ⟨c, _, hc⟩
    rcases escapeChar_cases (quoteStyle value) c with ⟨d, he, hd⟩ | ⟨he, _, hn, _⟩
    · simp [he, hd.symm] at hc
    · simp [he, hn.symm] at hc
  simp [quote, hq, hin]

end Scribe.Literal
