import Scribe.Proofs.Script.Scanning

set_option autoImplicit false

/-! # The scanner and the ends of lines

A step of the scanner looks over the end of a line only where something is open there: an argument
list, or a literal behind a backslash that takes the line break with it. Where every call that the
scanner comes to is closed, a text and the lines behind it are scanned each on their own, unless a
literal runs over the seam in that way. -/

namespace Scribe

open Text (isIdentChar isGap)

/-! ## Literals at the end of a text -/

namespace Literal

/-- Inside a literal with quote `q`: is it open at the end of the text, behind a backslash that is
    not one of a pair? -/
def endsEscaped (q : Char) : Text → Bool
  | [] => false
  | ['\\'] => true
  | '\\' :: _ :: s => endsEscaped q s
  | c :: s => if c = q ∨ c = '\n' then false else endsEscaped q s

theorem ne_backslash_of_unpaired {c : Char} {s : Text} (hlast : c = '\\' → s = [] → False)
    (hpair : ∀ d r, c = '\\' → s = d :: r → False) : c ≠ '\\' := fun hc => by
  cases s with
  | nil => exact hlast hc rfl
  | cons d r => exact hpair d r hc rfl

/-- What is not closed within a text is not closed on the lines behind it. -/
theorem inside?_append_newline {q : Char} (hq : isQuote q = true) {s : Text}
    (hopen : inside? q s = none) (hends : endsEscaped q s = false) (t : Text) :
    inside? q (s ++ '\n' :: t) = none := by
  have hbreak : '\n' ≠ q := by rcases isQuote_iff.1 hq with rfl | rfl <;> decide
  fun_induction endsEscaped q s with
  | case1 => rw [List.nil_append, inside?_cons (by decide), if_neg hbreak, if_pos rfl]
  | case2 => exact absurd hends (by decide)
  | case3 c s ih =>
    rw [inside?_escape, Option.map_eq_none_iff] at hopen
    rw [List.cons_append, List.cons_append, inside?_escape, ih hopen hends]
    rfl
  | case4 c s hlast hpair hc =>
    rw [inside?_cons (ne_backslash_of_unpaired hlast hpair)] at hopen
    rw [List.cons_append, inside?_cons (ne_backslash_of_unpaired hlast hpair)]
    rcases hc with rfl | rfl
    · simp at hopen
    · rw [if_neg hbreak, if_pos rfl]
  | case5 c s hlast hpair hc ih =>
    obtain ⟨hcq, hcn⟩ := not_or.1 hc
    rw [inside?_cons (ne_backslash_of_unpaired hlast hpair), if_neg hcq, if_neg hcn,
      Option.map_eq_none_iff] at hopen
    rw [List.cons_append, inside?_cons (ne_backslash_of_unpaired hlast hpair), if_neg hcq,
      if_neg hcn, ih hopen hends]
    rfl

/-- Behind such a backslash the literal goes on over the end of the line. -/
theorem exists_inside?_append_newline {q : Char} {s : Text} (hends : endsEscaped q s = true)
    {t inner rest : Text} (ht : inside? q t = some (inner, rest)) :
    ∃ inner', inside? q (s ++ '\n' :: t) = some (inner', rest) := by
  fun_induction endsEscaped q s with
  | case1 => exact absurd hends (by decide)
  | case2 =>
    refine ⟨'\\' :: '\n' :: inner, ?_⟩
    rw [List.singleton_append, inside?_escape, ht]
    rfl
  | case3 c s ih =>
    obtain ⟨inner', h⟩ := ih hends
    refine ⟨'\\' :: c :: inner', ?_⟩
    rw [List.cons_append, List.cons_append, inside?_escape, h]
    rfl
  | case4 => exact absurd hends (by decide)
  | case5 c s hlast hpair hc ih =>
    obtain ⟨inner', h⟩ := ih hends
    obtain ⟨hcq, hcn⟩ := not_or.1 hc
    refine ⟨c :: inner', ?_⟩
    rw [List.cons_append, inside?_cons (ne_backslash_of_unpaired hlast hpair), if_neg hcq,
      if_neg hcn, h]
    rfl

end Literal

namespace Scanner

open Literal (isQuote endsEscaped inside? scan?)

/-! ## The start of a literal -/

/-- What may stand in front of the opening quote of a literal. -/
def marks : List Text := [[], ['r'], ['R']]

theorem mem_marks {mark : Text} : mark ∈ marks ↔ mark = [] ∨ mark = ['r'] ∨ mark = ['R'] := by
  simp [marks]

theorem exists_of_startsLiteral {s : Text} (h : startsLiteral s = true) :
    ∃ mark ∈ marks, ∃ q u, isQuote q = true ∧ s = mark ++ q :: u := by
  cases s with
  | nil => exact absurd h (by decide)
  | cons c s =>
    simp only [startsLiteral, Bool.or_eq_true, Bool.and_eq_true, beq_iff_eq] at h
    rcases h with hq | ⟨hc, hq⟩
    · exact ⟨[], by decide, c, s, hq, rfl⟩
    · obtain ⟨q, hhead, hq⟩ := (Option.any_eq_true isQuote s.head?).1 hq
      obtain ⟨u, rfl⟩ := List.head?_eq_some_iff.1 hhead
      refine ⟨[c], ?_, q, u, hq, rfl⟩
      rcases hc with rfl | rfl <;> decide

section Start

variable {mark : Text} (hmark : mark ∈ marks) {q : Char} (hq : isQuote q = true)
include hmark hq

theorem startsLiteral_mark (u : Text) : startsLiteral (mark ++ q :: u) = true := by
  rcases mem_marks.1 hmark with rfl | rfl | rfl <;> simp [startsLiteral, hq]

/-- A literal ends where its inside does, with its mark or without. -/
theorem map_snd_scan? (u : Text) :
    (scan? (mark ++ q :: u)).map Prod.snd = (inside? q u).map Prod.snd := by
  have hplain (decode : Text → Text) :
      (Literal.scanPlain? decode (q :: u)).map Prod.snd = (inside? q u).map Prod.snd := by
    rw [Literal.scanPlain?, if_pos hq, Option.map_map]
    rfl
  rcases mem_marks.1 hmark with rfl | rfl | rfl
  · rw [List.nil_append, Literal.scan?_of_isQuote hq]
    exact hplain _
  · exact hplain id
  · exact hplain id

/-- No call starts where a literal does. -/
theorem callAt?_mark (free : Bool) (u : Text) : Scribe.callAt? free (mark ++ q :: u) = none := by
  have hquote : isIdentChar q = false := by
    rcases Literal.isQuote_iff.1 hq with rfl | rfl <;> decide
  have hident : (identifier (mark ++ q :: u)).1 = mark := by
    rw [identifier_append_cons hquote]
    exact (by decide : ∀ mark ∈ marks, (identifier mark).1 = mark) mark hmark
  rw [Scribe.callAt?, hident]
  rcases mem_marks.1 hmark with rfl | rfl | rfl <;> split <;> rfl

end Start

/-! ## Places -/

/-- Does a literal start here that is open at the end of the text behind an unpaired backslash? -/
def runsOver (before : Option Char) (s : Text) : Bool :=
  isFreeAfter before && match s with
    | 'r' :: q :: u => isQuote q && endsEscaped q u
    | 'R' :: q :: u => isQuote q && endsEscaped q u
    | q :: u => isQuote q && endsEscaped q u
    | [] => false

theorem runsOver_mark {before : Option Char} (hfree : isFreeAfter before = true) {mark : Text}
    (hmark : mark ∈ marks) {q : Char} (hq : isQuote q = true) (u : Text) :
    runsOver before (mark ++ q :: u) = endsEscaped q u := by
  rcases mem_marks.1 hmark with rfl | rfl | rfl
  · rcases Literal.isQuote_iff.1 hq with rfl | rfl <;> simp [runsOver, hfree, isQuote]
  · simp [runsOver, hfree, hq]
  · simp [runsOver, hfree, hq]

theorem startsLiteral_of_runsOver {before : Option Char} {s : Text}
    (h : runsOver before s = true) : isFreeAfter before = true ∧ startsLiteral s = true := by
  simp only [runsOver, Bool.and_eq_true] at h
  refine ⟨h.1, ?_⟩
  have h := h.2
  split at h <;> simp_all [startsLiteral]

/-- The text behind the parenthesis of a call outside the vocabulary that starts here. -/
def foreignCall? (free : Bool) (s : Text) : Option Text :=
  if !free || startsLiteral s || (identifier s).1.isEmpty then none
  else match (identifier s).2.dropWhile isGap with
    | '(' :: inner => some inner
    | _ => none

theorem foreignCall?_eq_some {s inner : Text} (hliteral : ¬startsLiteral s = true)
    (hname : ¬(identifier s).1.isEmpty = true)
    (hbehind : (identifier s).2.dropWhile isGap = '(' :: inner) :
    foreignCall? true s = some inner := by
  simp [foreignCall?, hliteral, hname, hbehind]

/-- Is the call that starts here, of the vocabulary or not, closed within the text? -/
def closesCall (before : Option Char) (s : Text) : Bool :=
  match Scribe.callAt? (isFreeAfter before) s with
  | some head => (Balance.argumentList? head.rest).isSome
  | none =>
    (foreignCall? (isFreeAfter before) s).all fun inner => (Balance.argumentList? inner).isSome

/-- Does `p` hold of every place that the scanner comes to? -/
def allMet (p : Option Char → Text → Bool) (before : Option Char) (s : Text) : Bool :=
  p before s && match _hnext : (visit before s).2 with
    | some next => allMet p next.1 next.2
    | none => true
termination_by s.length
decreasing_by exact length_lt_of_visit _hnext

theorem allMet_iff {p : Option Char → Text → Bool} {before : Option Char} {s : Text} :
    allMet p before s = true ↔ p before s = true ∧
      ∀ next, (visit before s).2 = some next → allMet p next.1 next.2 = true := by
  rw [allMet, Bool.and_eq_true]
  refine and_congr_right fun _ => ?_
  split
  · next next hnext => simp [hnext]
  · next hnext => simp [hnext]

/-! ## Over the end of a line -/

theorem lineEnd_append_newline (s b : Text) :
    lineEnd (s ++ '\n' :: b) = lineEnd s ++ '\n' :: b :=
  dropWhile_append_cons (by decide) s b

theorem startsLiteral_append_newline (s b : Text) :
    startsLiteral (s ++ '\n' :: b) = startsLiteral s := by
  cases s with
  | nil => rfl
  | cons c s =>
    cases s with
    | nil => simp [startsLiteral, isQuote]
    | cons d s => rfl

theorem scan?_append_newline {before : Option Char} {s : Text} (hfree : isFreeAfter before = true)
    (hliteral : startsLiteral s = true) (hover : runsOver before s = false) (b : Text) :
    scan? (s ++ '\n' :: b) = (scan? s).map fun r => (r.1, r.2 ++ '\n' :: b) := by
  obtain ⟨mark, hmark, q, u, hq, rfl⟩ := exists_of_startsLiteral hliteral
  rw [runsOver_mark hfree hmark hq] at hover
  cases hscan : scan? (mark ++ q :: u) with
  | some r => exact Literal.scan?_append hscan _
  | none =>
    have hopen := map_snd_scan? hmark hq u
    rw [hscan, Option.map_none, eq_comm, Option.map_eq_none_iff] at hopen
    have hbehind := map_snd_scan? hmark hq (u ++ '\n' :: b)
    rw [Literal.inside?_append_newline hq hopen hover, Option.map_none,
      Option.map_eq_none_iff] at hbehind
    rw [List.append_assoc, List.cons_append, hbehind]
    rfl

/-- What the scanner skips within a text it skips in the same way where more lines follow. -/
theorem skipInert?_append_newline {before : Option Char} {s : Text}
    (hclosed : (foreignCall? (isFreeAfter before) s).all
      (fun inner => (Balance.argumentList? inner).isSome) = true)
    (hover : runsOver before s = false) (b : Text) :
    skipInert? (isFreeAfter before) (s ++ '\n' :: b)
      = (skipInert? (isFreeAfter before) s).map fun r => (r.1, r.2 ++ '\n' :: b) := by
  cases hfree : isFreeAfter before with
  | false => rfl
  | true =>
    rw [hfree] at hclosed
    simp only [skipInert?, startsLiteral_append_newline, Bool.not_true, Bool.false_eq_true,
      if_false]
    split
    · next hliteral =>
      rw [scan?_append_newline hfree hliteral hover]
      cases scan? s with
      | some r => rfl
      | none => rw [lineEnd_append_newline]; rfl
    · next hliteral =>
      rw [identifier_append_cons (by decide)]
      split
      · rfl
      · next hname =>
        rw [dropWhile_append_cons (by decide)]
        cases hbehind : (identifier s).2.dropWhile isGap with
        | nil => rfl
        | cons c inner =>
          by_cases hc : c = '('
          · subst hc
            rw [foreignCall?_eq_some hliteral hname hbehind] at hclosed
            obtain ⟨⟨args, rest⟩, hargs⟩ := Option.isSome_iff_exists.1 hclosed
            have hmore : Balance.argumentList? (inner ++ '\n' :: b)
                = some (args, rest ++ '\n' :: b) := Balance.untilClosed?_append hargs _
            simp only [List.cons_append, hargs, hmore, Option.map_some]
          · simp [hc]

/-- At a place where nothing runs over the end of the text, the scanner does the same where more
    lines follow. -/
theorem exists_visit_append_newline {before : Option Char} {c : Char} {s : Text}
    (hclosed : closesCall before (c :: s) = true) (hover : runsOver before (c :: s) = false) :
    ∃ next, (visit before (c :: s)).2 = some next ∧ ∀ b, visit before (c :: s ++ '\n' :: b)
      = ((visit before (c :: s)).1, some (next.1, next.2 ++ '\n' :: b)) := by
  by_cases hcomment : c = '#'
  · refine ⟨(some '#', lineEnd s), by rw [visit, if_pos hcomment], fun b => ?_⟩
    rw [List.cons_append, visit, visit, if_pos hcomment, if_pos hcomment, lineEnd_append_newline]
  · cases hcall : Scribe.callAt? (isFreeAfter before) (c :: s) with
    | some head =>
      rw [closesCall, hcall] at hclosed
      obtain ⟨⟨args, rest⟩, hargs⟩ := Option.isSome_iff_exists.1 hclosed
      rw [visit_call hcomment hcall hargs]
      refine ⟨(some ')', rest), rfl, fun b => ?_⟩
      exact visit_call hcomment (callAt?_append hcall ('\n' :: b))
        (Balance.untilClosed?_append hargs _)
    | none =>
      rw [closesCall, hcall] at hclosed
      rw [visit_inert hcomment hcall]
      refine ⟨_, rfl, fun b => ?_⟩
      have hmore : Scribe.callAt? (isFreeAfter before) (c :: s ++ '\n' :: b) = none :=
        callAt?_append_eq_none (fun d hd => (Option.some.inj hd).symm) hcall
      have hskip := skipInert?_append_newline hclosed hover b
      rw [List.cons_append] at hmore hskip ⊢
      rw [visit_inert hcomment hmore, hskip]
      cases skipInert? (isFreeAfter before) (c :: s) <;> rfl

/-! ## Where a literal ends -/

/-- The scanner goes on behind a literal, or at the end of the line where the literal has none. -/
theorem callsFrom_of_startsLiteral {before : Option Char} (hfree : isFreeAfter before = true)
    {s : Text} (hliteral : startsLiteral s = true) :
    callsFrom before s = callsFrom (some '\'') ((scan? s).elim (lineEnd s) Prod.snd) := by
  have hcall : Scribe.callAt? (isFreeAfter before) s = none := by
    obtain ⟨mark, hmark, q, u, hq, rfl⟩ := exists_of_startsLiteral hliteral
    exact callAt?_mark hmark hq _ u
  have hskip : skipInert? (isFreeAfter before) s
      = some (some '\'', (scan? s).elim (lineEnd s) Prod.snd) := by
    simp only [skipInert?, hfree, hliteral, Bool.not_true, Bool.false_eq_true, if_false, if_true]
    cases scan? s <;> rfl
  cases s with
  | nil => exact absurd hliteral (by decide)
  | cons c s =>
    have hcomment : c ≠ '#' := by
      rintro rfl
      simp [startsLiteral, isQuote] at hliteral
    rw [callsFrom_eq, visit_inert hcomment hcall, hskip]
    rfl

/-- Where a literal runs over the end of the text, it ends at the next quote of its kind. -/
theorem exists_callsFrom_of_runsOver {before : Option Char} {s : Text}
    (hover : runsOver before s = true) :
    ∃ q, isQuote q = true ∧ ∀ b inner rest, inside? q b = some (inner, rest) →
      callsFrom before (s ++ '\n' :: b) = callsFrom (some '\'') rest := by
  obtain ⟨hfree, hliteral⟩ := startsLiteral_of_runsOver hover
  obtain ⟨mark, hmark, q, u, hq, rfl⟩ := exists_of_startsLiteral hliteral
  rw [runsOver_mark hfree hmark hq] at hover
  refine ⟨q, hq, fun b inner rest hb => ?_⟩
  obtain ⟨inner', hinner⟩ := Literal.exists_inside?_append_newline hover hb
  rw [List.append_assoc, List.cons_append,
    callsFrom_of_startsLiteral hfree (startsLiteral_mark hmark hq _)]
  have hscan := map_snd_scan? hmark hq (u ++ '\n' :: b)
  rw [hinner, Option.map_some] at hscan
  obtain ⟨r, hr, rfl⟩ := Option.map_eq_some_iff.1 hscan
  rw [hr]
  rfl

/-! ## Lines scanned one by one -/

/-- Of what stands in front of a place the scanner asks only whether a name may start behind it. -/
theorem callsFrom_congr {before before' : Option Char}
    (hfree : isFreeAfter before = isFreeAfter before') (s : Text) :
    callsFrom before s = callsFrom before' s := by
  have hvisit : visit before s = visit before' s := by
    cases s with
    | nil => rfl
    | cons c s => rw [visit, visit, hfree]
  rw [callsFrom_eq, callsFrom_eq before', hvisit]

theorem callsFrom_newline (before : Option Char) (b : Text) :
    callsFrom before ('\n' :: b) = calls b :=
  (callsFrom_of_isIdle rfl before b).1.trans (@callsFrom_congr (some '\n') none rfl b)

/-- A text and the lines behind it are scanned each on their own. -/
def ScansApart (before : Option Char) (s : Text) : Prop :=
  ∀ b, callsFrom before (s ++ '\n' :: b) = callsFrom before s ++ calls b

theorem scansApart_nil (before : Option Char) : ScansApart before [] := fun b => by
  rw [List.nil_append, callsFrom_newline, callsFrom_eq before []]
  rfl

/-- Where the scanner's step stays within the text, the rest of the text decides. -/
theorem exists_scansApart_iff {before : Option Char} {c : Char} {s : Text}
    (hclosed : closesCall before (c :: s) = true) (hover : runsOver before (c :: s) = false) :
    ∃ next, (visit before (c :: s)).2 = some next ∧
      (ScansApart before (c :: s) ↔ ScansApart next.1 next.2) := by
  obtain ⟨next, hnext, hvisit⟩ := exists_visit_append_newline hclosed hover
  refine ⟨next, hnext, forall_congr' fun b => ?_⟩
  rw [callsFrom_eq, hvisit, callsFrom_eq before (c :: s), hnext, List.append_assoc,
    List.append_cancel_left_eq]
  rfl

theorem calls_insertEnter (s : Text) :
    calls ("insert_enter()".toList ++ s) = (.insertEnter, []) :: callsFrom (some ')') s :=
  @callsFrom_call none rfl .insertEnter [] [] (by simp) Balance.isClosed_nil s

/-- A literal that runs over the end of the text takes a call on the next line with it. -/
theorem not_scansApart_of_runsOver {before : Option Char} {s : Text}
    (hover : runsOver before s = true) : ¬ScansApart before s := by
  obtain ⟨q, hq, hends⟩ := exists_callsFrom_of_runsOver hover
  have hinside : inside? q ("insert_enter()".toList ++ [q])
      = some ("insert_enter()".toList, []) := by
    rcases Literal.isQuote_iff.1 hq with rfl | rfl <;> decide
  intro hapart
  have hcalls := hapart ("insert_enter()".toList ++ [q])
  rw [hends _ _ _ hinside, callsFrom_eq (some '\'') [], calls_insertEnter] at hcalls
  simp [visit] at hcalls

/-- Where every call is closed, only literals reach over the end of the text. -/
theorem scansApart_iff {before : Option Char} {s : Text}
    (hclosed : allMet closesCall before s = true) :
    ScansApart before s ↔ allMet (fun before s => !runsOver before s) before s = true := by
  induction before, s using allMet.induct with
  | case1 before s ih =>
    obtain ⟨hcall, hcalls⟩ := allMet_iff.1 hclosed
    rw [allMet_iff]
    cases hover : runsOver before s with
    | true => simp [not_scansApart_of_runsOver hover]
    | false =>
      cases s with
      | nil => simp [scansApart_nil, visit]
      | cons c s =>
        obtain ⟨next, hnext, hstep⟩ := exists_scansApart_iff hcall hover
        rw [hstep, ih next hnext (hcalls next hnext)]
        simp [hnext]

/-- Where each call that the scanner meets in a text is closed there, the calls in the text and the
    lines behind it are those of the text and those of the lines, unless a literal runs over the
    seam; and a literal that is never closed runs to the end of its own line only. -/
theorem calls_append_newline_iff {a : Text} (hclosed : allMet closesCall none a = true) :
    ((∀ b, calls (a ++ '\n' :: b) = calls a ++ calls b) ↔
      allMet (fun before s => !runsOver before s) none a = true) ∧
    ∀ before s, isFreeAfter before = true → startsLiteral s = true → scan? s = none →
      callsFrom before s = calls (lineEnd s) := by
  refine ⟨scansApart_iff hclosed, fun before s hfree hliteral hscan => ?_⟩
  rw [callsFrom_of_startsLiteral hfree hliteral, hscan]
  exact @callsFrom_congr (some '\'') none rfl _

/-- Prose with a comment, a foreign call, a call and two literals that are never closed; the last
    one ends in a backslash that is one of a pair. -/
def variedLines : Text :=
  "See # exit_box()\nf('(', exit_box()) 'exit_box()\ninsert_text(\"it's)\") don't '\\\\".toList

theorem calls_variedLines_append :
    allMet closesCall none variedLines = true ∧
      ∀ b, calls (variedLines ++ '\n' :: b) = calls variedLines ++ calls b := by
  have hclosed : allMet closesCall none variedLines = true := by decide +kernel
  exact ⟨hclosed, (calls_append_newline_iff hclosed).1.2 (by decide +kernel)⟩

/-- A literal that takes the line break with it takes the call on the next line too. -/
theorem calls_backslash_append_ne :
    allMet closesCall none "'\\".toList = true ∧
      calls ("'\\".toList ++ '\n' :: "insert_enter()'".toList)
        ≠ calls "'\\".toList ++ calls "insert_enter()'".toList := by
  refine ⟨by decide +kernel, ?_⟩
  have hseam : calls ("'\\".toList ++ '\n' :: "insert_enter()'".toList) = [] := by
    rw [calls, callsFrom_of_startsLiteral rfl rfl, callsFrom_eq]
    decide +kernel
  have hfound : calls "insert_enter()'".toList
      = (.insertEnter, []) :: callsFrom (some ')') ['\''] := calls_insertEnter ['\'']
  rw [hseam, hfound]
  simp

end Scanner

end Scribe
