import Scribe.Proofs.Repair.Folding

set_option autoImplicit false

/-! # One call per line

Folding reads a script call by call, and rewrites each so that it is closed and stands on one line.
Whether it has done so is told by reading the result in the same way, afresh. Main statements:
folding leaves a script alone exactly when all its calls are closed on their lines; and what it
makes of a script is such a script, as long as no line of a call ends in the middle of an escape.
There it does not feed the space that takes the place of the line break to the balance, which from
then on is not that of the text written. -/

namespace Scribe

/-! ## Looking for the end of a call -/

namespace Balance

variable {b : Balance} {s t : Text}

theorem untilClosed?_append_of_none (h : b.untilClosed? s = none) (t : Text) :
    b.untilClosed? (s ++ t) = ((b.feedAll s).untilClosed? t).map fun r => (s ++ r.1, r.2) := by
  induction s generalizing b with
  | nil => simp [feedAll]
  | cons c s ih =>
    simp only [untilClosed?] at h
    split at h
    · simp at h
    · next hopen =>
      rw [List.cons_append, untilClosed?, if_neg hopen, ih (Option.map_eq_none_iff.1 h),
        Option.map_map]
      rfl

theorem untilClosed?_eq_none_of_append (h : b.untilClosed? (s ++ t) = none) :
    b.untilClosed? s = none := by
  cases hs : b.untilClosed? s with
  | none => rfl
  | some r =>
    rw [untilClosed?_append hs t] at h
    simp at h

theorem parens_feedAll_pos (hb : 0 < b.parens) (h : b.untilClosed? s = none) :
    0 < (b.feedAll s).parens := by
  induction s generalizing b with
  | nil => exact hb
  | cons c s ih =>
    simp only [untilClosed?] at h
    split at h
    · simp at h
    · next hopen => exact ih (parens_feed_pos hb hopen) (Option.map_eq_none_iff.1 h)

theorem untilClosed?_concat (h : b.untilClosed? s = none) {c : Char}
    (hopen : ¬(c = ')' ∧ ((b.feedAll s).feed c).quote = none ∧
      ((b.feedAll s).feed c).parens = 0)) : b.untilClosed? (s ++ [c]) = none := by
  rw [untilClosed?_append_of_none h, untilClosed?, if_neg hopen]
  rfl

/-- Outside literals the closers of what is open end the call, the last of them. -/
theorem untilClosed?_closers (hq : b.quote = none) (k : Nat) {p : Nat} (hp : b.parens = p + 1)
    (t : Text) : b.untilClosed? (List.replicate k ']' ++ List.replicate (p + 1) ')' ++ t)
      = some (List.replicate k ']' ++ List.replicate p ')', t) := by
  induction k generalizing b with
  | zero =>
    induction p generalizing b with
    | zero => simp [untilClosed?, feed, hq, hp]
    | succ p ih =>
      have hfeed : b.feed ')' = { b with parens := p + 1 } := by simp [feed, hq, hp]
      have hrest := ih (b := { b with parens := p + 1 }) hq rfl
      rw [List.replicate_zero, List.nil_append] at hrest ⊢
      rw [List.replicate_succ, List.cons_append, untilClosed?, hfeed, hrest]
      simp [List.replicate_succ]
  | succ k ih =>
    have hfeed : b.feed ']' = { b with brackets := b.brackets - 1 } := by simp [feed, hq]
    have hrest := ih (b := { b with brackets := b.brackets - 1 }) hq hp
    rw [List.replicate_succ, List.cons_append, List.cons_append, untilClosed?, hfeed,
      if_neg (by simp), hrest]
    rfl

/-- A space changes a balance only if it is taken for what a backslash has waited for. -/
theorem Valid.feed_space (hb : Valid b) (he : b.escaped = false) : b.feed ' ' = b := by
  cases hq : b.quote with
  | none => exact feed_of_isPlain hq (by decide)
  | some q =>
    have hspace : ' ' ≠ q := by rcases hb.quote_eq q hq with rfl | rfl <;> decide
    simp [Balance.feed, hq, he, hspace]

/-- A text in which no parenthesis closes the call, and its balance. -/
structure Reaches (s : Text) (b : Balance) : Prop where
  feedAll_eq : feedAll { parens := 1 } s = b
  argumentList?_eq : argumentList? s = none

namespace Reaches

theorem nil : Reaches [] { parens := 1 } := ⟨rfl, rfl⟩

theorem valid (h : Reaches s b) : Valid b := by
  rw [← h.feedAll_eq]
  exact Valid.feedAll ⟨fun _ => rfl, fun _ hq => by simp at hq⟩ s

theorem parens_pos (h : Reaches s b) : 0 < b.parens := by
  rw [← h.feedAll_eq]
  exact parens_feedAll_pos Nat.one_pos h.argumentList?_eq

theorem argumentList?_append (h : Reaches s b) (t : Text) :
    argumentList? (s ++ t) = (b.untilClosed? t).map fun r => (s ++ r.1, r.2) := by
  rw [argumentList?, untilClosed?_append_of_none h.argumentList?_eq, h.feedAll_eq]

theorem concat (h : Reaches s b) {c : Char}
    (hopen : ¬(c = ')' ∧ (b.feed c).quote = none ∧ (b.feed c).parens = 0)) :
    Reaches (s ++ [c]) (b.feed c) := by
  refine ⟨by rw [feedAll_append, h.feedAll_eq]; rfl, untilClosed?_concat h.argumentList?_eq ?_⟩
  rwa [h.feedAll_eq]

/-- In front of a backslash that waits for its partner nothing waits. -/
theorem of_escaped (h : Reaches s b) (he : b.escaped = true) :
    ∃ t, s = t ++ ['\\'] ∧ Reaches t { b with escaped := false } := by
  have hscan : scan ('(' :: s) = b := h.feedAll_eq
  obtain ⟨t, ht, hfront⟩ := exists_of_escaped_scan (s := '(' :: s) (by rw [hscan, he])
  cases t with
  | nil => simp at ht
  | cons c t =>
    obtain ⟨rfl, rfl⟩ := List.cons.inj ht
    exact ⟨t, rfl, by rw [← hscan]; exact hfront, untilClosed?_eq_none_of_append h.argumentList?_eq⟩

/-- Closing what is open ends the call, at the last character. -/
theorem closeOpen (h : Reaches s b) (hs : '\n' ∉ s) :
    ∃ args, b.closeOpen s = args ++ [')'] ∧ '\n' ∉ args ∧
      ∀ t, argumentList? (args ++ ')' :: t) = some (args, t) := by
  -- The literal is closed first; what is left are brackets and parentheses.
  have hliteral : ∃ u, b.closeOpen s
      = u ++ List.replicate b.brackets ']' ++ List.replicate b.parens ')' ∧ '\n' ∉ u ∧
        Reaches u { b with quote := none, escaped := false } := by
    cases hq : b.quote with
    | none =>
      have hsame : ({ b with quote := none, escaped := false } : Balance) = b := by
        rw [← hq, ← h.valid.escaped_eq hq]
      exact ⟨s, by simp [Balance.closeOpen, hq], hs, by rwa [hsame]⟩
    | some q =>
      have hquote : q = '\'' ∨ q = '"' := h.valid.quote_eq q hq
      have hne : q ≠ '\n' ∧ q ≠ '\\' ∧ q ≠ ')' := by rcases hquote with rfl | rfl <;> decide
      obtain ⟨u, hu, hunescaped, hfront⟩ : ∃ u, (if b.escaped then s.dropLast else s) = u ∧
          '\n' ∉ u ∧ Reaches u { b with escaped := false } := by
        by_cases he : b.escaped = true
        · obtain ⟨u, rfl, hfront⟩ := h.of_escaped he
          exact ⟨u, by simp [he], fun hn => hs (List.mem_append_left _ hn), hfront⟩
        · have hsame : ({ b with escaped := false } : Balance) = b := by
            rw [← Bool.eq_false_iff.2 he]
          exact ⟨s, by simp [he], hs, by rwa [hsame]⟩
      have hfeed : ({ b with escaped := false } : Balance).feed q
          = { b with quote := none, escaped := false } := by
        simp [feed, hq, hne.2.1]
      refine ⟨u ++ [q], by simp [Balance.closeOpen, hq, hu], by simp [hunescaped, hne.1.symm], ?_⟩
      rw [← hfeed]
      exact hfront.concat fun hclosed => hne.2.2 hclosed.1
  obtain ⟨p, hp⟩ := Nat.exists_eq_succ_of_ne_zero (Nat.ne_of_gt h.parens_pos)
  obtain ⟨u, hclose, hu, hreaches⟩ := hliteral
  refine ⟨u ++ (List.replicate b.brackets ']' ++ List.replicate p ')'), ?_, ?_, fun t => ?_⟩
  · rw [hclose, hp, Nat.succ_eq_add_one, List.replicate_succ']
    simp
  · simp [hu]
  · have hend := untilClosed?_closers (b := { b with quote := none, escaped := false }) rfl
      b.brackets hp t
    have happ : u ++ (List.replicate b.brackets ']' ++ List.replicate p ')') ++ ')' :: t
        = u ++ (List.replicate b.brackets ']' ++ List.replicate (p + 1) ')' ++ t) := by
      simp [List.replicate_succ']
    rw [happ, hreaches.argumentList?_append, hend]
    rfl

end Reaches

end Balance

namespace Repair

open Text (isGap isIdentChar isIdentStart)

/-! ## Reading calls -/

/-- Read from the left, with comments left out, every call of the vocabulary has a matching
    parenthesis and stands on one line. The flag tells whether a name may start at the text. -/
inductive OneLineCalls : Bool → Text → Prop where
  | nil (free : Bool) : OneLineCalls free []
  | comment (free : Bool) {s : Text} (h : OneLineCalls true (s.dropWhile (· != '\n'))) :
      OneLineCalls free ('#' :: s)
  | call {free : Bool} {s args behind : Text} {head : CallHead} (hcall : callAt? free s = some head)
      (hargs : Balance.argumentList? head.rest = some (args, behind))
      (hline : '\n' ∉ head.lead ++ args) (h : OneLineCalls true behind) : OneLineCalls free s
  | skip {free : Bool} {c : Char} {s : Text} (hcomment : c ≠ '#')
      (hcall : callAt? free (c :: s) = none) (h : OneLineCalls (isFreeAfter (some c)) s) :
      OneLineCalls free (c :: s)

theorem newline_not_mem_lead {free : Bool} {s : Text} {head : CallHead}
    (h : callAt? free s = some head) : '\n' ∉ head.lead := by
  obtain ⟨_, hgap, _⟩ := callAt?_eq_some_iff.1 h
  have hname : '\n' ∉ head.verb.name := fun hn =>
    absurd ((isName_name head.verb).isIdentChar_of_mem hn) (by decide)
  have hspace : '\n' ∉ head.gap := fun hn => absurd (hgap _ hn) (by decide)
  simp [CallHead.lead, hname, hspace]

/-- A call starts with the first character of a name. -/
theorem exists_cons_of_callAt? {free : Bool} {s : Text} {head : CallHead}
    (h : callAt? free s = some head) :
    ∃ c name, head.lead = c :: name ∧ s = c :: (name ++ head.rest) ∧ isIdentStart c = true ∧
      c ≠ '#' := by
  obtain ⟨_, _, rfl⟩ := callAt?_eq_some_iff.1 h
  obtain ⟨c, r, hname, hc, _⟩ := isName_name head.verb
  refine ⟨c, r ++ head.gap ++ ['('], by simp [CallHead.lead, hname],
    by simp [CallHead.lead, hname], hc, ?_⟩
  rintro rfl
  exact absurd hc (by decide)

/-- Such calls are left as they are. -/
theorem OneLineCalls.foldCalls_eq {free : Bool} {s : Text} (h : OneLineCalls free s) :
    foldCalls free s = s := by
  induction h with
  | nil free => rw [foldCalls]
  | comment free _ ih =>
    rw [foldCalls, if_pos rfl, ih, List.cons_append, List.takeWhile_append_dropWhile]
  | @call free s args behind head hcall hargs hline _ ih =>
    obtain ⟨c, name, hlead, rfl, _, hcomment⟩ := exists_cons_of_callAt? hcall
    have hinside : foldInside { parens := 1 } [] head.rest = (args ++ [')'], behind) :=
      foldInside_of_untilClosed? Nat.one_pos hargs fun hn => hline (List.mem_append_right _ hn)
    rw [foldCalls_call hcomment hcall, hinside, ih, hlead,
      Balance.eq_append_of_untilClosed? hargs]
    simp
  | skip hcomment hcall _ ih => rw [foldCalls_cons hcomment hcall, ih]

/-! ## Breaks in calls -/

/-- The balances in front of the line breaks of a call that become spaces; `b` is the balance in
    front of the text. -/
def insideBreaks (b : Balance) (s : Text) : List Balance :=
  match s with
  | [] => []
  | c :: r =>
    if c = '\n' then
      let next := r.dropWhile isGap
      if !b.inQuote && (callAt? true next).isSome then [] else b :: insideBreaks b next
    else if !(b.feed c).inQuote && (b.feed c).parens == 0 then [] else insideBreaks (b.feed c) r
termination_by s.length
decreasing_by
  · have : (r.dropWhile isGap).length ≤ r.length := (List.dropWhile_sublist _).length_le
    simp only [List.length_cons]
    omega
  · simp

/-- The balances in front of the line breaks that become spaces, call by call; `free` tells whether
    a name may start at the text. -/
def foldedBreaks (free : Bool) (s : Text) : List Balance :=
  match s with
  | [] => []
  | c :: r =>
    if c = '#' then foldedBreaks true (r.dropWhile (· != '\n'))
    else match _hcall : callAt? free (c :: r) with
      | some head =>
        insideBreaks { parens := 1 } head.rest
          ++ foldedBreaks true (foldInside { parens := 1 } [] head.rest).2
      | none => foldedBreaks (isFreeAfter (some c)) r
termination_by s.length
decreasing_by
  · have : (r.dropWhile (· != '\n')).length ≤ r.length := (List.dropWhile_sublist _).length_le
    simp only [List.length_cons]
    omega
  · have h := congrArg List.length (eq_append_of_callAt? _hcall)
    have := foldInside_length_le { parens := 1 } [] head.rest
    simp only [CallHead.lead, List.length_append, List.length_cons] at h ⊢
    omega
  · simp

theorem foldedBreaks_cons {free : Bool} {c : Char} {s : Text} (hcomment : c ≠ '#')
    (hcall : callAt? free (c :: s) = none) :
    foldedBreaks free (c :: s) = foldedBreaks (isFreeAfter (some c)) s := by
  rw [foldedBreaks, if_neg hcomment]
  split
  · next h => simp [hcall] at h
  · rfl

theorem foldedBreaks_call {free : Bool} {c : Char} {s : Text} {head : CallHead}
    (hcomment : c ≠ '#') (hcall : callAt? free (c :: s) = some head) :
    foldedBreaks free (c :: s) = insideBreaks { parens := 1 } head.rest
      ++ foldedBreaks true (foldInside { parens := 1 } [] head.rest).2 := by
  rw [foldedBreaks, if_neg hcomment]
  split
  · next h =>
    rw [hcall] at h
    cases h
    rfl
  · next h => simp [hcall] at h

/-- As long as no escape is interrupted, the balance is that of what was written, and so a call that
    was folded is closed where it ends. -/
theorem exists_of_foldInside {b : Balance} {done s : Text} (hreaches : b.Reaches done.reverse)
    (hnewline : '\n' ∉ done) (hbreaks : ∀ x ∈ insideBreaks b s, x.escaped = false) :
    ∃ args, (foldInside b done s).1 = args ++ [')'] ∧ '\n' ∉ args ∧
      ∀ t, Balance.argumentList? (args ++ ')' :: t) = some (args, t) := by
  fun_induction foldInside b done s with
  | case1 b done => exact hreaches.closeOpen (by simpa using hnewline)
  | case2 b done r next hcut => exact hreaches.closeOpen (by simpa using hnewline)
  | case3 b done r next hcut ih =>
    rw [insideBreaks, if_pos rfl, if_neg hcut] at hbreaks
    have hescaped : b.escaped = false := hbreaks b List.mem_cons_self
    -- A line break becomes a space, which changes a balance only behind a backslash.
    have hspace : b.feed ' ' = b := hreaches.valid.feed_space hescaped
    refine ih ?_ (by simpa using hnewline) fun x hx => hbreaks x (List.mem_cons_of_mem _ hx)
    have hmore := hreaches.concat (c := ' ') fun h => absurd h.1 (by decide)
    rw [List.reverse_cons]
    rwa [hspace] at hmore
  | case4 b done c r hc b' hclosed =>
    obtain ⟨hquote, hparens⟩ := Bool.and_eq_true_iff.1 hclosed
    obtain ⟨rfl, hnone⟩ := Balance.parens_feed_eq_zero hreaches.parens_pos (by simpa using hparens)
    refine ⟨done.reverse, by simp, by simpa using hnewline, fun t => ?_⟩
    rw [hreaches.argumentList?_append, Balance.untilClosed?,
      if_pos ⟨rfl, hnone, by simpa using hparens⟩]
    simp
  | case5 b done c r hc b' hopen ih =>
    rw [insideBreaks, if_neg hc, if_neg hopen] at hbreaks
    refine ih ?_ (by simpa [hnewline] using Ne.symm hc) hbreaks
    rw [List.reverse_cons]
    refine hreaches.concat fun h => hopen ?_
    simp [b', Balance.inQuote, h.2.1, h.2.2]

/-! ## Nothing new outside calls -/

section Outside

variable {free : Bool} {c d : Char} {r s t : Text}

/-- Where no call starts and no comment, folding copies. -/
theorem exists_of_foldCalls_eq_cons (h : foldCalls free s = d :: t) (hcomment : d ≠ '#')
    (hstart : free = false ∨ isIdentStart d = false) :
    ∃ r, s = d :: r ∧ t = foldCalls (isFreeAfter (some d)) r := by
  cases s with
  | nil => simp [foldCalls] at h
  | cons e r =>
    by_cases he : e = '#'
    · rw [foldCalls, if_pos he, List.cons_append] at h
      exact absurd ((List.cons.inj h).1 ▸ he) hcomment
    · cases hcall : callAt? free (e :: r) with
      | none =>
        rw [foldCalls_cons he hcall] at h
        obtain ⟨rfl, rfl⟩ := List.cons.inj h
        exact ⟨r, rfl, rfl⟩
      | some head =>
        obtain ⟨c, name, hlead, _, hc, _⟩ := exists_cons_of_callAt? hcall
        rw [foldCalls_call he hcall, hlead] at h
        obtain ⟨rfl, _⟩ := List.cons.inj h
        rcases hstart with rfl | hstart
        · simp [callAt?] at hcall
        · rw [hc] at hstart
          exact absurd hstart (by decide)

/-- The rest of a name is copied. -/
theorem exists_of_foldCalls_eq_name {name : Text} (hname : ∀ d ∈ name, isIdentChar d = true)
    (h : foldCalls false s = name ++ t) : ∃ r, s = name ++ r ∧ t = foldCalls false r := by
  induction name generalizing s with
  | nil => exact ⟨s, rfl, h.symm⟩
  | cons d name ih =>
    have hd := hname d List.mem_cons_self
    have hcomment : d ≠ '#' := by
      rintro rfl
      exact absurd hd (by decide)
    obtain ⟨r, rfl, hrest⟩ := exists_of_foldCalls_eq_cons h hcomment (.inl rfl)
    have hfree : isFreeAfter (some d) = false := by simp [isFreeAfter, hd]
    rw [hfree] at hrest
    obtain ⟨r, rfl, ht⟩ := ih (fun e he => hname e (List.mem_cons_of_mem _ he)) hrest.symm
    exact ⟨r, rfl, ht⟩

/-- Characters that start no name are copied. -/
theorem exists_of_foldCalls_eq_append {u : Text}
    (hu : ∀ d ∈ u, d ≠ '#' ∧ isIdentStart d = false) (h : foldCalls free s = u ++ t) :
    ∃ r free, s = u ++ r ∧ t = foldCalls free r := by
  induction u generalizing s free with
  | nil => exact ⟨s, free, rfl, h.symm⟩
  | cons d u ih =>
    obtain ⟨hcomment, hstart⟩ := hu d List.mem_cons_self
    obtain ⟨r, rfl, hrest⟩ := exists_of_foldCalls_eq_cons h hcomment (.inr hstart)
    obtain ⟨r, free, rfl, ht⟩ := ih (fun e he => hu e (List.mem_cons_of_mem _ he)) hrest.symm
    exact ⟨r, free, rfl, ht⟩

/-- Where no call starts, folding what follows does not make one: a name and its parenthesis are
    copied. -/
theorem callAt?_cons_foldCalls (h : callAt? free (c :: r) = none) :
    callAt? free (c :: foldCalls (isFreeAfter (some c)) r) = none := by
  cases hcall : callAt? free (c :: foldCalls (isFreeAfter (some c)) r) with
  | none => rfl
  | some head =>
    obtain ⟨hfree, hgap, hsplit⟩ := callAt?_eq_some_iff.1 hcall
    obtain ⟨d, name, hname, hd, hident⟩ := isName_name head.verb
    have hlead : head.lead ++ head.rest = d :: (name ++ (head.gap ++ ['('] ++ head.rest)) := by
      simp [CallHead.lead, hname]
    rw [hlead] at hsplit
    obtain ⟨rfl, hrest⟩ := List.cons.inj hsplit
    have hbehind : isFreeAfter (some c) = false := by
      simp [isFreeAfter, isIdentChar_of_isIdentStart hd]
    rw [hbehind] at hrest
    obtain ⟨u, rfl, hu⟩ := exists_of_foldCalls_eq_name hident hrest
    have hplain : ∀ e ∈ head.gap ++ ['('], e ≠ '#' ∧ isIdentStart e = false := by
      intro e he
      rcases List.mem_append.1 he with he | he
      · have hspace := hgap e he
        simp only [isGap, Bool.or_eq_true, beq_iff_eq] at hspace
        rcases hspace with rfl | rfl <;> decide
      · rw [List.mem_singleton.1 he]
        decide
    obtain ⟨v, _, rfl, _⟩ := exists_of_foldCalls_eq_append hplain hu.symm
    have hfound : callAt? free (c :: (name ++ (head.gap ++ ['('] ++ v)))
        = some { head with rest := v } :=
      callAt?_eq_some_iff.2 ⟨hfree, hgap, by simp [CallHead.lead, hname]⟩
    rw [h] at hfound
    simp at hfound

end Outside

/-- Behind a comment the script ends, or a line break stands, and both are copied. -/
theorem dropWhile_foldCalls (s : Text) :
    (foldCalls true (s.dropWhile (· != '\n'))).dropWhile (· != '\n')
      = foldCalls true (s.dropWhile (· != '\n')) := by
  have hhead := List.head?_dropWhile_not (· != '\n') s
  cases hrest : s.dropWhile (· != '\n') with
  | nil => simp [foldCalls]
  | cons c r =>
    obtain rfl : c = '\n' := by simpa [hrest] using hhead
    rw [foldCalls_cons (by decide) (callAt?_eq_none (by decide) r)]
    rfl

/-- As long as no escape is interrupted, folding closes every call on its line. -/
theorem oneLineCalls_foldCalls {free : Bool} {s : Text}
    (hbreaks : ∀ b ∈ foldedBreaks free s, b.escaped = false) :
    OneLineCalls free (foldCalls free s) := by
  fun_induction foldCalls free s with
  | case1 free => exact .nil free
  | case2 free r ih =>
    rw [foldedBreaks, if_pos rfl] at hbreaks
    refine .comment free ?_
    have hcomment : ∀ c ∈ r.takeWhile (· != '\n'), (c != '\n') = true :=
      fun c hc => List.all_eq_true.1 List.all_takeWhile c hc
    rw [List.append_eq, List.dropWhile_append_of_pos hcomment, dropWhile_foldCalls]
    exact ih hbreaks
  | case3 free c r hc head hcall ih =>
    rw [foldedBreaks_call hc hcall] at hbreaks
    have hstart : Balance.Reaches (List.reverse []) { parens := 1 } := Balance.Reaches.nil
    obtain ⟨args, hargs, hnewline, hread⟩ := exists_of_foldInside hstart List.not_mem_nil
      fun b hb => hbreaks b (List.mem_append_left _ hb)
    obtain ⟨hfree, hgap, _⟩ := callAt?_eq_some_iff.1 hcall
    -- The same call, with its arguments as they are written.
    let rewritten : CallHead := { head with
      rest := args ++ ')' :: foldCalls true (foldInside { parens := 1 } [] head.rest).2 }
    have hrewritten : callAt? free (rewritten.lead ++ rewritten.rest) = some rewritten :=
      callAt?_eq_some_iff.2 ⟨hfree, hgap, rfl⟩
    rw [hargs, List.append_assoc, List.append_assoc]
    have hlead : '\n' ∉ rewritten.lead := newline_not_mem_lead hrewritten
    refine .call hrewritten (hread _) ?_ (ih fun b hb => hbreaks b (List.mem_append_right _ hb))
    rw [List.mem_append, not_or]
    exact ⟨hlead, hnewline⟩
  | case4 free c r hc hcall ih =>
    rw [foldedBreaks_cons hc hcall] at hbreaks
    exact .skip hc (callAt?_cons_foldCalls hcall) (ih hbreaks)

/-! ## Scripts that are left alone -/

/-- Closing what is open adds something behind the text, but for a backslash at its end that gives
    way to a quote. -/
theorem closeOpen_begins {b : Balance} (hvalid : b.Valid) (s : Text) :
    (∃ more, b.closeOpen s = s ++ more) ∨
      ∃ q more, Literal.isQuote q = true ∧ b.closeOpen s = s.dropLast ++ q :: more := by
  unfold Balance.closeOpen
  cases hq : b.quote with
  | none => exact .inl ⟨_, List.append_assoc _ _ _⟩
  | some q =>
    by_cases he : b.escaped = true
    · refine .inr ⟨q, List.replicate b.brackets ']' ++ List.replicate b.parens ')',
        Literal.isQuote_iff.2 (hvalid.quote_eq q hq), by simp [he]⟩
    · exact .inl ⟨q :: (List.replicate b.brackets ']' ++ List.replicate b.parens ')'),
        by simp [he]⟩

theorem length_lt_closeOpen {b : Balance} (hparens : 0 < b.parens) (s : Text) :
    s.length < (b.closeOpen s).length := by
  unfold Balance.closeOpen
  cases b.quote with
  | none =>
    simp only [List.length_append, List.length_replicate]
    omega
  | some q =>
    simp only [List.length_append, List.length_replicate, List.length_singleton]
    split
    · rw [List.length_dropLast]
      omega
    · omega

/-- What is written of a call begins with what was written already, but for a character at its end
    that may have given way to a quote. -/
theorem foldInside_begins {b : Balance} {done s : Text} (hvalid : b.Valid) :
    (∃ more, (foldInside b done s).1 = done.reverse ++ more) ∨
      ∃ q more, Literal.isQuote q = true ∧
        (foldInside b done s).1 = done.reverse.dropLast ++ q :: more := by
  have hcons {d : Char} {done written : Text}
      (h : (∃ more, written = (d :: done).reverse ++ more) ∨
        ∃ q more, Literal.isQuote q = true ∧ written = (d :: done).reverse.dropLast ++ q :: more) :
      ∃ more, written = done.reverse ++ more := by
    rcases h with ⟨more, rfl⟩ | ⟨q, more, _, rfl⟩
    · exact ⟨d :: more, by simp⟩
    · exact ⟨q :: more, by simp⟩
  fun_induction foldInside b done s with
  | case1 b done => exact closeOpen_begins hvalid _
  | case2 b done r next hcut => exact closeOpen_begins hvalid _
  | case3 b done r next hcut ih => exact .inl (hcons (ih hvalid))
  | case4 b done c r hc b' hclosed => exact .inl ⟨[c], by simp⟩
  | case5 b done c r hc b' hopen ih => exact .inl (hcons (ih (hvalid.feed c)))

/-- A call that is left as it is is closed on its line. -/
theorem exists_of_foldInside_eq {b : Balance} {done s behind : Text} (hvalid : b.Valid)
    (hparens : 0 < b.parens)
    (heq : (foldInside b done s).1 ++ behind = done.reverse ++ s) :
    ∃ args, b.untilClosed? s = some (args, (foldInside b done s).2) ∧ '\n' ∉ args ∧
      (foldInside b done s).1 = done.reverse ++ (args ++ [')']) := by
  fun_induction foldInside b done s with
  | case1 b done =>
    have hlength := congrArg List.length heq
    have hlonger := length_lt_closeOpen hparens done.reverse
    simp only [List.length_append, List.append_nil] at hlength
    omega
  | case2 b done r next hcut =>
    -- The closers stand where the line break was.
    have hquote : b.quote = none := by
      simpa [Balance.inQuote] using (Bool.and_eq_true_iff.1 hcut).1
    obtain ⟨p, hp⟩ := Nat.exists_eq_succ_of_ne_zero (Nat.ne_of_gt hparens)
    simp only [Balance.closeOpen, hquote, List.append_assoc, List.append_cancel_left_eq] at heq
    cases hk : b.brackets <;> simp [hk, hp, List.replicate_succ] at heq
  | case3 b done r next hcut ih =>
    -- A space stands where the line break was, or a quote if the space has given way to one.
    rcases @foldInside_begins b (' ' :: done) next hvalid with
      ⟨more, hmore⟩ | ⟨q, more, hq, hmore⟩
    · rw [hmore, List.reverse_cons, List.append_assoc, List.append_assoc] at heq
      simp at heq
    · rw [hmore, List.reverse_cons, List.dropLast_concat, List.append_assoc] at heq
      obtain ⟨rfl, _⟩ := List.cons.inj (List.append_cancel_left heq)
      exact absurd hq (by decide)
  | case4 b done c r hc b' hclosed =>
    obtain ⟨hquote, hzero⟩ := Bool.and_eq_true_iff.1 hclosed
    obtain ⟨rfl, hnone⟩ := Balance.parens_feed_eq_zero hparens (by simpa using hzero)
    exact ⟨[], by rw [Balance.untilClosed?, if_pos ⟨rfl, hnone, by simpa using hzero⟩],
      List.not_mem_nil, by simp⟩
  | case5 b done c r hc b' hopen ih =>
    have hgoesOn : ¬(c = ')' ∧ (b.feed c).quote = none ∧ (b.feed c).parens = 0) := fun h =>
      hopen (by simp [b', Balance.inQuote, h.2.1, h.2.2])
    obtain ⟨args, hargs, hnewline, hwritten⟩ := ih (hvalid.feed c)
      (Balance.parens_feed_pos hparens hgoesOn) (by simpa using heq)
    refine ⟨c :: args, ?_, by simpa [hnewline] using Ne.symm hc, by simpa using hwritten⟩
    rw [Balance.untilClosed?, if_neg hgoesOn, hargs]
    rfl

/-- Folding leaves a script alone exactly when all its calls are closed on their lines. -/
theorem foldCalls_eq_iff {free : Bool} {s : Text} :
    foldCalls free s = s ↔ OneLineCalls free s := by
  refine ⟨fun h => ?_, OneLineCalls.foldCalls_eq⟩
  fun_induction foldCalls free s with
  | case1 free => exact .nil free
  | case2 free r ih =>
    refine .comment free (ih ?_)
    have hrest := (List.cons.inj h).2
    conv at hrest => rhs; rw [← List.takeWhile_append_dropWhile (p := (· != '\n')) (l := r)]
    exact List.append_cancel_left hrest
  | case3 free c r hc head hcall ih =>
    have hsplit := eq_append_of_callAt? hcall
    rw [hsplit, List.append_assoc] at h
    have hinside : (foldInside { parens := 1 } [] head.rest).1
        ++ foldCalls true (foldInside { parens := 1 } [] head.rest).2
          = List.reverse [] ++ head.rest := List.append_cancel_left h
    obtain ⟨args, hargs, hnewline, hwritten⟩ :=
      exists_of_foldInside_eq ⟨fun _ => rfl, fun _ hq => by simp at hq⟩ Nat.one_pos hinside
    have hline : '\n' ∉ head.lead ++ args := by
      rw [List.mem_append, not_or]
      exact ⟨newline_not_mem_lead hcall, hnewline⟩
    refine .call hcall hargs hline (ih ?_)
    have hrest := Balance.eq_append_of_untilClosed? hargs
    rw [hwritten] at hinside
    have hbehind := hinside.trans hrest
    simpa using hbehind
  | case4 free c r hc hcall ih => exact .skip hc hcall (ih (List.cons.inj h).2)

/-- Folding twice is folding once exactly when folding has left one closed call per line, and it has
    done so if no line of a call ends in the middle of an escape. -/
theorem oneLineCalls_foldCallNewlines (s : Text) :
    (foldCallNewlines (foldCallNewlines s) = foldCallNewlines s ↔
      OneLineCalls true (foldCallNewlines s)) ∧
    ((∀ b ∈ foldedBreaks true s, b.escaped = false) → OneLineCalls true (foldCallNewlines s)) :=
  ⟨foldCalls_eq_iff, oneLineCalls_foldCalls⟩

/-- A script with calls over several lines, one of them in a literal, and calls that are cut off, by
    the next call and by the end. -/
def brokenCalls : Text :=
  "insert_text('it\\'s (\n  here') # insert_text(\ninsert_equation([1,\ninsert_text(\"a\n\\".toList

theorem foldCallNewlines_brokenCalls :
    foldCallNewlines brokenCalls
      = ("insert_text('it\\'s ( here') # insert_text(\n".toList
        ++ "insert_equation([1,])\ninsert_text(\"a \")".toList)
    ∧ OneLineCalls true (foldCallNewlines brokenCalls) :=
  ⟨by decide +kernel, (oneLineCalls_foldCallNewlines brokenCalls).2 (by decide +kernel)⟩

/-- A line that ends between a backslash and what it escapes: the call is taken to be closed, and
    what is written of it is not, since there the backslash stands in front of a space. -/
theorem not_oneLineCalls_foldCallNewlines_interrupted_escape :
    ¬OneLineCalls true (foldCallNewlines "insert_text('a\\\n\\')".toList) ∧
      foldCallNewlines (foldCallNewlines "insert_text('a\\\n\\')".toList)
        ≠ foldCallNewlines "insert_text('a\\\n\\')".toList := by
  have hchanges : foldCallNewlines (foldCallNewlines "insert_text('a\\\n\\')".toList)
      ≠ foldCallNewlines "insert_text('a\\\n\\')".toList := by decide +kernel
  exact ⟨fun h => hchanges (foldCalls_eq_iff.2 h), hchanges⟩

end Repair

end Scribe
