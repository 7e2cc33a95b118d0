import Scribe.Repair.Physical
import Scribe.Proofs.Script.Call

set_option autoImplicit false

/-! # Folding calls

What folding does with the characters of a script, one by one, and where it finds nothing to fold: a
call that is closed on its line stays as it is, and so does a line without any call. -/

namespace Scribe.Repair

/-! ## Outside calls -/

theorem foldCalls_cons {free : Bool} {c : Char} {s : Text} (hcomment : c ≠ '#')
    (hcall : callAt? free (c :: s) = none) :
    foldCalls free (c :: s) = c :: foldCalls (isFreeAfter (some c)) s := by
  rw [foldCalls, if_neg hcomment]
  split
  · next h =>
    rw [hcall] at h
    simp at h
  · rfl

theorem foldCalls_call {free : Bool} {c : Char} {s : Text} {head : CallHead} (hcomment : c ≠ '#')
    (hcall : callAt? free (c :: s) = some head) :
    foldCalls free (c :: s) = head.lead ++ (foldInside { parens := 1 } [] head.rest).1
      ++ foldCalls true (foldInside { parens := 1 } [] head.rest).2 := by
  rw [foldCalls, if_neg hcomment]
  split
  · next h =>
    rw [hcall] at h
    cases h
    rfl
  · next h =>
    rw [hcall] at h
    simp at h

/-- Where no name starts there is no call. -/
theorem callAt?_eq_none {free : Bool} {c : Char} (hstart : Text.isIdentStart c = false)
    (s : Text) : callAt? free (c :: s) = none := by
  have hident : identifier (c :: s) = ([], c :: s) := by simp [identifier, hstart]
  rw [callAt?, hident]
  split <;> rfl

/-- Without a name or a comment there is nothing to fold. -/
theorem foldCalls_eq {free : Bool} {s : Text}
    (h : ∀ c ∈ s, c ≠ '#' ∧ Text.isIdentStart c = false) : foldCalls free s = s := by
  induction s generalizing free with
  | nil => rw [foldCalls]
  | cons c s ih =>
    obtain ⟨hcomment, hstart⟩ := h c List.mem_cons_self
    rw [foldCalls_cons hcomment (callAt?_eq_none hstart s),
      ih fun d hd => h d (List.mem_cons_of_mem _ hd)]

/-! ## Inside a call -/

section Inside

variable {b : Balance} {done r : Text} {c : Char}

theorem foldInside_cons (hc : c ≠ '\n')
    (hopen : (!(b.feed c).inQuote && (b.feed c).parens == 0) = false) :
    foldInside b done (c :: r) = foldInside (b.feed c) (c :: done) r := by
  rw [foldInside, if_neg hc]
  simp only [hopen, Bool.false_eq_true, if_false]

theorem foldInside_close (hc : c ≠ '\n')
    (hclosed : (!(b.feed c).inQuote && (b.feed c).parens == 0) = true) :
    foldInside b done (c :: r) = ((c :: done).reverse, r) := by
  rw [foldInside, if_neg hc]
  simp only [hclosed, if_true]

/-- A line break in a literal becomes a space, and the balance does not see it. -/
theorem foldInside_break (hquote : b.inQuote = true) (hgap : r.dropWhile Text.isGap = r) :
    foldInside b done ('\n' :: r) = foldInside b (' ' :: done) r := by
  rw [foldInside, if_pos rfl]
  simp only [hquote, hgap, Bool.not_true, Bool.false_and, Bool.false_eq_true, if_false]

end Inside

/-! ## Lines that stay -/

/-- A call that is complete on its line ends there. -/
theorem foldInside_of_untilClosed? {b : Balance} {done s inner rest : Text} (hb : 0 < b.parens)
    (h : b.untilClosed? s = some (inner, rest)) (hinner : '\n' ∉ inner) :
    foldInside b done s = (done.reverse ++ (inner ++ [')']), rest) := by
  -- Up to the closing parenthesis one is open, so both readers go on at the same characters.
  induction s generalizing b done inner with
  | nil => simp [Balance.untilClosed?] at h
  | cons c s ih =>
    simp only [Balance.untilClosed?] at h
    split at h
    · next hclosed =>
      obtain ⟨rfl, hquote, hparens⟩ := hclosed
      cases h
      rw [foldInside_close (by decide) (by simp [Balance.inQuote, hquote, hparens])]
      simp
    · next hopen =>
      obtain ⟨⟨i, r⟩, hir, heq⟩ := Option.map_eq_some_iff.1 h
      cases heq
      rw [List.mem_cons, not_or] at hinner
      have hpos : 0 < (b.feed c).parens := Balance.parens_feed_pos hb hopen
      have hparens : ((b.feed c).parens == 0) = false := by simpa using Nat.ne_of_gt hpos
      rw [foldInside_cons (Ne.symm hinner.1) (by rw [hparens, Bool.and_false]),
        ih hpos hir hinner.2]
      simp

/-- Folding copies the line and starts anew behind it, where the script ends or a line break
    stands. -/
def StaysFolded (line : Text) : Prop :=
  ∀ behind : Text, (∀ c, behind.head? = some c → c = '\n') →
    foldCalls true (line ++ behind) = line ++ foldCalls true behind

/-- A line that starts with a complete call and ends with it. -/
theorem staysFolded_of_callAt? {line args : Text} {head : CallHead}
    (hcall : callAt? true line = some head)
    (hargs : Balance.argumentList? head.rest = some (args, [])) (hnewline : '\n' ∉ line) :
    StaysFolded line := by
  intro behind _
  have hrest : head.rest = args ++ [')'] := Balance.eq_append_of_untilClosed? hargs
  have hline : line = head.lead ++ (args ++ [')']) := by
    rw [← hrest]
    exact eq_append_of_callAt? hcall
  obtain ⟨c, name, hname, hc, _⟩ := isName_name head.verb
  have hcomment : c ≠ '#' := by
    rintro rfl
    exact absurd hc (by decide)
  have hfirst : line = c :: (name ++ head.gap ++ ['('] ++ (args ++ [')'])) := by
    rw [hline, CallHead.lead, hname]
    rfl
  have hinside : foldInside { parens := 1 } [] (head.rest ++ behind)
      = (args ++ [')'], behind) := by
    refine foldInside_of_untilClosed? Nat.one_pos
      (Balance.untilClosed?_append hargs behind) fun hn => hnewline ?_
    rw [hline]
    exact List.mem_append_right _ (List.mem_append_left _ hn)
  -- The call is found with the text behind the line in its rest.
  have hfound := callAt?_append hcall behind
  rw [hfirst, List.cons_append] at hfound ⊢
  rw [foldCalls_call hcomment hfound, hinside, ← hfirst, hline]
  rfl

/-- Behind a line break a name may start, whatever stands in front of it. -/
theorem foldCalls_lineEnd {s : Text} (hs : ∀ c, s.head? = some c → c = '\n') (free : Bool) :
    foldCalls free s = foldCalls true s := by
  cases s with
  | nil => rw [foldCalls, foldCalls]
  | cons c s =>
    obtain rfl := hs c rfl
    rw [foldCalls_cons (by decide) (callAt?_eq_none (by decide) s),
      foldCalls_cons (by decide) (callAt?_eq_none (by decide) s)]

theorem foldCalls_append {free : Bool} {line behind : Text}
    (hcall : anyCall (fun _ => true) free line = false) (hnewline : '\n' ∉ line)
    (hbehind : ∀ c, behind.head? = some c → c = '\n') :
    foldCalls free (line ++ behind) = line ++ foldCalls true behind := by
  induction line generalizing free with
  | nil => exact foldCalls_lineEnd hbehind free
  | cons c line ih =>
    rw [List.mem_cons, not_or] at hnewline
    rw [anyCall, Bool.or_eq_false_iff] at hcall
    by_cases hcomment : c = '#'
    · -- A comment is copied up to the end of its line.
      subst hcomment
      have hcopied : ∀ d ∈ line, (d != '\n') = true := fun d hd => by
        simpa using fun he : d = '\n' => hnewline.2 (he ▸ hd)
      have hend : behind.takeWhile (· != '\n') = [] ∧ behind.dropWhile (· != '\n') = behind := by
        cases behind with
        | nil => exact ⟨rfl, rfl⟩
        | cons d behind => simp [hbehind d rfl]
      rw [List.cons_append, foldCalls, if_pos rfl, List.takeWhile_append_of_pos hcopied,
        List.dropWhile_append_of_pos hcopied, hend.1, hend.2, List.append_nil]
    · have hnone : callAt? free (c :: line) = none := by
        cases hstart : callAt? free (c :: line) with
        | none => rfl
        | some head => simp [hstart] at hcall
      have hfree : callAt? free (c :: (line ++ behind)) = none :=
        callAt?_append_eq_none hbehind hnone
      rw [List.cons_append, foldCalls_cons hcomment hfree, ih hcall.2 hnewline.2]
      rfl

/-- A line that mentions no call. -/
theorem staysFolded_of_mentionsCall {line : Text} (hcall : mentionsCall line = false)
    (hnewline : '\n' ∉ line) : StaysFolded line :=
  fun _ hbehind => foldCalls_append hcall hnewline hbehind

/-- There is nothing to fold in a script of such lines. -/
theorem foldCallNewlines_unlines {lines : List Text} (h : ∀ l ∈ lines, StaysFolded l) :
    foldCallNewlines (Text.unlines lines) = Text.unlines lines := by
  rw [foldCallNewlines]
  induction lines with
  | nil => rw [Text.unlines_nil, foldCalls]
  | cons line lines ih =>
    have hline := h line List.mem_cons_self
    cases lines with
    | nil =>
      have hend := hline [] (by simp)
      rwa [foldCalls, List.append_nil, ← Text.unlines_singleton line] at hend
    | cons next lines =>
      have hlines := ih fun l hl => h l (List.mem_cons_of_mem _ hl)
      have hbreak := hline ('\n' :: Text.unlines (next :: lines)) (by simp)
      rw [Text.unlines_cons_cons, hbreak,
        foldCalls_cons (by decide) (callAt?_eq_none (by decide) _)]
      show line ++ '\n' :: foldCalls true _ = _
      rw [hlines]

end Scribe.Repair
