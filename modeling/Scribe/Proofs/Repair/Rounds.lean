import Mathlib.Logic.Function.Iterate
import Scribe.Proofs.Repair.Folding
import Scribe.Proofs.Repair.Inert

set_option autoImplicit false

/-! # How many rounds a script needs

Normalizing runs the repairs eight times. Whoever stops there gets a script that a further round
leaves alone if one of the rounds before changed nothing. There are scripts for which that does not
come about: folding a call takes the backslash in front of a line break as the start of an escape
and skips the line break, whereas the next round reads the space in its place. So the call grows by
one line in each round, and no number of rounds is enough for all scripts. -/

namespace Scribe.Repair

open Text (isWhite)

/-! ## Rounds -/

theorem settle_eq_iterate (f : Text → Text) (n : Nat) (s : Text) :
    Pipeline.settle f n s = f^[n] s := by
  induction n generalizing s with
  | zero => rfl
  | succ n ih =>
    rw [Pipeline.settle]
    split
    · next h => exact (Function.iterate_fixed h (n + 1)).symm
    · rw [ih, Function.iterate_succ_apply]

/-- Stopping early makes no difference: normalizing is eight rounds. -/
theorem normalize_eq_iterate (s : Text) :
    normalize s = Pipeline.full.runOnce^[Pipeline.maxRounds] s := by
  rw [normalize, Pipeline.run, settle_eq_iterate, ← Function.iterate_succ_apply]
  rfl

/-- One of the first rounds changes nothing. -/
def Settles (s : Text) : Prop :=
  ∃ k ≤ Pipeline.maxRounds, Pipeline.full.runOnce^[k + 1] s = Pipeline.full.runOnce^[k] s

/-- A round leaves the normalized script alone just if the script has settled before. -/
theorem runOnce_normalize_iff (s : Text) :
    Pipeline.full.runOnce (normalize s) = normalize s ↔ Settles s := by
  rw [normalize_eq_iterate, ← Function.iterate_succ_apply' Pipeline.full.runOnce]
  constructor
  · exact fun h => ⟨_, Nat.le_refl _, h⟩
  · rintro ⟨k, hk, h⟩
    -- From the round on that changed nothing, none does.
    obtain ⟨j, hj⟩ := Nat.exists_eq_add_of_le hk
    rw [Function.iterate_succ_apply'] at h
    have hfix : Pipeline.full.runOnce^[Pipeline.maxRounds] s = Pipeline.full.runOnce^[k] s := by
      rw [hj, Nat.add_comm, Function.iterate_add_apply, Function.iterate_fixed h]
    rw [Function.iterate_succ_apply', hfix, h]

/-! ## Stairs -/

/-- What `n` lines give where they are folded into a call. -/
def steps (n : Nat) : Text := (List.replicate n ['\\', ' ', '\'', '\'', ')']).flatten

/-- A quoted call with `n` lines folded into it. -/
def climbed (n : Nat) : Text := '\'' :: (Verb.insertText.name ++ '(' :: '\'' :: steps n)

/-- A line that the call before it goes on in, if that ends with a backslash. -/
def tread : Text := ['\'', '\'', ')', '\\']

/-- A call with `n` lines folded into it and `m` more to come. -/
def stairs (n m : Nat) : List Text := (climbed n ++ ['\\']) :: List.replicate m tread

/-- The call with nothing left to fold, once its quotes are closed. -/
def landing (n : Nat) : Text := climbed n ++ ['\'', ')', '\'']

/-- The characters of the stairs. -/
def stairChars : Text := Verb.insertText.name ++ ['\'', '(', ')', '\\', ' ']

theorem mem_climbed {n : Nat} {c : Char} (h : c ∈ climbed n) : c ∈ stairChars := by
  have hstep : ∀ c ∈ ['\\', ' ', '\'', '\'', ')'], c ∈ stairChars := by simp [stairChars]
  simp only [climbed, List.mem_cons, List.mem_append] at h
  rcases h with rfl | h | rfl | rfl | h
  · simp [stairChars]
  · exact List.mem_append_left _ h
  · simp [stairChars]
  · simp [stairChars]
  · obtain ⟨l, hl, hc⟩ := List.mem_flatten.1 h
    rw [List.eq_of_mem_replicate hl] at hc
    exact hstep c hc

theorem feedAll_steps (n : Nat) : Balance.feedAll {} (steps n) = {} := by
  induction n with
  | zero => rfl
  | succ n ih =>
    rw [steps, List.replicate_succ, List.flatten_cons, Balance.feedAll_append]
    exact ih

theorem scan_climbed_append (n : Nat) (back : Text) :
    Balance.scan (climbed n ++ back) = Balance.scan back := by
  have hname : Balance.scan ('\'' :: (Verb.insertText.name ++ ['(', '\''])) = {} := by
    decide +kernel
  have hsplit : climbed n ++ back
      = '\'' :: (Verb.insertText.name ++ ['(', '\'']) ++ (steps n ++ back) := by simp [climbed]
  rw [hsplit, Balance.scan_append, hname, Balance.feedAll_append, feedAll_steps]
  rfl

/-- A line of these characters that starts with a quote and leaves no literal open is inert. -/
theorem isInert_of_stairChars {line : Text} (hhead : line.head? = some '\'')
    (hlast : ∀ c, line.getLast? = some c → isWhite c = false)
    (hchars : ∀ c ∈ line, c ∈ stairChars) (hclosed : (Balance.scan line).inQuote = false) :
    IsInert line := by
  have hlineEnd : ∀ c ∈ stairChars, (c != '\r' && c != '\u2028' && c != '\u2029') = true :=
    List.all_eq_true.1 (by decide +kernel)
  have hsep : ∀ c ∈ stairChars, (!(c == '+' || c == ';')) = true :=
    List.all_eq_true.1 (by decide +kernel)
  have hnewline : '\n' ∉ stairChars := by decide +kernel
  obtain ⟨rest, rfl⟩ := List.head?_eq_some_iff.1 hhead
  have htrim : Text.trim ('\'' :: rest) = '\'' :: rest :=
    Text.trim_eq_self (fun c hc => by rw [← Option.some.inj hc]; decide) hlast
  refine ⟨⟨by simp, htrim, fun h => hnewline (hchars _ h)⟩,
    fun c hc => by simpa [and_assoc] using hlineEnd c (hchars c hc), ?_,
    CallLine.ofLine?_eq_none (by decide) (by decide) rest,
    fun c hc => by simpa using hsep c (hchars c hc), fun _ => hclosed⟩
  simp [isFence, htrim, List.isPrefixOf]

theorem isInert_climbed_append (n : Nat) {back : Text} {last : Char}
    (hlast : back.getLast? = some last) (hwhite : isWhite last = false)
    (hchars : ∀ c ∈ back, c ∈ stairChars) (hclosed : (Balance.scan back).inQuote = false) :
    IsInert (climbed n ++ back) := by
  refine isInert_of_stairChars ?_ (fun c hc => ?_) (fun c hc => ?_) ?_
  · rfl
  · rw [List.getLast?_append, hlast, Option.some_or, Option.some.injEq] at hc
    rwa [← hc]
  · rcases List.mem_append.1 hc with hc | hc
    · exact mem_climbed hc
    · exact hchars c hc
  · rw [scan_climbed_append]
    exact hclosed

theorem isInert_tread : IsInert tread :=
  isInert_of_stairChars rfl (fun c hc => by rw [← Option.some.inj hc]; decide)
    (by simp [tread, stairChars]) (by decide +kernel)

theorem isInert_of_mem_stairs {n m : Nat} {line : Text} (h : line ∈ stairs n m) :
    IsInert line := by
  rcases List.mem_cons.1 h with rfl | h
  · exact isInert_climbed_append n rfl (by decide) (by simp [stairChars]) (by decide +kernel)
  · rw [List.eq_of_mem_replicate h]
    exact isInert_tread

theorem isInert_landing (n : Nat) : IsInert (landing n) :=
  isInert_climbed_append n rfl (by decide) (by simp [stairChars]) (by decide +kernel)

/-! ## Folding stairs -/

/-- Behind the opening quote of the call. -/
def inCall : Balance := { quote := some '\'', parens := 1 }

theorem foldInside_steps (n : Nat) (done s : Text) :
    foldInside inCall done (steps n ++ s) = foldInside inCall ((steps n).reverse ++ done) s := by
  induction n generalizing done with
  | zero => rfl
  | succ n ih =>
    have hsucc : steps (n + 1) = '\\' :: ' ' :: '\'' :: '\'' :: ')' :: steps n := by
      rw [steps, List.replicate_succ, List.flatten_cons, ← steps]
      rfl
    rw [hsucc]
    simp only [List.cons_append]
    rw [foldInside_cons (by decide) (by decide), foldInside_cons (by decide) (by decide),
      foldInside_cons (by decide) (by decide), foldInside_cons (by decide) (by decide),
      foldInside_cons (by decide) (by decide)]
    show foldInside inCall _ _ = _
    rw [ih]
    simp

/-- The backslash in front of the line break escapes the quote behind it. -/
theorem foldInside_tread (done s : Text) :
    foldInside inCall done ('\\' :: '\n' :: ('\'' :: '\'' :: ')' :: s))
      = (done.reverse ++ ['\\', ' ', '\'', '\'', ')'], s) := by
  rw [foldInside_cons (by decide) (by decide), foldInside_break (by decide) rfl,
    foldInside_cons (by decide) (by decide), foldInside_cons (by decide) (by decide),
    foldInside_close (by decide) (by decide)]
  simp

/-- At the end of the script the call is closed, and its last backslash is dropped. -/
theorem foldInside_end (done : Text) :
    foldInside inCall done ['\\'] = (done.reverse ++ ['\'', ')'], []) := by
  rw [foldInside_cons (by decide) (by decide), foldInside]
  simp [Balance.feed, Balance.closeOpen, inCall]

theorem foldInside_landing (done s : Text) :
    foldInside inCall done ('\'' :: ')' :: s) = (done.reverse ++ ['\'', ')'], s) := by
  rw [foldInside_cons (by decide) (by decide), foldInside_close (by decide) (by decide)]
  simp

/-- Folding a quoted call folds what stands behind the folded lines. -/
theorem foldCallNewlines_climbed {n : Nat} {back inside rest : Text}
    (h : ∀ done, foldInside inCall done back = (done.reverse ++ inside, rest)) :
    foldCallNewlines (climbed n ++ back) = climbed n ++ (inside ++ foldCalls true rest) := by
  have hsplit : climbed n ++ back
      = '\'' :: (Verb.insertText.name ++ '(' :: '\'' :: (steps n ++ back)) := by simp [climbed]
  have hcall : callAt? true (Verb.insertText.name ++ '(' :: '\'' :: (steps n ++ back))
      = some ⟨.insertText, [], '\'' :: (steps n ++ back)⟩ :=
    callAt?_eq_some_iff.2 ⟨rfl, by simp, by simp [CallHead.lead]⟩
  have hinside : foldInside { parens := 1 } [] ('\'' :: (steps n ++ back))
      = ('\'' :: (steps n ++ inside), rest) := by
    rw [foldInside_cons (by decide) (by decide)]
    show foldInside inCall _ _ = _
    rw [foldInside_steps, h]
    simp
  rw [foldCallNewlines, hsplit, foldCalls_cons (by decide) (callAt?_eq_none (by decide) _)]
  show '\'' :: foldCalls true _ = _
  obtain ⟨c, name, hname, hc, _⟩ := isName_name .insertText
  rw [hname, List.cons_append] at hcall ⊢
  have hcomment : c ≠ '#' := by
    rintro rfl
    exact absurd hc (by decide)
  rw [foldCalls_call hcomment hcall, hinside]
  simp [CallHead.lead, climbed, hname]

/-! ## Rounds on stairs -/

theorem climbed_succ (n : Nat) :
    climbed (n + 1) = climbed n ++ ['\\', ' ', '\'', '\'', ')'] := by
  simp [climbed, steps, List.replicate_succ']

theorem foldCallNewlines_stairs_succ (n m : Nat) :
    foldCallNewlines (Text.unlines (stairs n (m + 1))) = Text.unlines (stairs (n + 1) m) := by
  have htail : Text.unlines (tread :: List.replicate m tread)
      = '\'' :: '\'' :: ')' :: Text.unlines (['\\'] :: List.replicate m tread) :=
    Text.unlines_append ['\'', '\'', ')'] ['\\'] _
  -- The call is closed by the first tread, so the others are not part of it.
  have hsplit : Text.unlines (stairs n (m + 1)) = climbed n ++ ('\\' :: '\n' ::
      ('\'' :: '\'' :: ')' :: Text.unlines (['\\'] :: List.replicate m tread))) := by
    rw [stairs, List.replicate_succ, Text.unlines_cons_cons, htail]
    simp
  have hrest : foldCalls true (Text.unlines (['\\'] :: List.replicate m tread))
      = Text.unlines (['\\'] :: List.replicate m tread) := by
    have htread : ∀ c ∈ tread, c ≠ '#' ∧ Text.isIdentStart c = false := by
      intro c hc
      simp only [tread, List.mem_cons, List.not_mem_nil, or_false] at hc
      rcases hc with rfl | rfl | rfl | rfl <;> decide
    refine foldCalls_eq fun c hc => ?_
    rcases Text.mem_unlines hc with rfl | ⟨l, hl, hc⟩
    · decide
    · rcases List.mem_cons.1 hl with rfl | hl
      · rw [List.mem_singleton.1 hc]
        decide
      · rw [List.eq_of_mem_replicate hl] at hc
        exact htread c hc
  rw [hsplit, foldCallNewlines_climbed fun done => foldInside_tread done _, hrest,
    ← List.append_assoc, ← climbed_succ, ← Text.unlines_append]
  rfl

theorem foldCallNewlines_stairs_zero (n : Nat) :
    foldCallNewlines (Text.unlines (stairs n 0)) = climbed n ++ ['\'', ')'] := by
  have hone : Text.unlines (stairs n 0) = climbed n ++ ['\\'] := Text.unlines_singleton _
  have hend : foldCalls true [] = [] := by rw [foldCalls]
  rw [hone, foldCallNewlines_climbed foldInside_end, hend, List.append_nil]

theorem foldCallNewlines_landing (n : Nat) : foldCallNewlines (landing n) = landing n := by
  have hquote : foldCalls true ['\''] = ['\''] := foldCalls_eq fun c hc => by
    rw [List.mem_singleton.1 hc]
    decide
  rw [landing, foldCallNewlines_climbed fun done => foldInside_landing done _, hquote]
  rfl

/-- The quote behind the folded lines opens a literal, which is closed at the end of the line. -/
theorem closeQuotes_climbed (n : Nat) : closeQuotes (climbed n ++ ['\'', ')']) = landing n := by
  have hcall : mentionsCall (climbed n ++ ['\'', ')']) = true := by
    have hverb : callAt? true (Verb.insertText.name ++ '(' :: '\'' :: (steps n ++ ['\'', ')']))
        = some ⟨.insertText, [], '\'' :: (steps n ++ ['\'', ')'])⟩ :=
      callAt?_eq_some_iff.2 ⟨rfl, by simp, by simp [CallHead.lead]⟩
    obtain ⟨c, name, hname, _⟩ := isName_name .insertText
    rw [hname, List.cons_append] at hverb
    have hmention :
        mentionsCall (c :: (name ++ '(' :: '\'' :: (steps n ++ ['\'', ')']))) = true := by
      simp [mentionsCall, anyCall, hverb]
    have hquote := mentionsCall_append_left (s := ['\'']) (fun d hd => by
      rw [← Option.some.inj hd]
      decide) hmention
    simpa [climbed, hname] using hquote
  have hscan : Balance.scan (climbed n ++ ['\'', ')']) = { quote := some '\'' } := by
    rw [scan_climbed_append]
    decide
  simp only [closeQuotes, hcall, hscan, Balance.inQuote, Balance.closeOpen, landing]
  simp

/-- A round folds one more line. -/
theorem runOnce_stairs_succ (n m : Nat) :
    Pipeline.full.runOnce (Text.unlines (stairs n (m + 1))) = Text.unlines (stairs (n + 1) m) := by
  have hinert : ∀ l ∈ stairs (n + 1) m, IsInert l := fun l hl => isInert_of_mem_stairs hl
  have hmap := map_closeQuotes_eq fun l hl => (hinert l hl).closesLiterals
  rw [runOnce_unlines (fun l hl => (isInert_of_mem_stairs hl).isUntouched.isTidy)
    (foldCallNewlines_stairs_succ n m)
    (Text.lines_unlines fun l hl => (hinert l hl).isLogicalLine)
    (by rw [hmap]; exact fun l hl => (hinert l hl).isUntouched), hmap]

/-- When nothing is left to fold, a round closes the call. -/
theorem runOnce_stairs_zero (n : Nat) :
    Pipeline.full.runOnce (Text.unlines (stairs n 0)) = landing n := by
  have hnewline : '\n' ∉ climbed n ++ ['\'', ')'] := by
    have hchars : '\n' ∉ stairChars := by decide +kernel
    intro h
    rcases List.mem_append.1 h with h | h
    · exact hchars (mem_climbed h)
    · exact absurd h (by decide)
  have hfold : foldCallNewlines (Text.unlines (stairs n 0))
      = Text.unlines [climbed n ++ ['\'', ')']] := by
    rw [foldCallNewlines_stairs_zero, Text.unlines_singleton]
  rw [runOnce_unlines (fun l hl => (isInert_of_mem_stairs hl).isUntouched.isTidy) hfold
    (by rw [Text.unlines_singleton, Text.lines_of_newline_not_mem hnewline (by simp)])
    (by simpa [closeQuotes_climbed] using (isInert_landing n).isUntouched)]
  simp [closeQuotes_climbed]

theorem runOnce_landing (n : Nat) : Pipeline.full.runOnce (landing n) = landing n := by
  have huntouched : ∀ l ∈ [landing n], IsUntouched l := by
    simpa using (isInert_landing n).isUntouched
  have hfold : foldCallNewlines (Text.unlines [landing n]) = Text.unlines [landing n] := by
    rw [Text.unlines_singleton, foldCallNewlines_landing]
  have hround := runOnce_unlines_eq huntouched hfold
  rwa [Text.unlines_singleton] at hround

/-! ## The number of rounds -/

/-- Each round folds a line, as long as there is one. -/
theorem iterate_runOnce_stairs {n m k : Nat} (hk : k ≤ m) :
    Pipeline.full.runOnce^[k] (Text.unlines (stairs n m))
      = Text.unlines (stairs (n + k) (m - k)) := by
  induction k with
  | zero => rfl
  | succ k ih =>
    obtain ⟨j, hj⟩ : ∃ j, m - k = j + 1 := ⟨m - k - 1, by omega⟩
    have hleft : m - (k + 1) = j := by omega
    rw [Function.iterate_succ_apply', ih (by omega), hj, runOnce_stairs_succ, hleft, Nat.add_assoc]

/-- One round more than there are lines to fold, and nothing changes any more. -/
theorem iterate_runOnce_stairs_of_lt {n m k : Nat} (hk : m < k) :
    Pipeline.full.runOnce^[k] (Text.unlines (stairs n m)) = landing (n + m) := by
  obtain ⟨j, hj⟩ := Nat.exists_eq_add_of_lt hk
  have hsum : k = j + (m + 1) := by omega
  rw [hsum, Function.iterate_add_apply, Function.iterate_succ_apply',
    iterate_runOnce_stairs (Nat.le_refl m), Nat.sub_self, runOnce_stairs_zero,
    Function.iterate_fixed (runOnce_landing _)]

theorem lines_unlines_stairs (n m : Nat) : Text.lines (Text.unlines (stairs n m)) = stairs n m :=
  Text.lines_unlines fun _ hl => (isInert_of_mem_stairs hl).isLogicalLine

theorem unlines_stairs_ne_landing (n m k : Nat) : Text.unlines (stairs n m) ≠ landing k := by
  intro h
  have hlanding : Text.lines (Text.unlines [landing k]) = [landing k] :=
    Text.lines_unlines fun l hl => by
      rw [List.mem_singleton.1 hl]
      exact (isInert_landing k).isLogicalLine
  have hlines := congrArg Text.lines h
  rw [lines_unlines_stairs, ← Text.unlines_singleton (landing k), hlanding, stairs] at hlines
  have hlast := congrArg List.getLast? (List.cons.inj hlines).1
  simp [landing] at hlast

/-- A script in which `m` lines are to be folded into one call, one in each round. -/
def staircase (m : Nat) : Text := Text.unlines (stairs 0 m)

/-- On a staircase of `m` steps the rounds change something `m + 1` times, and then no more. -/
theorem iterate_runOnce_staircase_iff (m r : Nat) :
    Pipeline.full.runOnce^[r + 1] (staircase m) = Pipeline.full.runOnce^[r] (staircase m) ↔
      m < r := by
  rw [staircase]
  by_cases hlt : m < r
  · rw [iterate_runOnce_stairs_of_lt hlt, iterate_runOnce_stairs_of_lt (Nat.lt_succ_of_lt hlt)]
    exact iff_of_true rfl hlt
  · refine iff_of_false (fun h => ?_) hlt
    have hle := Nat.le_of_not_lt hlt
    rw [iterate_runOnce_stairs hle] at h
    by_cases hnext : r + 1 ≤ m
    · rw [iterate_runOnce_stairs hnext] at h
      have hsteps := congrArg Text.lines h
      rw [lines_unlines_stairs, lines_unlines_stairs] at hsteps
      have hlength := congrArg List.length hsteps
      simp only [stairs, List.length_cons, List.length_replicate] at hlength
      omega
    · rw [iterate_runOnce_stairs_of_lt (Nat.lt_of_not_le hnext)] at h
      exact unlines_stairs_ne_landing _ _ _ h.symm

/-- A staircase is normalized for good just if it has less steps than there are rounds. -/
theorem normalize_normalize_staircase_iff (m : Nat) :
    normalize (normalize (staircase m)) = normalize (staircase m) ↔ m < Pipeline.maxRounds := by
  rw [normalize_eq_iterate, normalize_eq_iterate, staircase]
  by_cases hm : m < Pipeline.maxRounds
  · rw [iterate_runOnce_stairs_of_lt hm, Function.iterate_fixed (runOnce_landing _)]
    exact iff_of_true rfl hm
  · refine iff_of_false (fun h => ?_) hm
    rw [iterate_runOnce_stairs (Nat.le_of_not_lt hm)] at h
    by_cases hagain : m - Pipeline.maxRounds < Pipeline.maxRounds
    · rw [iterate_runOnce_stairs_of_lt hagain] at h
      exact unlines_stairs_ne_landing _ _ _ h.symm
    · rw [iterate_runOnce_stairs (Nat.le_of_not_lt hagain)] at h
      have hlines := congrArg Text.lines h
      rw [lines_unlines_stairs, lines_unlines_stairs] at hlines
      have hlength := congrArg List.length hlines
      simp only [stairs, List.length_cons, List.length_replicate, Pipeline.maxRounds] at hlength
      simp only [Pipeline.maxRounds] at hm hagain
      omega

/-- A normalized script is left alone by a further round and by normalizing it again just if it has
    settled before the rounds are used up. No number of rounds is enough for all scripts: a
    staircase of `m` steps needs `m + 1` of them. -/
theorem normalize_settled_iff (s : Text) (m r : Nat) :
    (Pipeline.full.runOnce (normalize s) = normalize s ∧ normalize (normalize s) = normalize s ↔
      Settles s) ∧
    (Pipeline.full.runOnce^[r + 1] (staircase m) = Pipeline.full.runOnce^[r] (staircase m) ↔
      m < r) ∧
    (normalize (normalize (staircase m)) = normalize (staircase m) ↔ m < Pipeline.maxRounds) := by
  refine ⟨?_, iterate_runOnce_staircase_iff m r, normalize_normalize_staircase_iff m⟩
  rw [← runOnce_normalize_iff]
  refine ⟨fun h => h.1, fun h => ⟨h, ?_⟩⟩
  rw [normalize_eq_iterate (normalize s), Function.iterate_fixed h]

/-- Eight steps are one too many. -/
theorem normalize_normalize_staircase_eight :
    normalize (normalize (staircase 8)) ≠ normalize (staircase 8) := by
  rw [Ne, normalize_normalize_staircase_iff]
  decide

end Scribe.Repair
