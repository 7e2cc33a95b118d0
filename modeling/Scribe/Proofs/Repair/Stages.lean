import Scribe.Repair.Pipeline
import Scribe.Proofs.Repair.ZoneSteps
import Scribe.Proofs.Script.Call

set_option autoImplicit false

/-! # The stages of a round

A round of repairs mends the text, makes statements of its lines and arranges them. What a script is
normalized to comes out of a last round, so every property that a round gives to its result is a
property of normalized scripts. Apart from the rewriting of single lines, the repairs of the last
two stages only move, drop and add lines, and the lines they add are few and simple. -/

namespace Scribe.Repair

open Balance (IsClosed IsPlain)
open Text (IsLogicalLine)

/-! ## A round -/

/-- The repairs that see the script as one text. -/
def mend (s : Text) : Text :=
  canonicalizeEquations (closeUnterminatedQuotes (foldCallNewlines
    (joinMultilineLiterals (stripCodeFences (canonicalizeWhitespace s)))))

/-- The repairs that change lines one by one. -/
def makeStatements (lines : List Text) : List Text :=
  promoteMathText (splitConcatenatedCalls lines)

/-- The repairs that arrange lines. -/
def arrange (lines : List Text) : List Text :=
  placeAfterZone (stripChoiceLeadingSpace (pruneTabIndicators (isolateScoreLines
    (closeOpenContainers (dropBreakAfterExit (compactContainerBreaks (splitDualContent
      (orderPlaceholders lines))))))))

/-- The lines that a round makes of a script. -/
def roundLines (s : Text) : List Text := arrange (makeStatements (Draft.cut (mend s)))

theorem runOnce_eq (s : Text) : Pipeline.full.runOnce s = Text.unlines (roundLines s) := by
  simp only [Pipeline.runOnce, Pipeline.full, Pass.all, List.foldl_cons, List.foldl_nil,
    Pass.apply, Draft.toText, Draft.toLines, roundLines, arrange, makeStatements, mend]

theorem settle_eq_apply {f : Text → Text} {s : Text} (hs : ∃ t, s = f t) (n : Nat) :
    ∃ t, Pipeline.settle f n s = f t := by
  induction n generalizing s with
  | zero => exact hs
  | succ n ih =>
    rw [Pipeline.settle]
    split
    · exact hs
    · exact ih ⟨s, rfl⟩

/-- A normalized script comes out of a round. -/
theorem normalize_eq_unlines (s : Text) : ∃ t, normalize s = Text.unlines (roundLines t) := by
  have hround : ∃ t, Pipeline.full.runOnce s = Pipeline.full.runOnce t := ⟨s, rfl⟩
  obtain ⟨t, ht⟩ := settle_eq_apply hround (Pipeline.maxRounds - 1)
  rw [normalize, Pipeline.run, ht, runOnce_eq]
  exact ⟨t, rfl⟩

/-! ## Lines that the repairs write -/

/-- A line that a repair may add: a call without arguments, or with one literal. -/
inductive IsWritten : Text → Prop where
  | bare (verb : Verb) : IsWritten (verb.name ++ ['(', ')'])
  | literal (verb : Verb) (value : Text) : IsWritten (renderCall verb value)

theorem isWritten_enterLine : IsWritten enterLine := .bare .insertEnter

theorem isWritten_spaceLine : IsWritten spaceLine := .bare .insertSpace

theorem isWritten_openBoxLine : IsWritten openBoxLine := .bare .insertBox

theorem isWritten_exitBoxLine : IsWritten exitBoxLine := .bare .exitBox

theorem isWritten_alignRightLine : IsWritten alignRightLine := .bare .setAlignRightNextLine

theorem isWritten_alignJustifyLine : IsWritten alignJustifyLine := .bare .setAlignJustifyNextLine

theorem isWritten_focusLine (z : Zone) : IsWritten z.focusLine := .literal .focusPlaceholder _

/-- A call that starts with a name and ends with a parenthesis is a logical line. -/
theorem isLogicalLine_call (verb : Verb) {inside : Text} (h : '\n' ∉ inside) :
    IsLogicalLine (verb.name ++ '(' :: inside ++ [')']) := by
  have hnl : '\n' ∉ verb.name := fun hn =>
    absurd ((isName_name verb).isIdentChar_of_mem hn) (by decide)
  exact ⟨by simp, trim_call verb ('(' :: inside), by simp [hnl, h]⟩

theorem IsWritten.isLogicalLine {line : Text} (h : IsWritten line) : IsLogicalLine line := by
  cases h with
  | bare verb =>
    have h := isLogicalLine_call verb List.not_mem_nil
    rwa [List.append_assoc] at h
  | literal verb value =>
    exact isLogicalLine_call verb (Literal.newline_not_mem_quote value)

/-- A written line leaves nothing open. -/
theorem IsWritten.isClosed {line : Text} (h : IsWritten line) : IsClosed line := by
  cases h with
  | bare verb => exact (isClosed_name verb).append Balance.isClosed_nil.parenthesised
  | literal verb value => exact isClosed_renderCall verb value

/-! ## Lines that a repair keeps -/

/-- Every line that a repair gives is one that it was given, or one that it may add. -/
def Conserves (pass : List Text → List Text) : Prop :=
  ∀ lines, ∀ line ∈ pass lines, line ∈ lines ∨ IsWritten line

theorem Conserves.comp {f g : List Text → List Text} (hf : Conserves f) (hg : Conserves g) :
    Conserves fun lines => f (g lines) := by
  intro lines line hline
  rcases hf _ line hline with h | h
  · exact hg _ line h
  · exact Or.inr h

theorem conserves_map {f : Text → Text} (hf : ∀ line, f line = line ∨ IsWritten (f line)) :
    Conserves fun lines => lines.map f := by
  intro lines line hline
  obtain ⟨l, hl, rfl⟩ := List.mem_map.1 hline
  rcases hf l with h | h
  · rw [h]
    exact Or.inl hl
  · exact Or.inr h

theorem conserves_promoteMathText : Conserves promoteMathText := by
  refine conserves_map fun line => ?_
  unfold promoteLine
  split
  · split
    · exact Or.inr (.literal _ _)
    · exact Or.inl rfl
  · exact Or.inl rfl

theorem conserves_stripChoiceLeadingSpace : Conserves stripChoiceLeadingSpace := by
  refine conserves_map fun line => ?_
  unfold stripChoice
  split
  · split
    · exact Or.inr (.literal _ _)
    · exact Or.inl rfl
  · exact Or.inl rfl

theorem conserves_pruneTabIndicators : Conserves pruneTabIndicators := by
  intro lines line hline
  induction lines with
  | nil => exact Or.inl hline
  | cons l lines ih =>
    rw [pruneTabIndicators] at hline
    rcases List.mem_cons.1 hline with rfl | hline
    · split
      · exact Or.inr isWritten_spaceLine
      · exact Or.inl List.mem_cons_self
    · rcases ih hline with h | h
      · exact Or.inl (List.mem_cons_of_mem _ h)
      · exact Or.inr h

theorem mem_of_mem_dropBreaks {written : List Text} {line : Text} (h : line ∈ dropBreaks written) :
    line ∈ written := (List.dropWhile_sublist _).mem h

theorem mem_of_mem_trimBreaks {lines : List Text} {line : Text} (h : line ∈ trimBreaks lines) :
    line ∈ lines := List.mem_reverse.1 (mem_of_mem_dropBreaks (List.mem_reverse.1 h))

/-! ## Repairs that write lines last first -/

section Written

variable {lines : List Text}

/-- Every line written so far is one of the script or one that a repair may add. -/
def WrittenFrom (lines written : List Text) : Prop :=
  ∀ line ∈ written, line ∈ lines ∨ IsWritten line

theorem writtenFrom_nil : WrittenFrom lines [] := fun _ h => absurd h List.not_mem_nil

theorem WrittenFrom.cons {written : List Text} (h : WrittenFrom lines written) {line : Text}
    (hline : line ∈ lines ∨ IsWritten line) : WrittenFrom lines (line :: written) := by
  intro l hl
  rcases List.mem_cons.1 hl with rfl | hl
  · exact hline
  · exact h l hl

theorem WrittenFrom.append {a b : List Text} (ha : WrittenFrom lines a)
    (hb : WrittenFrom lines b) : WrittenFrom lines (a ++ b) := by
  intro l hl
  rcases List.mem_append.1 hl with hl | hl
  · exact ha l hl
  · exact hb l hl

theorem WrittenFrom.subset {a b : List Text} (hb : WrittenFrom lines b) (h : ∀ l ∈ a, l ∈ b) :
    WrittenFrom lines a := fun l hl => hb l (h l hl)

theorem WrittenFrom.dropBreaks {written : List Text} (h : WrittenFrom lines written) :
    WrittenFrom lines (Repair.dropBreaks written) := h.subset fun _ => mem_of_mem_dropBreaks

theorem writtenFrom_replicate {line : Text} (hline : IsWritten line) (n : Nat) :
    WrittenFrom lines (List.replicate n line) := by
  intro l hl
  rw [List.eq_of_mem_replicate hl]
  exact Or.inr hline

end Written

theorem conserves_compactContainerBreaks : Conserves compactContainerBreaks := by
  intro lines line hline
  suffices h : WrittenFrom lines (lines.foldl compactStep ({}, [])).2 from
    h line (List.mem_reverse.1 hline)
  refine List.foldlRecOn lines _
    (motive := fun (state : _ × List Text) => WrittenFrom lines state.2) writtenFrom_nil ?_
  rintro ⟨nesting, written⟩ h l hl
  simp only [compactStep]
  split
  · split
    · exact h
    · exact h.cons (Or.inr isWritten_enterLine)
  · refine WrittenFrom.cons ?_ (Or.inl hl)
    split
    · exact h.dropBreaks
    · exact h

theorem conserves_dropBreakAfterExit : Conserves dropBreakAfterExit := by
  intro lines line hline
  suffices h : WrittenFrom lines (lines.foldl exitStep []) from h line (List.mem_reverse.1 hline)
  refine List.foldlRecOn lines _ (motive := WrittenFrom lines) writtenFrom_nil ?_
  intro written h l hl
  unfold exitStep
  split
  · exact h
  · exact h.cons (Or.inl hl)

theorem WrittenFrom.closeDepth {lines written : List Text} (h : WrittenFrom lines written)
    (depth : Nat) : WrittenFrom lines (Repair.closeDepth depth written) := by
  unfold Repair.closeDepth
  split
  · exact h
  · exact (writtenFrom_replicate isWritten_exitBoxLine _).append h.dropBreaks

theorem conserves_closeOpenContainers : Conserves closeOpenContainers := by
  intro lines line hline
  suffices h : WrittenFrom lines (lines.foldl closeStep (0, [])).2 from
    h.closeDepth _ line (List.mem_reverse.1 hline)
  refine List.foldlRecOn lines _
    (motive := fun (state : _ × List Text) => WrittenFrom lines state.2) writtenFrom_nil ?_
  rintro ⟨depth, written⟩ h l hl
  simp only [closeStep]
  split
  · exact h.cons (Or.inl hl)
  · exact h.cons (Or.inl hl)
  · exact (h.closeDepth depth).cons (Or.inl hl)
  · exact (h.closeDepth depth).cons (Or.inl hl)
  · exact h.cons (Or.inl hl)

theorem WrittenFrom.writeScore {lines written : List Text} (h : WrittenFrom lines written)
    (points : Nat) : WrittenFrom lines (Repair.writeScore points written) := by
  simp only [Repair.writeScore]
  refine WrittenFrom.cons (WrittenFrom.cons ?_ (Or.inr isWritten_alignRightLine))
    (Or.inr (.literal _ _))
  split
  · exact writtenFrom_nil
  · have hsub (p : Text → Bool) : WrittenFrom lines (written.dropWhile p) :=
      h.subset fun _ hl => (List.dropWhile_sublist p).mem hl
    split
    · exact hsub _
    · exact (hsub _).cons (Or.inr isWritten_enterLine)

theorem conserves_isolateScoreLines : Conserves isolateScoreLines := by
  intro lines line hline
  suffices h : WrittenFrom lines (lines.foldl scoreStep (.idle, [])).2 from
    h line (List.mem_reverse.1 hline)
  refine List.foldlRecOn lines _
    (motive := fun (state : _ × List Text) => WrittenFrom lines state.2) writtenFrom_nil ?_
  rintro ⟨owed, written⟩ h l hl
  simp only [scoreStep]
  split
  · exact h.writeScore _
  · split
    · exact h.cons (Or.inr isWritten_enterLine)
    · exact h
    · exact h.cons (Or.inl hl)
    · exact h.cons (Or.inl hl)
    · exact h.cons (Or.inl hl)
    · exact (h.cons (Or.inr isWritten_enterLine)).cons (Or.inl hl)
    · exact h.cons (Or.inl hl)

/-! ## The walk over the zones -/

section Walk

variable {lines : List Text}

theorem ZoneWalk.IsAdded.isWritten {line : Text} (h : ZoneWalk.IsAdded line) : IsWritten line := by
  rcases h with rfl | rfl | ⟨z, rfl⟩
  · exact isWritten_exitBoxLine
  · exact isWritten_openBoxLine
  · exact isWritten_focusLine z

theorem WrittenFrom.of_adds {old new : List Text} (h : WrittenFrom lines old)
    (hadds : ZoneWalk.Adds old new) : WrittenFrom lines new := by
  obtain ⟨added, rfl, hadded⟩ := hadds
  exact WrittenFrom.append (fun l hl => Or.inr (hadded l hl).isWritten) h

theorem WrittenFrom.of_extends {dual : Bool} {line : Text} {old new : List Text}
    (h : WrittenFrom lines old) (hextends : ZoneWalk.Extends dual line old new)
    (hline : line ∈ lines) : WrittenFrom lines new := by
  cases hextends with
  | leftOut hadds _ => exact h.of_adds hadds
  | kept hadds _ => exact (h.of_adds hadds).cons (Or.inl hline)
  | opened hadds _ =>
    exact ((h.of_adds hadds).cons (Or.inl hline)).cons (Or.inr (isWritten_focusLine _))
  | justified hold _ hadds _ =>
    subst hold
    have hearlier : WrittenFrom lines _ := h.subset fun _ hl => List.mem_cons_of_mem _ hl
    exact ((hearlier.of_adds hadds).cons (h _ List.mem_cons_self)).cons (Or.inl hline)

end Walk

theorem conserves_orderPlaceholders : Conserves orderPlaceholders := by
  intro lines line hline
  have hwalk (dual : Bool) (w : ZoneWalk) (ls : List Text) (hls : ∀ l ∈ ls, l ∈ lines)
      (hw : WrittenFrom lines w.written) : WrittenFrom lines (w.walk dual ls).written := by
    induction ls generalizing w with
    | nil => exact hw
    | cons l ls ih =>
      exact ih _ (fun l hl => hls l (List.mem_cons_of_mem _ hl))
        (hw.of_extends (w.extends_step dual l ls) (hls l List.mem_cons_self))
  exact hwalk _ {} lines (fun _ hl => hl) writtenFrom_nil line (List.mem_reverse.1 hline)

/-! ## Question blocks -/

theorem splitQuestion_append (block : List Text) :
    (splitQuestion block).1 ++ (splitQuestion block).2 = block := List.take_append_drop _ _

/-- The pieces of a header block are pieces of the script, in order; only the inside request
    between the first two is left out. -/
theorem HeaderBlock.exists_of_ofLines? {lines : List Text} {b : HeaderBlock}
    (h : HeaderBlock.ofLines? lines = some b) :
    ∃ request, (Line.classify request).zone? = some .inside ∧
      lines = b.front ++ request :: (b.block ++ b.items) ∧
      ∀ line ∈ b.block, endsBlock line = false := by
  unfold ofLines? at h
  simp only at h
  split at h
  · simp at h
  · next header more hmore =>
    split at h
    · simp at h
    · next request rest hrest =>
      split at h
      · cases h
        refine ⟨request, ?_, ?_, fun line hline => ?_⟩
        · have hhead := List.head?_dropWhile_not
            (fun line => !(Line.classify line).zone? == some .inside) more
          rw [hrest] at hhead
          simpa using hhead
        · -- The block is cut twice, and what either cut leaves behind it makes up its items.
          have hprefix : (rest.takeWhile fun line => !endsBlock line).takeWhile
              (fun line => !insertsListItem line) <+: rest :=
            (List.takeWhile_prefix _).trans (List.takeWhile_prefix _)
          obtain ⟨items, hitems⟩ := hprefix
          have hdrop := congrArg (List.drop ((rest.takeWhile fun line =>
            !endsBlock line).takeWhile fun line => !insertsListItem line).length) hitems
          rw [List.drop_left] at hdrop
          simp only [← hdrop, hitems, List.append_assoc, List.cons_append]
          rw [← hrest, List.takeWhile_append_dropWhile, ← hmore, List.takeWhile_append_dropWhile]
        · have h := List.all_eq_true.1 List.all_takeWhile _ ((List.takeWhile_sublist _).mem hline)
          simpa using h
      · simp at h

theorem conserves_splitDualContent : Conserves splitDualContent := by
  intro lines line hline
  unfold splitDualContent at hline
  split at hline
  · exact Or.inl hline
  · cases hb : HeaderBlock.ofLines? lines with
    | none => exact Or.inl (by simpa [hb] using hline)
    | some b =>
      obtain ⟨request, _, hlines, _⟩ := HeaderBlock.exists_of_ofLines? hb
      have hblock : ∀ l ∈ b.block, l ∈ lines := fun l hl => by simp [hlines, hl]
      have hquestion := splitQuestion_append b.block
      rw [hb, Option.bind_some] at hline
      simp only [HeaderBlock.split?] at hline
      split at hline
      · simp only [Option.getD_some, List.mem_append, List.mem_cons] at hline
        rcases hline with (((h | rfl | h) | rfl | h) | h) | rfl | rfl | h
        · exact Or.inl (by simp [hlines, h])
        · exact Or.inr isWritten_openBoxLine
        · exact Or.inl (hblock _ (by rw [← hquestion]; exact List.mem_append_left _ h))
        · exact Or.inr isWritten_exitBoxLine
        · have h := (List.mem_filter.1 h).1
          exact Or.inl (hblock _ (by rw [← hquestion]; exact List.mem_append_right _ h))
        · split at h
          · rw [List.mem_singleton.1 h]
            exact Or.inr isWritten_enterLine
          · simp at h
        · exact Or.inr (isWritten_focusLine _)
        · exact Or.inr isWritten_alignJustifyLine
        · exact Or.inl (by simp [hlines, h])
      · exact Or.inl hline

/-! ## Segments -/

theorem cutAtTemplates_flatten (lines : List Text) :
    (cutAtTemplates lines).1 ++ (cutAtTemplates lines).2.flatten = lines := by
  induction lines with
  | nil => rfl
  | cons line lines ih =>
    simp only [cutAtTemplates]
    split
    · simp [ih]
    · simp [ih]

/-- The segments of a script make up the script. -/
theorem segments_flatten (lines : List Text) : (segments lines).flatten = lines := by
  have h := cutAtTemplates_flatten lines
  unfold segments
  split
  · next first more hcut =>
    rw [hcut] at h
    simpa using h
  · next hcut =>
    rw [hcut] at h
    rw [List.flatten_cons]
    exact h

theorem throughExit?_append {depth : Nat} {lines inner rest : List Text}
    (h : throughExit? depth lines = some (inner, rest)) : lines = inner ++ rest := by
  induction lines generalizing depth inner with
  | nil => simp [throughExit?] at h
  | cons line lines ih =>
    have hgo (depth : Nat) (hd : ((throughExit? depth lines).map fun r => (line :: r.1, r.2))
        = some (inner, rest)) : line :: lines = inner ++ rest := by
      obtain ⟨⟨i, r⟩, hir, heq⟩ := Option.map_eq_some_iff.1 hd
      cases heq
      rw [ih hir, List.cons_append]
    simp only [throughExit?] at h
    split at h
    · exact hgo _ h
    · split at h
      · cases h
        rfl
      · exact hgo _ h
    · simp at h
    · exact hgo _ h

theorem conserves_enterAfterZone : Conserves enterAfterZone := by
  intro lines line hline
  unfold enterAfterZone at hline
  split at hline
  · next i _ =>
    split at hline
    · next inner rest hthrough =>
      have hdrop := throughExit?_append hthrough
      simp only [List.mem_append, List.mem_cons] at hline
      rcases hline with (h | h) | rfl | h
      · exact Or.inl (List.mem_of_mem_take h)
      · exact Or.inl (List.mem_of_mem_drop (by rw [hdrop]; exact List.mem_append_left _ h))
      · exact Or.inr (isWritten_focusLine _)
      · exact Or.inl (List.mem_of_mem_drop (by rw [hdrop]; exact List.mem_append_right _ h))
    · simp only [List.mem_append, List.mem_cons, List.not_mem_nil, or_false] at hline
      rcases hline with h | rfl | rfl
      · exact Or.inl (mem_of_mem_trimBreaks h)
      · exact Or.inr isWritten_exitBoxLine
      · exact Or.inr (isWritten_focusLine _)
  · simp only [List.mem_append, List.mem_cons, List.not_mem_nil, or_false] at hline
    rcases hline with h | rfl | rfl | rfl
    · exact Or.inl (mem_of_mem_trimBreaks h)
    · exact Or.inr (isWritten_focusLine _)
    · exact Or.inr isWritten_exitBoxLine
    · exact Or.inr (isWritten_focusLine _)

theorem conserves_placeInSegment : Conserves placeInSegment := by
  intro segment line hline
  have hfilter (p : Text → Bool) : ∀ l ∈ segment.filter p, l ∈ segment := fun l hl =>
    (List.mem_filter.1 hl).1
  simp only [placeInSegment] at hline
  split at hline
  · rcases List.mem_append.1 hline with h | h
    · exact Or.inl (List.mem_of_mem_take h)
    · have h := List.mem_reverse.1 (List.mem_filter.1 h).1
      exact Or.inl (List.mem_reverse.1 ((List.takeWhile_sublist _).mem h))
  · split at hline
    · split at hline
      · rcases conserves_enterAfterZone _ line hline with h | h
        · exact Or.inl (hfilter _ _ h)
        · exact Or.inr h
      · exact Or.inl (hfilter _ _ hline)
    · exact Or.inl (hfilter _ _ hline)

theorem conserves_placeAfterZone : Conserves placeAfterZone := by
  intro lines line hline
  obtain ⟨segment, hsegment, hline⟩ := List.mem_flatMap.1 hline
  rcases conserves_placeInSegment segment line hline with h | h
  · left
    rw [← segments_flatten lines]
    exact List.mem_flatten_of_mem hsegment h
  · exact Or.inr h

/-- Arranging only moves, drops and adds lines. -/
theorem conserves_arrange : Conserves arrange :=
  conserves_placeAfterZone.comp <| conserves_stripChoiceLeadingSpace.comp <|
    conserves_pruneTabIndicators.comp <| conserves_isolateScoreLines.comp <|
    conserves_closeOpenContainers.comp <| conserves_dropBreakAfterExit.comp <|
    conserves_compactContainerBreaks.comp <| conserves_splitDualContent.comp
    conserves_orderPlaceholders

/-! ## Logical lines -/

theorem isPlain_of_isSeparator {c : Char} (h : (c == '+' || c == ';') = true) :
    IsPlain c ∧ Text.isIdentChar c = false := by
  rw [Bool.or_eq_true, beq_iff_eq, beq_iff_eq] at h
  rcases h with rfl | rfl <;> decide

/-- The parts of a logical line are logical lines. -/
theorem isLogicalLine_of_mem_splitJoinedCalls {line part : Text} (h : Text.IsLogicalLine line)
    (hpart : part ∈ splitJoinedCalls line) : Text.IsLogicalLine part := by
  unfold splitJoinedCalls at hpart
  simp only at hpart
  split at hpart
  · rwa [List.mem_singleton.1 hpart]
  · obtain ⟨hpart, hne⟩ := List.mem_filter.1 hpart
    obtain ⟨p, hp, rfl⟩ := List.mem_map.1 hpart
    obtain ⟨a, z, rfl, _⟩ :=
      Balance.exists_of_mem_splitFrom (fun _ hc => (isPlain_of_isSeparator hc).1) hp
    refine Text.isLogicalLine_trim (fun hn => h.newline_not_mem ?_) hne
    simp [hn]

theorem isLogicalLine_of_mem_cut {s line : Text} (h : line ∈ Draft.cut s) :
    Text.IsLogicalLine line := by
  obtain ⟨h, hne⟩ := List.mem_filter.1 h
  obtain ⟨l, hl, rfl⟩ := List.mem_map.1 h
  exact Text.isLogicalLine_trim (Text.newline_not_mem_of_mem_lines hl) hne

/-- The lines of a round are logical. -/
theorem isLogicalLine_of_mem_roundLines {s line : Text} (h : line ∈ roundLines s) :
    Text.IsLogicalLine line := by
  rcases conserves_arrange.comp conserves_promoteMathText _ line h with h | h
  · obtain ⟨l, hl, hline⟩ := List.mem_flatMap.1 h
    exact isLogicalLine_of_mem_splitJoinedCalls (isLogicalLine_of_mem_cut hl) hline
  · exact h.isLogicalLine

/-- The lines of a normalized script are those of a round. -/
theorem exists_lines_normalize (s : Text) : ∃ t, Text.lines (normalize s) = roundLines t := by
  obtain ⟨t, ht⟩ := normalize_eq_unlines s
  refine ⟨t, ?_⟩
  rw [ht, Text.lines_unlines fun _ hl => isLogicalLine_of_mem_roundLines hl]

end Scribe.Repair
