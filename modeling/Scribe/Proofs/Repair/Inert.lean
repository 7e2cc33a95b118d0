import Scribe.Proofs.Repair.ClosedLiterals
import Scribe.Proofs.Repair.JoinedCalls
import Scribe.Proofs.Repair.AfterZone

set_option autoImplicit false

/-! # Lines that the repairs leave alone

Where no line by itself gives a repair anything to do, and none of them bears on zones or
containers, the repairs change nothing, except where a call goes on in the next line. So a round on
such lines does what folding does, and no more. Among these lines are those that are no call, have
no separator in them and leave no literal open. -/

namespace Scribe.Repair

open Text (IsLogicalLine isWhite isGap)

/-- A line whose characters are no concern of the repairs that see the script as one text, except
    for folding and for the spelling of equations. -/
structure IsTidy (line : Text) : Prop where
  isLogicalLine : IsLogicalLine line
  lineEnd : ∀ c ∈ line, c ≠ '\r' ∧ c ≠ '\u2028' ∧ c ≠ '\u2029'
  isFence : isFence line = false
  closesLiterals : ClosesLiterals line

/-- A line without anything for a repair to do, taken by itself. -/
structure IsUntouched (line : Text) : Prop where
  isTidy : IsTidy line
  updateLiteral_eq :
    updateLiteral [.insertEquation, .insertLatexEquation] canonicalPrimes line = line
  splitJoinedCalls_eq : splitJoinedCalls line = [line]
  promoteLine_eq : promoteLine line = line
  isStructural : (Line.classify line).isStructural = false
  points? : (Line.classify line).points? = none
  insertsTab : insertsTab line = false
  stripChoice_eq : stripChoice line = line

section Lines

variable {lines : List Text}

/-! ## The text as a whole -/

theorem unifyLineEnds_eq {s : Text} (h : ∀ c ∈ s, c ≠ '\r' ∧ c ≠ '\u2028' ∧ c ≠ '\u2029') :
    unifyLineEnds s = s := by
  induction s with
  | nil => rfl
  | cons c s ih =>
    obtain ⟨hr, hline, hparagraph⟩ := h c List.mem_cons_self
    rw [unifyLineEnds]
    · rw [ih fun d hd => h d (List.mem_cons_of_mem _ hd)]
      simp [hr, hline, hparagraph]
    · exact fun _ he _ => hr he

theorem head?_unlines {line : Text} (hline : line ≠ []) (lines : List Text) :
    (Text.unlines (line :: lines)).head? = line.head? := by
  cases line with
  | nil => exact absurd rfl hline
  | cons c line =>
    cases lines with
    | nil => rw [Text.unlines_singleton]
    | cons next lines => rw [Text.unlines_cons_cons]; rfl

theorem isWhite_getLast?_unlines (h : ∀ l ∈ lines, IsLogicalLine l) {c : Char}
    (hc : (Text.unlines lines).getLast? = some c) : isWhite c = false := by
  induction lines with
  | nil => simp at hc
  | cons line lines ih =>
    have hline := h line List.mem_cons_self
    have hrest : ∀ l ∈ lines, IsLogicalLine l := fun l hl => h l (List.mem_cons_of_mem _ hl)
    cases lines with
    | nil =>
      rw [Text.unlines_singleton] at hc
      exact hline.isWhite_getLast? hc
    | cons next lines =>
      refine ih hrest ?_
      have hne : Text.unlines (next :: lines) ≠ [] := by
        have hnext := (h next (List.mem_cons_of_mem _ List.mem_cons_self)).ne_nil
        have hhead := head?_unlines hnext lines
        intro hnil
        rw [hnil, List.head?_nil, eq_comm, List.head?_eq_none_iff] at hhead
        exact hnext hhead
      rw [Text.unlines_cons_cons, List.getLast?_append, List.getLast?_cons_of_ne_nil hne] at hc
      cases hlast : (Text.unlines (next :: lines)).getLast? with
      | none => exact absurd (List.getLast?_eq_none_iff.1 hlast) hne
      | some d => rwa [hlast, Option.some_or] at hc

/-- Logical lines have no indentation. -/
theorem commonIndent_eq_zero (h : ∀ l ∈ lines, IsLogicalLine l) : commonIndent lines = 0 := by
  have hzero : ∀ n ∈ (lines.filter fun l => !l.isEmpty).map fun l => (l.takeWhile isGap).length,
      n = 0 := by
    intro n hn
    obtain ⟨l, hl, rfl⟩ := List.mem_map.1 hn
    cases l with
    | nil => rfl
    | cons c l =>
      have hc := (h _ (List.mem_filter.1 hl).1).isWhite_head? rfl
      have hgap : ¬isGap c = true := fun hg => by
        rw [isWhite_of_isGap hg] at hc
        exact absurd hc (by decide)
      rw [List.takeWhile_cons_of_neg hgap, List.length_nil]
  rw [commonIndent]
  generalize (lines.filter fun l => !l.isEmpty).map (fun l => (l.takeWhile isGap).length) = indents
    at hzero
  cases hmin : indents.min? with
  | none => rfl
  | some n => exact hzero n (List.min?_mem hmin)

theorem canonicalizeWhitespace_unlines (h : ∀ l ∈ lines, IsTidy l) :
    canonicalizeWhitespace (Text.unlines lines) = Text.unlines lines := by
  have hlogical : ∀ l ∈ lines, IsLogicalLine l := fun l hl => (h l hl).isLogicalLine
  have hends : unifyLineEnds (Text.unlines lines) = Text.unlines lines := by
    refine unifyLineEnds_eq fun c hc => ?_
    rcases Text.mem_unlines hc with rfl | ⟨l, hl, hc⟩
    · decide
    · exact (h l hl).lineEnd c hc
  have htrim : ∀ l ∈ lines, Text.trimEnd l = id l := fun l hl =>
    Text.trimEnd_eq_self fun c hc => (hlogical l hl).isWhite_getLast? hc
  have hdrop : (fun l : Text => l.drop 0) = id := rfl
  simp only [canonicalizeWhitespace]
  rw [hends, Text.lines_unlines hlogical, List.map_congr_left htrim, List.map_id,
    commonIndent_eq_zero hlogical, hdrop, List.map_id]
  refine Text.trim_eq_self (fun c hc => ?_) fun c hc => isWhite_getLast?_unlines hlogical hc
  cases lines with
  | nil => simp at hc
  | cons line lines =>
    have hline := hlogical line List.mem_cons_self
    rw [head?_unlines hline.ne_nil] at hc
    exact hline.isWhite_head? hc

theorem stripCodeFences_unlines (h : ∀ l ∈ lines, IsTidy l) :
    stripCodeFences (Text.unlines lines) = Text.unlines lines := by
  rw [stripCodeFences, Text.lines_unlines fun l hl => (h l hl).isLogicalLine,
    List.filter_eq_self.2 fun l hl => by rw [(h l hl).isFence]; rfl]

theorem anyCall_mono {p q : Verb → Bool} (hpq : ∀ verb, p verb = true → q verb = true)
    {free : Bool} {s : Text} (h : anyCall p free s = true) : anyCall q free s = true := by
  induction s generalizing free with
  | nil => exact h
  | cons c s ih =>
    simp only [anyCall, Bool.or_eq_true] at h ⊢
    rcases h with h | h
    · obtain ⟨head, hhead, hp⟩ := (Option.any_eq_true _ _).1 h
      exact Or.inl ((Option.any_eq_true _ _).2 ⟨head, hhead, hpq _ hp⟩)
    · exact Or.inr (ih h)

theorem joinOpenLines_eq (h : ∀ l ∈ lines, IsTidy l) : joinOpenLines none lines = lines := by
  induction lines with
  | nil => rfl
  | cons line lines ih =>
    have hclosed : (hasTextCall line && (Balance.scan line).inQuote) = false := by
      by_cases hcall : hasTextCall line = true
      · rw [(h line List.mem_cons_self).closesLiterals (anyCall_mono (fun _ _ => rfl) hcall),
          Bool.and_false]
      · simp [hcall]
    simp only [joinOpenLines, hclosed, Bool.false_eq_true, if_false,
      ih fun l hl => h l (List.mem_cons_of_mem _ hl)]

theorem joinMultilineLiterals_unlines (h : ∀ l ∈ lines, IsTidy l) :
    joinMultilineLiterals (Text.unlines lines) = Text.unlines lines := by
  rw [joinMultilineLiterals, Text.lines_unlines fun l hl => (h l hl).isLogicalLine,
    joinOpenLines_eq h]

theorem canonicalizeEquations_unlines (h : ∀ l ∈ lines, IsUntouched l) :
    canonicalizeEquations (Text.unlines lines) = Text.unlines lines := by
  have hline : ∀ l ∈ lines,
      updateLiteral [.insertEquation, .insertLatexEquation] canonicalPrimes l = id l :=
    fun l hl => (h l hl).updateLiteral_eq
  rw [canonicalizeEquations, Text.lines_unlines fun l hl => (h l hl).isTidy.isLogicalLine,
    List.map_congr_left hline, List.map_id]

/-! ## The lines one by one -/

theorem cut_unlines (h : ∀ l ∈ lines, IsTidy l) : Draft.cut (Text.unlines lines) = lines := by
  have htrim : ∀ l ∈ lines, Text.trim l = id l := fun l hl => (h l hl).isLogicalLine.trim_eq
  have hne : ∀ l ∈ lines, (!l.isEmpty) = true := fun l hl => by
    simpa using (h l hl).isLogicalLine.ne_nil
  rw [Draft.cut, Text.lines_unlines fun l hl => (h l hl).isLogicalLine, List.map_congr_left htrim,
    List.map_id, List.filter_eq_self.2 hne]

theorem makeStatements_eq (h : ∀ l ∈ lines, IsUntouched l) : makeStatements lines = lines := by
  have hsplit : splitConcatenatedCalls lines = lines := by
    induction lines with
    | nil => rfl
    | cons line lines ih =>
      rw [splitConcatenatedCalls, List.flatMap_cons,
        (h line List.mem_cons_self).splitJoinedCalls_eq, ← splitConcatenatedCalls,
        ih fun l hl => h l (List.mem_cons_of_mem _ hl),
        List.singleton_append]
  have hpromote : ∀ l ∈ lines, promoteLine l = id l := fun l hl => (h l hl).promoteLine_eq
  rw [makeStatements, hsplit, promoteMathText, List.map_congr_left hpromote, List.map_id]

/-! ## Layout -/

/-- A repair that writes every line behind the others gives the lines back. -/
theorem foldl_cons_eq {σ : Type} {step : σ × List Text → Text → σ × List Text} {state : σ}
    (h : ∀ l ∈ lines, ∀ written, step (state, written) l = (state, l :: written))
    (written : List Text) :
    lines.foldl step (state, written) = (state, lines.reverse ++ written) := by
  induction lines generalizing written with
  | nil => rfl
  | cons line lines ih =>
    rw [List.foldl_cons, h line List.mem_cons_self, ih fun l hl => h l (List.mem_cons_of_mem _ hl)]
    simp

/-- Without a template, zones are no concern of the walk. -/
theorem ZoneWalk.step_eq_write {w : ZoneWalk} (hw : w.template = none) {line : Text}
    (h : (Line.classify line).isStructural = false) (dual : Bool) (ahead : List Text) :
    w.step dual line ahead = w.write line := by
  have hcontent (literal : Text) : w.content literal line = w.write line := by
    simp [ZoneWalk.content, hw]
  unfold ZoneWalk.step
  split
  · next heq => exact absurd heq (Line.ne_of_isStructural h rfl)
  · next heq => exact absurd heq (Line.ne_of_isStructural h rfl)
  · next heq => exact absurd heq (Line.ne_of_isStructural h rfl)
  · next heq => exact absurd heq (Line.ne_of_isStructural h rfl)
  · exact hcontent _
  · exact hcontent _
  · rfl

theorem orderPlaceholders_eq (h : ∀ l ∈ lines, (Line.classify l).isStructural = false) :
    orderPlaceholders lines = lines := by
  have hwalk (dual : Bool) {w : ZoneWalk} (hw : w.template = none) :
      (ZoneWalk.walk dual w lines).written = lines.reverse ++ w.written := by
    induction lines generalizing w with
    | nil => rfl
    | cons line lines ih =>
      rw [ZoneWalk.walk, ZoneWalk.step_eq_write hw (h line List.mem_cons_self),
        ih (fun l hl => h l (List.mem_cons_of_mem _ hl)) (w := w.write line) hw]
      simp [ZoneWalk.write]
  rw [orderPlaceholders, hwalk _ rfl, List.append_nil, List.reverse_reverse]

theorem splitDualContent_eq (h : ∀ l ∈ lines, (Line.classify l).isStructural = false) :
    splitDualContent lines = lines := by
  have hheader : ∀ l ∈ lines, (!Line.classify l == .template (some .header)) = true := by
    intro l hl
    have hheader : Line.classify l ≠ .template (some .header) :=
      Line.ne_of_isStructural (h l hl) rfl
    simpa using hheader
  have hdrop :
      lines.dropWhile (fun line => !Line.classify line == .template (some .header)) = [] := by
    rw [← List.append_nil lines, List.dropWhile_append_of_pos hheader]
    rfl
  have hnone : HeaderBlock.ofLines? lines = none := by
    unfold HeaderBlock.ofLines?
    simp only
    split
    · rfl
    · next heq => simp [hdrop] at heq
  unfold splitDualContent
  rw [hnone]
  split <;> rfl

theorem compactContainerBreaks_eq (h : ∀ l ∈ lines, (Line.classify l).isStructural = false) :
    compactContainerBreaks lines = lines := by
  have hobserve : ∀ kind : Line, kind.isStructural = false → Nesting.observe {} kind = {} := by
    intro kind hkind
    cases kind with
    | focus p =>
      cases p with
      | zone z => exact absurd hkind (by simp [Line.isStructural])
      | custom marker => rfl
    | template t => rfl
    | opening verb => exact absurd hkind (by simp [Line.isStructural])
    | _ => rfl
  have hstep : ∀ l ∈ lines, ∀ written, compactStep ({}, written) l = ({}, l :: written) := by
    intro l hl written
    have hinside : Nesting.inside {} = false := rfl
    simp [compactStep, hinside, hobserve _ (h l hl)]
  rw [compactContainerBreaks, foldl_cons_eq hstep, List.append_nil, List.reverse_reverse]

theorem dropBreakAfterExit_eq (h : ∀ l ∈ lines, (Line.classify l).isStructural = false) :
    dropBreakAfterExit lines = lines := by
  have hexit : ∀ l ∈ lines, (Line.classify l).isExit = false :=
    fun l hl => Line.isExit_of_isStructural (h l hl)
  have hfold (written : List Text)
      (hlast : (written.head?.any fun last => (Line.classify last).isExit) = false) :
      lines.foldl exitStep written = lines.reverse ++ written := by
    -- The line written last is never an exit.
    clear h
    induction lines generalizing written with
    | nil => rfl
    | cons line lines ih =>
      have hline := hexit line List.mem_cons_self
      have hstep : exitStep written line = line :: written := by
        rw [exitStep, hlast, Bool.and_false, if_neg (by decide)]
      have hrest := ih (fun l hl => hexit l (List.mem_cons_of_mem _ hl)) (line :: written) hline
      rw [List.foldl_cons, hstep, hrest]
      simp
  rw [dropBreakAfterExit, hfold [] rfl, List.append_nil, List.reverse_reverse]

theorem closeOpenContainers_eq (h : ∀ l ∈ lines, (Line.classify l).isStructural = false) :
    closeOpenContainers lines = lines := by
  have hstep : ∀ l ∈ lines, ∀ written, closeStep (0, written) l = (0, l :: written) := by
    intro l hl written
    have hkind := h l hl
    unfold closeStep
    simp only
    split
    · next heq => exact absurd heq (Line.ne_of_isStructural hkind rfl)
    · next heq => exact absurd heq (Line.ne_of_isStructural hkind rfl)
    · next heq => exact absurd heq (Line.ne_of_isStructural hkind rfl)
    · next heq => exact absurd heq (Line.ne_of_isStructural hkind rfl)
    · rfl
  simp only [closeOpenContainers]
  rw [foldl_cons_eq hstep]
  simp [closeDepth]

theorem isolateScoreLines_eq (h : ∀ l ∈ lines, (Line.classify l).points? = none) :
    isolateScoreLines lines = lines := by
  have hstep : ∀ l ∈ lines, ∀ written,
      scoreStep (.idle, written) l = (.idle, l :: written) := by
    intro l hl written
    simp only [scoreStep, h l hl]
    cases Line.classify l <;> rfl
  rw [isolateScoreLines, foldl_cons_eq hstep, List.append_nil, List.reverse_reverse]

theorem pruneTabIndicators_eq (h : ∀ l ∈ lines, insertsTab l = false) :
    pruneTabIndicators lines = lines := by
  induction lines with
  | nil => rfl
  | cons line lines ih =>
    rw [pruneTabIndicators, h line List.mem_cons_self,
      ih fun l hl => h l (List.mem_cons_of_mem _ hl)]
    rfl

theorem cutAtTemplates_eq (h : ∀ l ∈ lines, (Line.classify l).isTemplate = false) :
    cutAtTemplates lines = (lines, []) := by
  induction lines with
  | nil => rfl
  | cons line lines ih =>
    simp [cutAtTemplates, h line List.mem_cons_self,
      ih fun l hl => h l (List.mem_cons_of_mem _ hl)]

theorem placeAfterZone_eq (h : ∀ l ∈ lines, (Line.classify l).isStructural = false) :
    placeAfterZone lines = lines := by
  have htemplate : ∀ l ∈ lines, (Line.classify l).isTemplate = false :=
    fun l hl => Line.isTemplate_of_isStructural (h l hl)
  have hsegments : segments lines = [lines] := by
    unfold segments
    rw [cutAtTemplates_eq htemplate]
    split
    · next heq => simp at heq
    · next heq => simpa [eq_comm] using heq
  have hkept : ∀ behind : List Text, (∀ l ∈ behind, l ∈ lines) → withoutAfter behind = behind := by
    intro behind hbehind
    refine List.filter_eq_self.2 fun l hl => ?_
    rw [requestsAfter, Line.zone?_of_isStructural (h l (hbehind l hl))]
    rfl
  have hplaced : placeInSegment lines = lines := by
    rcases placeInSegment_cases lines with ⟨front, choice, behind, heq, _, _, hplace⟩ |
      ⟨_, _, hplace⟩ | ⟨_, ⟨t, ht⟩, _⟩
    · have hmem : ∀ l ∈ behind, l ∈ lines := fun l hl => by
        rw [heq]
        exact List.mem_append_right _ (List.mem_cons_of_mem _ hl)
      rw [hplace, hkept behind hmem, ← heq]
    · rw [hplace, hkept lines fun l hl => hl]
    · -- The lines do not start with a template.
      cases lines with
      | nil => exact absurd ht (by simp [segmentTemplate?])
      | cons line lines =>
        have hline := htemplate line List.mem_cons_self
        simp only [segmentTemplate?, List.head?_cons, Option.map_some] at ht
        split at ht
        · next heq =>
          rw [Option.some.inj heq] at hline
          exact absurd hline (by simp [Line.isTemplate])
        · simp at ht
  rw [placeAfterZone, hsegments, List.flatMap_singleton, hplaced]

theorem arrange_eq (h : ∀ l ∈ lines, IsUntouched l) : arrange lines = lines := by
  have hflat : ∀ l ∈ lines, (Line.classify l).isStructural = false :=
    fun l hl => (h l hl).isStructural
  have hstrip : stripChoiceLeadingSpace lines = lines := by
    have hline : ∀ l ∈ lines, stripChoice l = id l := fun l hl => (h l hl).stripChoice_eq
    rw [stripChoiceLeadingSpace, List.map_congr_left hline, List.map_id]
  rw [arrange, orderPlaceholders_eq hflat, splitDualContent_eq hflat,
    compactContainerBreaks_eq hflat, dropBreakAfterExit_eq hflat, closeOpenContainers_eq hflat,
    isolateScoreLines_eq fun l hl => (h l hl).points?,
    pruneTabIndicators_eq fun l hl => (h l hl).insertsTab, hstrip, placeAfterZone_eq hflat]

end Lines

/-! ## A round -/

/-- Closing quotes changes no line that leaves none open. -/
theorem closeQuotes_eq {line : Text} (h : ClosesLiterals line) : closeQuotes line = line := by
  unfold closeQuotes
  simp only
  split
  · next hopen =>
    obtain ⟨hcall, hquote⟩ := Bool.and_eq_true_iff.1 hopen
    rw [h hcall] at hquote
    exact absurd hquote (by decide)
  · rfl

theorem map_closeQuotes_eq {lines : List Text} (h : ∀ l ∈ lines, ClosesLiterals l) :
    lines.map closeQuotes = lines := by
  have hline : ∀ l ∈ lines, closeQuotes l = id l := fun l hl => closeQuotes_eq (h l hl)
  rw [List.map_congr_left hline, List.map_id]

/-- Where folding gives lines that nothing else is to be done about once their quotes are closed, a
    round gives just these lines. -/
theorem runOnce_unlines {lines folded : List Text} (h : ∀ l ∈ lines, IsTidy l)
    (hfold : foldCallNewlines (Text.unlines lines) = Text.unlines folded)
    (hlines : Text.lines (Text.unlines folded) = folded)
    (hfolded : ∀ l ∈ folded.map closeQuotes, IsUntouched l) :
    Pipeline.full.runOnce (Text.unlines lines) = Text.unlines (folded.map closeQuotes) := by
  have hmend : mend (Text.unlines lines) = Text.unlines (folded.map closeQuotes) := by
    rw [mend, canonicalizeWhitespace_unlines h, stripCodeFences_unlines h,
      joinMultilineLiterals_unlines h, hfold, closeUnterminatedQuotes, hlines,
      canonicalizeEquations_unlines hfolded]
  rw [runOnce_eq, roundLines, hmend, cut_unlines fun l hl => (hfolded l hl).isTidy,
    makeStatements_eq hfolded, arrange_eq hfolded]

/-- Where there is nothing to fold and nothing else to be done, a round changes nothing. -/
theorem runOnce_unlines_eq {lines : List Text} (h : ∀ l ∈ lines, IsUntouched l)
    (hfold : foldCallNewlines (Text.unlines lines) = Text.unlines lines) :
    Pipeline.full.runOnce (Text.unlines lines) = Text.unlines lines := by
  have hclosed := map_closeQuotes_eq fun l hl => (h l hl).isTidy.closesLiterals
  rw [runOnce_unlines (fun l hl => (h l hl).isTidy) hfold
    (Text.lines_unlines fun l hl => (h l hl).isTidy.isLogicalLine) (by rwa [hclosed]), hclosed]

/-! ## Lines that are no call -/

/-- A line that is no call, has no separator in it and leaves no literal open. -/
structure IsInert (line : Text) : Prop where
  isLogicalLine : IsLogicalLine line
  lineEnd : ∀ c ∈ line, c ≠ '\r' ∧ c ≠ '\u2028' ∧ c ≠ '\u2029'
  isFence : isFence line = false
  ofLine? : CallLine.ofLine? line = none
  separator : ∀ c ∈ line, (c == '+' || c == ';') = false
  closesLiterals : ClosesLiterals line

theorem IsInert.isUntouched {line : Text} (h : IsInert line) : IsUntouched line := by
  have hclassify : Line.classify line = .other := by rw [Line.classify, h.ofLine?]
  refine ⟨⟨h.isLogicalLine, h.lineEnd, h.isFence, h.closesLiterals⟩, ?_,
    splitJoinedCalls_eq (Balance.splitFrom_eq {} h.separator), ?_, ?_, ?_, ?_, ?_⟩
  · simp [updateLiteral, updatedCall?, h.ofLine?]
  · simp [promoteLine, hclassify]
  · rw [hclassify]
    rfl
  · rw [hclassify]
    rfl
  · simp [insertsTab, hclassify]
  · simp [stripChoice, hclassify]

end Scribe.Repair
