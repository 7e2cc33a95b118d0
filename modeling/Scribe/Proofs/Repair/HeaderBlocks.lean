import Mathlib.Data.List.TakeWhile
import Scribe.Proofs.Repair.Skeleton

set_option autoImplicit false

/-! # The header block taken apart

A block that holds more than list items is cut into a condition, a question and the items. Main
statement: whenever the repair changes a script, the block is that of the header's first inside
zone, the pieces stay in order, the condition ends up in a box of its own, and only the items
remain in the header's container. The question reaches as far back as its phrases and the spacing
and formatting around them do. -/

namespace Scribe.Repair

/-! ## Lines of a question -/

/-- Does the line insert a literal that reads like a question? -/
def insertsQuestion (line : Text) : Bool := (Line.classify line).literal?.any isQuestion

/-- Does the line only space or format what stands around it? -/
def isPassedOver (line : Text) : Bool := isSpacing line || isFormatting line

/-- Can the line stand in a question? -/
def fitsQuestion (line : Text) : Bool := isPassedOver line || insertsQuestion line

/-- A call of a verb without a literal of its own inserts nothing. -/
theorem insertsContent_of_ofLine? {line : Text} {call : CallLine} {verb : Verb}
    (hcall : CallLine.ofLine? line = some call) (hverb : Verb.ofName? call.name = some verb)
    (h : (Line.ofCall verb call.args).literal? = none) : insertsContent line = false := by
  unfold insertsContent Line.isContent Line.classify
  rw [hcall]
  simp only [hverb, h]
  rfl

theorem ofLine?_of_isBlankText {line : Text} (h : line.isBlankText = true) :
    CallLine.ofLine? line = none := by
  have htrim : line.trim = [] := by
    rw [Text.trim, Text.trimStart, List.dropWhile_eq_nil_iff.2 (List.all_eq_true.1 h)]
    rfl
  rw [CallLine.ofLine?, htrim]
  rfl

theorem insertsContent_of_isSpacing {line : Text} (h : isSpacing line = true) :
    insertsContent line = false := by
  unfold isSpacing at h
  split at h
  · next hverb =>
    obtain ⟨call, hcall, hverb⟩ := Option.bind_eq_some_iff.1 hverb
    exact insertsContent_of_ofLine? hcall hverb rfl
  · next hverb =>
    obtain ⟨call, hcall, hverb⟩ := Option.bind_eq_some_iff.1 hverb
    exact insertsContent_of_ofLine? hcall hverb rfl
  · next hverb =>
    obtain ⟨call, hcall, hverb⟩ := Option.bind_eq_some_iff.1 hverb
    exact insertsContent_of_ofLine? hcall hverb rfl
  · unfold insertsContent Line.classify
    rw [ofLine?_of_isBlankText h]
    rfl

/-! ## Where the question begins -/

/-- What is known of the lines at the end of a block, last one first, when the first `taken` of them
    belong to its question: nothing is taken before a question is `found`, and from then on only
    spacing is left. -/
structure Scanned (found : Bool) (taken : Nat) (passed : List Text) : Prop where
  le : taken ≤ passed.length
  fits : ∀ l ∈ passed, fitsQuestion l = true
  nothing : found = false → taken = 0 ∧ ∀ l ∈ passed, isPassedOver l = true
  spacing : found = true → ∀ l ∈ passed.drop taken, isSpacing l = true

theorem scanned_nil : Scanned false 0 [] := ⟨Nat.le_refl _, by simp, by simp, by simp⟩

namespace Scanned

variable {found : Bool} {taken : Nat} {passed : List Text} {line : Text}

theorem fits_concat (h : Scanned found taken passed) (hline : fitsQuestion line = true) :
    ∀ l ∈ passed ++ [line], fitsQuestion l = true := by
  intro l hl
  rcases List.mem_append.1 hl with hl | hl
  · exact h.fits l hl
  · rwa [List.mem_singleton.1 hl]

theorem nothing_concat (h : Scanned found taken passed) (hline : isPassedOver line = true)
    (hfound : found = false) : taken = 0 ∧ ∀ l ∈ passed ++ [line], isPassedOver l = true := by
  obtain ⟨htaken, hpassed⟩ := h.nothing hfound
  refine ⟨htaken, fun l hl => ?_⟩
  rcases List.mem_append.1 hl with hl | hl
  · exact hpassed l hl
  · rwa [List.mem_singleton.1 hl]

/-- Spacing is passed over. -/
theorem concat_spacing (h : Scanned found taken passed) (hline : isSpacing line = true) :
    Scanned found taken (passed ++ [line]) where
  le := Nat.le_trans h.le (by simp)
  fits := h.fits_concat (by simp [fitsQuestion, isPassedOver, hline])
  nothing := h.nothing_concat (by simp [isPassedOver, hline])
  spacing hfound l hl := by
    rw [List.drop_append_of_le_length h.le] at hl
    rcases List.mem_append.1 hl with hl | hl
    · exact h.spacing hfound l hl
    · rwa [List.mem_singleton.1 hl]

/-- Everything passed so far is taken, and one more line. -/
theorem concat_taken (h : Scanned found taken passed) (hline : fitsQuestion line = true) :
    Scanned true (passed.length + 1) (passed ++ [line]) where
  le := by simp
  fits := h.fits_concat hline
  nothing hfound := absurd hfound (by decide)
  spacing _ l hl := by
    rw [List.drop_of_length_le (by simp)] at hl
    exact absurd hl List.not_mem_nil

/-- Formatting is taken along once a question is found behind it. -/
theorem concat_formatting (h : Scanned found taken passed) (hline : isFormatting line = true) :
    Scanned found (if found then passed.length + 1 else taken) (passed ++ [line]) := by
  have hpassed : isPassedOver line = true := by simp [isPassedOver, hline]
  have hfits : fitsQuestion line = true := by simp [fitsQuestion, hpassed]
  cases found with
  | true => exact h.concat_taken hfits
  | false =>
    exact {
      le := Nat.le_trans h.le (by simp)
      fits := h.fits_concat hfits
      nothing := h.nothing_concat hpassed
      spacing := fun hfound => absurd hfound (by decide) }

end Scanned

/-- The first `n` lines of a block, given last one first, make up its question, spacing in front of
    it aside. -/
structure EndsInQuestion (reversed : List Text) (n : Nat) : Prop where
  le : n ≤ reversed.length
  fits : ∀ l ∈ reversed.take n, fitsQuestion l = true
  formatting : n ≠ 0 → ∀ l, ((reversed.drop n).dropWhile isSpacing).head? = some l →
    isFormatting l = false
  phrases : ∀ l, ((reversed.drop n).dropWhile isPassedOver).head? = some l →
    insertsQuestion l = false

theorem dropWhile_append_of_head? {p : Text → Bool} {passed rest : List Text}
    (hpassed : ∀ l ∈ passed, p l = true) (hrest : ∀ l, rest.head? = some l → p l = false) :
    (passed ++ rest).dropWhile p = rest := by
  rw [List.dropWhile_append_of_pos hpassed]
  cases rest with
  | nil => rfl
  | cons line rest => exact List.dropWhile_cons_of_neg (by simp [hrest line rfl])

/-- Where the scan ends, at the front of the block or at a line that fits no question. -/
theorem Scanned.endsInQuestion {found : Bool} {taken : Nat} {passed rest : List Text}
    (h : Scanned found taken passed)
    (hstop : ∀ l, rest.head? = some l →
      isSpacing l = false ∧ isFormatting l = false ∧ insertsQuestion l = false) :
    EndsInQuestion (passed ++ rest) taken where
  le := Nat.le_trans h.le (by simp)
  fits l hl := by
    rw [List.take_append_of_le_length h.le] at hl
    exact h.fits l (List.mem_of_mem_take hl)
  formatting hne l hl := by
    cases found with
    | true =>
      rw [List.drop_append_of_le_length h.le,
        dropWhile_append_of_head? (h.spacing rfl) fun l hl => (hstop l hl).1] at hl
      exact (hstop l hl).2.1
    | false => exact absurd (h.nothing rfl).1 hne
  phrases l hl := by
    have hpassed : ∀ l ∈ passed.drop taken, isPassedOver l = true := by
      intro l hl
      cases found with
      | true => simp [isPassedOver, h.spacing rfl l hl]
      | false => exact (h.nothing rfl).2 l (List.mem_of_mem_drop hl)
    rw [List.drop_append_of_le_length h.le,
      dropWhile_append_of_head? hpassed fun l hl => by
        simp [isPassedOver, (hstop l hl).1, (hstop l hl).2.1]] at hl
    exact (hstop l hl).2.2

/-- The scan from the end of a block finds its question. -/
theorem endsInQuestion_questionLength {found : Bool} {taken : Nat} {passed rest : List Text}
    (h : Scanned found taken passed) :
    EndsInQuestion (passed ++ rest) (questionLength found passed.length taken rest) := by
  induction rest generalizing found taken passed with
  | nil => exact h.endsInQuestion fun l hl => nomatch hl
  | cons line earlier ih =>
    have happ : passed ++ line :: earlier = (passed ++ [line]) ++ earlier := by simp
    have hlength : passed.length + 1 = (passed ++ [line]).length := by simp
    -- The scan goes on over spacing, formatting and questions, and stops at any other line.
    rw [questionLength]
    split
    · next hspacing =>
      rw [happ, hlength]
      exact ih (h.concat_spacing hspacing)
    · split
      · next hformatting =>
        have hscanned := h.concat_formatting hformatting
        rw [happ, hlength]
        rw [hlength] at hscanned
        exact ih hscanned
      · split
        · next hquestion =>
          have hfits : fitsQuestion line = true := by
            simp [fitsQuestion, insertsQuestion, hquestion]
          have hscanned := h.concat_taken hfits
          rw [happ, hlength]
          rw [hlength] at hscanned
          exact ih hscanned
        · next hspacing hformatting hquestion =>
          refine h.endsInQuestion fun l hl => ?_
          rw [← Option.some.inj hl]
          exact ⟨by simpa using hspacing, by simpa using hformatting,
            by simpa [insertsQuestion] using hquestion⟩

/-! ## Condition and question -/

/-- How a block is cut in two: the question holds phrases and the spacing and formatting around
    them, and the condition ends in front of all of that. -/
structure IsQuestionCut (condition question : List Text) : Prop where
  fits : ∀ l ∈ question, fitsQuestion l = true
  spacing : ∀ l, condition.getLast? = some l → isSpacing l = false
  formatting : question.any insertsContent = true →
    ∀ l, condition.getLast? = some l → isFormatting l = false
  /-- What is passed over at the end of the condition does not hide a question. -/
  phrases : ∀ l, (condition.reverse.dropWhile isPassedOver).head? = some l →
    insertsQuestion l = false

theorem isQuestionCut_splitQuestion (block : List Text) :
    IsQuestionCut (splitQuestion block).1 (splitQuestion block).2 := by
  have hends : EndsInQuestion block.reverse (questionLength false 0 0 block.reverse) :=
    endsInQuestion_questionLength scanned_nil
  simp only [splitQuestion]
  generalize questionLength false 0 0 block.reverse = taken at hends
  -- From the end: what is taken, the spacing in front of it, and the condition.
  generalize hphrases : block.reverse.take taken = phrases
  generalize hspacing : (block.reverse.drop taken).takeWhile isSpacing = spacing
  generalize hcondition : (block.reverse.drop taken).dropWhile isSpacing = condition
  have hreverse : block.reverse = phrases ++ (spacing ++ condition) := by
    rw [← hphrases, ← hspacing, ← hcondition, List.takeWhile_append_dropWhile,
      List.take_append_drop]
  have hblock : block = condition.reverse ++ (spacing.reverse ++ phrases.reverse) := by
    rw [← List.reverse_reverse block, hreverse]
    simp
  have hlength : block.length - (taken + spacing.length) = condition.reverse.length := by
    have htaken : phrases.length = taken := by
      rw [← hphrases, List.length_take_of_le hends.le]
    rw [← List.length_reverse, hreverse]
    simp only [List.length_append, List.length_reverse, htaken]
    omega
  rw [hlength, hblock, List.take_left, List.drop_left]
  have hspaces : ∀ l ∈ spacing, isSpacing l = true := by
    rw [← hspacing]
    exact List.all_eq_true.1 List.all_takeWhile
  exact {
    fits := fun l hl => by
      rcases List.mem_append.1 hl with hl | hl
      · simp [fitsQuestion, isPassedOver, hspaces l (List.mem_reverse.1 hl)]
      · exact hends.fits l (hphrases ▸ List.mem_reverse.1 hl)
    spacing := fun l hl => by
      rw [List.getLast?_reverse, ← hcondition] at hl
      have hfirst := List.head?_dropWhile_not isSpacing (block.reverse.drop taken)
      rwa [hl] at hfirst
    formatting := fun hcontent l hl => by
      rw [List.getLast?_reverse, ← hcondition] at hl
      refine hends.formatting ?_ l hl
      -- Spacing alone inserts nothing, so something was taken.
      rintro rfl
      rw [← hphrases, List.take_zero, List.reverse_nil, List.append_nil, List.any_eq_true]
        at hcontent
      obtain ⟨m, hm, hcontent⟩ := hcontent
      rw [insertsContent_of_isSpacing (hspaces m (List.mem_reverse.1 hm))] at hcontent
      cases hcontent
    phrases := fun l hl => by
      refine hends.phrases l ?_
      rw [List.reverse_reverse] at hl
      rw [← List.takeWhile_append_dropWhile (p := isSpacing) (l := block.reverse.drop taken),
        hspacing, hcondition, List.dropWhile_append_of_pos fun l hl => by
          simp [isPassedOver, hspaces l hl]]
      exact hl }

/-! ## The block of the header -/

/-- The lines of a question without the requests to justify. -/
def withoutJustify (lines : List Text) : List Text :=
  lines.filter fun line => Line.classify line != .alignJustify

theorem any_insertsContent_withoutJustify (lines : List Text) :
    (withoutJustify lines).any insertsContent = lines.any insertsContent := by
  rw [withoutJustify, List.any_filter]
  congr 1
  funext line
  by_cases hjustify : Line.classify line = .alignJustify
  · simp [insertsContent, hjustify, Line.isContent, Line.literal?]
  · simp [hjustify]

/-- Where the block stands: in the inside zone of the first header, in front of the first list item
    of that zone. -/
structure IsHeaderBlock (front : List Text) (request : Text) (block : List Text) (item : Text) :
    Prop where
  header : ∃ head header between, front = head ++ header :: between ∧
    Line.classify header = .template (some .header) ∧
    (∀ l ∈ head, Line.classify l ≠ .template (some .header)) ∧
    ∀ l ∈ between, (Line.classify l).zone? ≠ some .inside
  request : (Line.classify request).zone? = some .inside
  within : ∀ l ∈ block, endsBlock l = false
  first : ∀ l ∈ block, insertsListItem l = false
  item : insertsListItem item = true

/-- The block that is found stands where it should, and its items begin with a list item. -/
theorem HeaderBlock.isHeaderBlock_of_ofLines? {lines : List Text} {b : HeaderBlock}
    (h : HeaderBlock.ofLines? lines = some b) :
    ∃ request item items, b.items = item :: items ∧
      lines = b.front ++ request :: (b.block ++ item :: items) ∧
      IsHeaderBlock b.front request b.block item := by
  obtain ⟨request, hrequest, hlines, hwithin⟩ := exists_of_ofLines? h
  unfold ofLines? at h
  simp only at h
  split at h
  · simp at h
  · next header more hmore =>
    split at h
    · simp at h
    · next _ rest hrest =>
      split at h
      · next hlt =>
        cases h
        have hheader := List.head?_dropWhile_not
          (fun line => !(Line.classify line == .template (some .header))) lines
        rw [hmore] at hheader
        -- The zone goes on behind the block, and what stops the block is a list item.
        have hrest := List.takeWhile_append_dropWhile (p := fun line => !endsBlock line) (l := rest)
        generalize rest.dropWhile (fun line => !endsBlock line) = behind at hrest
        generalize rest.takeWhile (fun line => !endsBlock line) = zone at *
        have hzone := List.takeWhile_append_dropWhile (p := fun line => !insertsListItem line)
          (l := zone)
        have hstop := List.head?_dropWhile_not (fun line => !insertsListItem line) zone
        have hblock := List.all_takeWhile (p := fun line => !insertsListItem line) (l := zone)
        cases hitems : zone.dropWhile fun line => !insertsListItem line with
        | nil =>
          rw [hitems, List.append_nil] at hzone
          rw [hzone] at hlt
          exact absurd hlt (Nat.lt_irrefl _)
        | cons item items =>
          rw [hitems] at hzone hstop
          generalize zone.takeWhile (fun line => !insertsListItem line) = block at *
          have hdrop : rest.drop block.length = item :: (items ++ behind) := by
            rw [← hrest, ← hzone, List.append_assoc, List.drop_left, List.cons_append]
          refine ⟨request, item, items ++ behind, hdrop, by rw [← hdrop]; exact hlines, ?_⟩
          exact {
            header := ⟨_, header, _, rfl, by simpa using hheader,
              fun l hl => by simpa using List.all_eq_true.1 List.all_takeWhile l hl,
              fun l hl => by simpa using List.all_eq_true.1 List.all_takeWhile l hl⟩
            request := hrequest
            within := hwithin
            first := fun l hl => by simpa using List.all_eq_true.1 hblock l hl
            item := by simpa using hstop }
      · simp at h

/-! ## The pass -/

/-- The block of the header is taken apart: the condition gets a box of its own, the question stands
    outside without its requests to justify, with a break behind it if it needs one, and the items
    come behind a new request for the inside zone. -/
def IsTakenApart (lines out : List Text) : Prop :=
  ∃ front request condition question item items,
    lines = front ++ request :: (condition ++ question ++ item :: items) ∧
    IsHeaderBlock front request (condition ++ question) item ∧
    IsQuestionCut condition question ∧ (∃ l ∈ condition, insertsContent l = true) ∧
    out = front ++ openBoxLine :: (condition ++ exitBoxLine ::
      (withoutJustify question
        ++ (if question.any insertsContent && !(withoutJustify question).getLast?.any isSpacing
          then [enterLine] else [])
        ++ Zone.inside.focusLine :: alignJustifyLine :: item :: items))

/-- Whenever the repair changes a script, there is no plain container in it and the block of its
    header is taken apart. -/
theorem isTakenApart_of_splitDualContent_ne {lines : List Text}
    (h : splitDualContent lines ≠ lines) :
    (∀ l ∈ lines, Line.classify l ≠ .opening .insertBox) ∧
      IsTakenApart lines (splitDualContent lines) := by
  unfold splitDualContent at h ⊢
  split at h
  · exact absurd rfl h
  · next hboxes =>
    rw [if_neg hboxes]
    refine ⟨fun l hl hbox => hboxes (List.any_eq_true.2 ⟨l, hl, by simp [hbox]⟩), ?_⟩
    cases hb : HeaderBlock.ofLines? lines with
    | none => simp [hb] at h
    | some b =>
      rw [hb] at h
      obtain ⟨request, item, items, hitems, hlines, hblock⟩ :=
        HeaderBlock.isHeaderBlock_of_ofLines? hb
      have hcut := isQuestionCut_splitQuestion b.block
      have happend := splitQuestion_append b.block
      simp only [Option.bind_some, HeaderBlock.split?] at h ⊢
      generalize splitQuestion b.block = parts at h hcut happend ⊢
      obtain ⟨condition, question⟩ := parts
      split at h
      · next hcontent =>
        rw [if_pos hcontent]
        refine ⟨b.front, request, condition, question, item, items, ?_, ?_, hcut,
          List.any_eq_true.1 hcontent, ?_⟩
        · rw [happend, hlines]
        · rwa [happend]
        · rw [← any_insertsContent_withoutJustify question, hitems]
          simp [withoutJustify]
      · simp at h

/-- A condition, a question and list items in the inside zone of a header. -/
def conditionScript : List Text :=
  [ "insert_template('header.hwp')".toList, Zone.before.focusLine, Zone.inside.focusLine,
    alignJustifyLine, "insert_text('ⓐ 조건 문장')".toList, enterLine,
    "insert_text('옳은 것만을 고른 것은?')".toList, "set_bold(True)".toList, alignJustifyLine,
    "insert_text('ㄱ. 첫째')".toList, enterLine, "insert_text('ㄴ. 둘째')".toList, exitBoxLine ]

theorem isTakenApart_conditionScript :
    splitDualContent conditionScript ≠ conditionScript ∧
    (∀ l ∈ conditionScript, Line.classify l ≠ .opening .insertBox) ∧
    IsTakenApart conditionScript (splitDualContent conditionScript) ∧
    splitDualContent conditionScript =
      [ "insert_template('header.hwp')".toList, Zone.before.focusLine, openBoxLine,
        alignJustifyLine, "insert_text('ⓐ 조건 문장')".toList, exitBoxLine, enterLine,
        "insert_text('옳은 것만을 고른 것은?')".toList, "set_bold(True)".toList, enterLine,
        Zone.inside.focusLine, alignJustifyLine, "insert_text('ㄱ. 첫째')".toList, enterLine,
        "insert_text('ㄴ. 둘째')".toList, exitBoxLine ] := by
  have hne : splitDualContent conditionScript ≠ conditionScript := by decide +kernel
  obtain ⟨hboxes, happart⟩ := isTakenApart_of_splitDualContent_ne hne
  exact ⟨hne, hboxes, happart, by decide +kernel⟩

end Scribe.Repair
