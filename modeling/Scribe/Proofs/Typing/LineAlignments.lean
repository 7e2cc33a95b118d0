import Mathlib.Data.List.TakeWhile
import Scribe.Proofs.Typing.LineRule

set_option autoImplicit false

/-! # Alignments that hold for one line

Main statement: undisturbed, operations that type lines keep to the rule of aligned lines, unless
one of them slips: it types a space at the start of a line without the alignment that is asked for,
or it counts a line as begun on which nothing was typed. -/

namespace Scribe

/-! ## Actions under the rule -/

namespace Typing

open LineRule

variable {rule : LineRule} {s : TypingState} {x : Document}
  {Q : Unit → TypingState → Document × LineRule → Prop}

theorem obeys_write (h : rule.Holds s x) {text : Text} (hempty : text = [] → Q () s (x, rule))
    (hQ : ∀ x' rule', rule'.Holds s x' → rule'.line.isSome → Q () s (x', rule')) :
    Obeys (write text) Q s x rule := by
  have hp : (Primitive.insertText text).types := rfl
  obtain ⟨hallows, hholds, hline⟩ := h.types hp
  exact .write hempty (fun _ => hallows) (fun _ => (Document.perform_insertText h.calm text).1)
    fun _ => hQ _ _ hholds hline

theorem obeys_insertObject (h : rule.Holds s x) (spec : EquationSpec)
    (hQ : ∀ x' rule', rule'.Holds s x' → rule'.line.isSome → Q () s (x', rule')) :
    Obeys (insertObject spec) Q s x rule := by
  have htypes : (Primitive.createEquation spec).types := rfl
  obtain ⟨hcreates, h₁, hline⟩ := h.types htypes
  obtain ⟨hcreated, hbuffer⟩ := Document.perform_createEquation h.calm spec
  have hselected := Buffer.equationSelected_insertEquation h.proper spec.text
  rw [← hbuffer] at hselected
  refine .bind (.discard (.require hcreates hcreated ?_))
  generalize rule.next (.called ⟨x, .createEquation spec⟩) = rule₁ at h₁ hline
  generalize (x.perform (.createEquation spec)).2 = x₁ at h₁ hselected
  -- the other calls neither type nor align
  obtain ⟨hanchors, hnext₂, hproceeds₂⟩ := h₁.toProceeds.passed
    (p := .objectAnchor spec.treatAsChar) rfl rfl
  refine .bind (.discard (.require hanchors
    (Document.perform_objectAnchor h₁.calm hselected _).1 ?_))
  obtain ⟨hcancels, hnext₃, hproceeds₃⟩ := hproceeds₂.passed (p := .run .cancel) rfl rfl
  simp only [hnext₂]
  refine .bind (.discard (.require hcancels (Document.perform_run hproceeds₂.calm .cancel).1 ?_))
  obtain ⟨hmoves, hnext₄, hproceeds₄⟩ := hproceeds₃.passed (p := .run .moveRight) rfl rfl
  simp only [hnext₃]
  refine .discard (.require hmoves (Document.perform_run hproceeds₃.calm .moveRight).1 ?_)
  simp only [hnext₄]
  refine hQ _ _ ⟨hproceeds₄, h₁.asked, h₁.line, ?_⟩ hline
  rw [Document.alignment_perform_run hproceeds₃.calm,
    Document.alignment_perform_run hproceeds₂.calm,
    Document.alignment_perform_objectAnchor h₁.calm, h₁.alignment]

/-- At the start of a line the command for the alignment that is asked for makes the document as it
    is due. -/
theorem obeys_applyAlignment_of_lineStart (h : rule.Fits s x) (hs : s.lineStart = true)
    {Q : LineAlignment → TypingState → Document × LineRule → Prop}
    (hQ : ∀ x', rule.Holds s.takeAlignment.2 x' →
      Q s.takeAlignment.1 s.takeAlignment.2 (x', rule)) :
    Obeys applyAlignment Q s x rule := by
  have hline := h.line_eq_none hs
  rw [h.takeAlignment hs] at hQ
  refine .bind (.typingState ?_)
  rw [h.takeAlignment hs]
  refine .bind (.updateState ?_)
  generalize hstate : ({ s with pendingAlignment := .none, lineAlignment := rule.asked } :
    TypingState) = s' at hQ
  have hproceeds : rule.Proceeds s' x := ⟨h.calm, h.proper, hstate ▸ h.outside, h.restoring⟩
  have hholds {x' : Document} (hx' : rule.Proceeds s' x') (halignment : x'.alignment = rule.due) :
      rule.Holds s' x' := by
    refine ⟨hx', ?_, ?_, halignment⟩ <;> simp [← hstate, hline]
  have hdue : rule.due = rule.asked.alignment?.getD x.alignment := by
    rw [h.alignment, due, inForce, hline]
    rfl
  have hcommand (command : Command) (hcommand : (Primitive.run command).breaks = false)
      (halignment : (x.perform (.run command)).2.alignment = rule.due) :
      Obeys (discard (tryRun command)) (fun _ => Q rule.asked) s' x rule := by
    obtain ⟨hallows, hnext, hproceeds'⟩ := hproceeds.passed rfl hcommand
    refine .discard (.tryRun hallows (Document.perform_run h.calm command).1 ?_)
    simp only [hnext]
    exact hQ _ (hholds hproceeds' halignment)
  cases hasked : rule.asked with
  | none =>
    rw [hasked] at hdue hQ
    exact .bind (.pure (.pure (hQ x (hholds hproceeds hdue.symm))))
  | right =>
    simp only [hasked] at hdue hcommand
    refine .bind ((hcommand .alignRight rfl ?_).mono fun _ _ _ hend => .pure hend)
    rw [Document.alignment_perform_run h.calm, hdue]
    rfl
  | justify =>
    simp only [hasked] at hdue hcommand
    refine .bind ((hcommand .alignJustify rfl ?_).mono fun _ _ _ hend => .pure hend)
    rw [Document.alignment_perform_run h.calm, hdue]
    rfl

/-- The alignment that is due is brought into force, or it already is. -/
theorem obeys_applyAlignment (h : rule.Fits s x)
    {Q : LineAlignment → TypingState → Document × LineRule → Prop}
    (hQ : ∀ x', rule.Holds s.takeAlignment.2 x' →
      Q s.takeAlignment.1 s.takeAlignment.2 (x', rule)) :
    Obeys applyAlignment Q s x rule := by
  cases hs : s.lineStart with
  | false =>
    have htaken : s.takeAlignment = (.none, s) := by simp [TypingState.takeAlignment, hs]
    rw [htaken] at hQ
    exact .applyAlignment_of_lineStart hs (hQ x (h.toSuits.holds (.inl (h.isSome_line hs))))
  | true => exact obeys_applyAlignment_of_lineStart h hs hQ

/-- A break ends the line, and left alignment comes back if the line had another one. -/
theorem obeys_breakLine (h : rule.Suits s x)
    (hQ : ∀ x' rule', rule'.Fits s.breakLine x' → rule'.line = none → rule'.asked = rule.asked →
      Q () s.breakLine (x', rule')) :
    Obeys breakLine Q s x rule := by
  have hallows : rule.Allows (.called ⟨x, .run .breakPara⟩) :=
    ⟨by rw [h.restoring]; exact nofun, nofun, fun _ => h.alignment⟩
  have hnext : rule.next (.called ⟨x, .run .breakPara⟩) =
      { rule with line := none, restoring := (rule.line.getD .none).isSet } := rfl
  have hcalm := h.calm.perform (.run .breakPara)
  have hproper := Document.isProper_perform h.proper (.run .breakPara)
  have halignment : (x.perform (.run .breakPara)).2.alignment = rule.inForce :=
    (Document.alignment_perform_run h.calm _).trans h.alignment
  refine .bind (.discard (.require hallows (Document.perform_run h.calm .breakPara).1 ?_))
  simp only [hnext]
  generalize (x.perform (.run .breakPara)).2 = x₁ at hcalm hproper halignment
  refine .bind (.typingState (.bind (.updateState ?_)))
  rw [h.line]
  by_cases haligned : (rule.line.getD .none).isSet
  · have halignsLeft : LineRule.Allows { rule with line := none, restoring := true }
        (.called ⟨x₁, .run .alignLeft⟩) := ⟨fun _ => rfl, nofun, nofun⟩
    rw [haligned]
    refine .ite_pos rfl (.discard (.tryRun halignsLeft
      (Document.perform_run hcalm .alignLeft).1 (hQ _ _ ?_ rfl rfl)))
    exact
      { calm := hcalm.perform _
        proper := Document.isProper_perform hproper _
        outside := h.outside
        restoring := rfl
        asked := h.asked
        line := rfl
        alignment := Document.alignment_perform_run hcalm _
        lineStart := rfl }
  · have hnone : rule.line.getD .none = .none := by
      cases hline : rule.line.getD .none <;> simp_all [LineAlignment.isSet]
    refine .ite_neg haligned (.pure (hQ _ _ ?_ rfl rfl))
    exact
      { calm := hcalm
        proper := hproper
        outside := h.outside
        restoring := by rw [hnone]; rfl
        asked := h.asked
        line := rfl
        alignment := by rw [halignment, inForce, hnone]; rfl
        lineStart := rfl }

/-! ## Text -/

theorem trimRun_of_lastWasEquation {alignment : LineAlignment} {s s' : TypingState} {text : Text}
    (h : trimRun alignment s text ≠ []) (hs : s'.lastWasEquation = false) :
    trimRun alignment s' text ≠ [] := by
  intro hnil
  apply h
  simp only [trimRun, hs, Bool.false_eq_true, if_false] at hnil ⊢
  rw [hnil]
  split <;> rfl

theorem trimRun_takeAlignment {s : TypingState} (hs : s.lineStart) (text : Text) :
    trimRun s.takeAlignment.1 s.takeAlignment.2 text = trimRun s.pendingAlignment s text := by
  rw [TypingState.takeAlignment, if_pos hs]
  rfl

/-- A run of text begins its line, unless the line starts and nothing is left of the run. -/
theorem obeys_insertText (h : rule.Fits s x) {text : Text} (htext : text ≠ [])
    (hQ : ∀ s' x' rule', rule'.Holds s' x' → s'.lineStart = false →
      (¬ (s.lineStart ∧ trimRun s.pendingAlignment s (readTab text) = []) → rule'.line.isSome) →
      Q () s' (x', rule')) :
    Obeys (insertText text) Q s x rule := by
  -- what is done behind the break that a tab may bring
  have hrun {s₁ : TypingState} {x₁ : Document} {rule₁ : LineRule} (h₁ : rule₁.Fits s₁ x₁)
      (hnot : ¬ (s.lineStart ∧ trimRun s.pendingAlignment s (readTab text) = []) →
        s₁.lineStart → trimRun s₁.pendingAlignment s₁ (readTab text) ≠ []) :
      Obeys (do
        let alignment ← applyAlignment
        let state ← typingState
        let run := trimRun alignment state (readTab text)
        if state.insideContainer && state.containerLineStart && run.head? != some ' ' then
          updateState fun s => { s with containerLineStart := false }
          write (' ' :: run)
        else write run
        updateState .markText) Q s₁ x₁ rule₁ := by
    refine .bind (obeys_applyAlignment h₁ fun x₂ hholds => .bind (.typingState ?_))
    refine .ite_neg (by simp [hholds.outside]) (.bind (obeys_write hholds (fun hempty => ?_)
      fun x₃ rule₃ hholds₃ hline₃ => ?_))
    · refine .updateState (hQ _ _ _ (hholds.of_eq rfl rfl rfl) rfl fun hslip => ?_)
      cases hline : rule₁.line with
      | some _ => rfl
      | none =>
        have hs₁ : s₁.lineStart = true := by rw [h₁.lineStart, hline]; rfl
        rw [trimRun_takeAlignment hs₁] at hempty
        exact absurd hempty (hnot hslip hs₁)
    · exact .updateState (hQ _ _ _ (hholds₃.of_eq rfl rfl rfl) rfl fun _ => hline₃)
  refine .ite_neg (mt List.isEmpty_iff.1 htext) (.bind (.typingState ?_))
  by_cases htab : (s.lineStart && (readTab text).head? == some '\t' && s.hasWrittenFirstLine) = true
  · refine .ite_pos htab (.bind (obeys_breakLine h.toSuits fun x₁ rule₁ h₁ hline hasked => ?_))
    have hs : s.lineStart = true := by simp_all
    exact hrun h₁ fun hslip _ =>
      trimRun_of_lastWasEquation (fun hempty => hslip ⟨hs, hempty⟩) rfl
  · exact .ite_neg htab (hrun h fun hslip hs hempty => hslip ⟨hs, hempty⟩)

theorem obeys_insertSpace (h : rule.Suits s x) (hdue : rule.line.isSome ∨ rule.asked = .none)
    (hQ : ∀ s' x' rule', rule'.Fits s' x' → Q () s' (x', rule')) :
    Obeys insertSpace Q s x rule :=
  .bind (obeys_write (h.holds hdue) nofun fun _ _ hholds hline =>
    .updateState (hQ _ _ _ (hholds.fits hline rfl rfl rfl rfl)))

/-! ## Equations -/

/-- Behind the start of a line, an equation is typed with what belongs to it. -/
theorem obeys_equation {t : Typist Document} (h : rule.Holds s x) (equation : Text)
    (style : EquationStyle) (hline : equation = [] → rule.line.isSome)
    (hQ : ∀ s' x' rule', rule'.Fits s' x' → Q () s' (x', rule')) :
    Obeys (do
      let ensureNewline := style.ensureNewline.getD false && !equation.isEmpty
      unless equation.isEmpty do
        insertObject (t.equationSpec equation style)
        if ensureNewline then breakLine
      updateState fun s =>
        { s with hasWrittenFirstLine := true, lineStart := ensureNewline, lastWasEquation := true })
      Q s x rule := by
  by_cases hempty : equation = []
  · subst hempty
    refine .ite_pos rfl (.updateState (hQ _ _ _ (h.fits (hline rfl) rfl rfl rfl ?_)))
    simp
  · have hnonempty : equation.isEmpty = false := by simpa using hempty
    refine .ite_neg (by simp [hnonempty]) (.bind (obeys_insertObject h _
      fun x₁ rule₁ h₁ hline₁ => ?_))
    by_cases hnewline : style.ensureNewline.getD false && !equation.isEmpty
    · refine .ite_pos hnewline (.bind (obeys_breakLine (h₁.suits hline₁)
        fun x₂ rule₂ h₂ hline₂ _ => .updateState (hQ _ _ _ ?_)))
      exact { h₂ with lineStart := by rw [hline₂]; exact hnewline }
    · exact .ite_neg hnewline (.updateState (hQ _ _ _
        (h₁.fits hline₁ rfl rfl rfl (by simpa using hnewline))))

/-- White space is left of an equation exactly when it is left of it behind the tabs before it. -/
theorem trim_dropWhile_tab (text : Text) :
    Text.trim (text.dropWhile (· == '\t')) = Text.trim text := by
  have htabs : ∀ c ∈ text.takeWhile (· == '\t'), Text.isWhite c := by
    intro c hc
    obtain rfl := beq_iff_eq.1 (List.mem_takeWhile_imp (p := (· == '\t')) hc)
    rfl
  rw [Text.trim, Text.trimStart, ← List.dropWhile_append_of_pos htabs,
    List.takeWhile_append_dropWhile]
  rfl

/-- An equation at the start of a line begins it with what stands before it, if not with itself. -/
theorem obeys_indented {t : Typist Document} (h : rule.Fits s x) (content : Text)
    (style : EquationStyle)
    (hblank : Text.trim content = [] → s.lineStart →
      s.pendingAlignment ≠ .right ∧ s.hasWrittenFirstLine)
    (hQ : ∀ s' x' rule', rule'.Fits s' x' → Q () s' (x', rule')) :
    Obeys (do
      let alignment ← applyAlignment
      if alignment != .right && (← typingState).wantsIndent then
        write equationIndent
        updateState fun s => { s with lineStart := false }
      let equation := Text.trim content
      let ensureNewline := style.ensureNewline.getD false && !equation.isEmpty
      unless equation.isEmpty do
        insertObject (t.equationSpec equation style)
        if ensureNewline then breakLine
      updateState fun s =>
        { s with hasWrittenFirstLine := true, lineStart := ensureNewline, lastWasEquation := true })
      Q s x rule := by
  refine .bind (obeys_applyAlignment h fun x₁ hholds => .bind (.typingState ?_))
  by_cases hindent : s.takeAlignment.1 != .right && s.takeAlignment.2.wantsIndent
  · refine .ite_pos hindent (.bind (obeys_write hholds nofun fun x₂ rule₂ hholds₂ hline =>
      .bind (.updateState ?_)))
    refine obeys_equation ?_ (Text.trim content) style (fun _ => hline) hQ
    exact hholds₂.of_eq rfl rfl rfl
  · refine .ite_neg hindent (obeys_equation hholds _ _ (fun hempty => ?_) hQ)
    cases hline : rule.line with
    | some _ => rfl
    | none =>
      have hs : s.lineStart = true := by rw [h.lineStart, hline]; rfl
      obtain ⟨hright, hwritten⟩ := hblank hempty hs
      refine absurd ?_ hindent
      simp [TypingState.takeAlignment, TypingState.wantsIndent, hs, hright, hwritten, h.outside]

theorem obeys_insertEquation {t : Typist Document} (h : rule.Fits s x) {text : Text}
    {style : EquationStyle}
    (hslip : ¬ (s.lineStart ∧ Text.trim text = [] ∧ (s.pendingAlignment = .right ∨
      s.hasWrittenFirstLine = false ∧ text.head? ≠ some '\t')))
    (hQ : ∀ s' x' rule', rule'.Fits s' x' → Q () s' (x', rule')) :
    Obeys (t.insertEquation text style) Q s x rule := by
  refine .bind (.typingState ?_)
  by_cases htab : s.lineStart && text.head? == some '\t'
  · -- the tab is typed first, and the line was begun with it, or else right-aligned
    refine .ite_pos htab (.bind (obeys_insertText h (by simp)
      fun s₁ x₁ rule₁ hholds hs hbegun => ?_))
    refine .bind (.applyAlignment_of_lineStart hs (.bind (.typingState (.ite_neg ?_ ?_))))
    · simp [TypingState.wantsIndent, hs]
    · refine obeys_equation hholds _ _ (fun hempty => hbegun fun hgone => hslip ?_) hQ
      rw [trim_dropWhile_tab] at hempty
      refine ⟨hgone.1, hempty, .inl ?_⟩
      by_contra hright
      have hnil := hgone.2
      simp only [trimRun, if_neg hright] at hnil
      split at hnil <;> cases hnil
  · refine .ite_neg htab (obeys_indented h text style (fun hempty hs => ?_) hQ)
    refine ⟨fun hright => hslip ⟨hs, hempty, .inl hright⟩, ?_⟩
    by_contra hwritten
    exact hslip ⟨hs, hempty, .inr ⟨by simpa using hwritten, by simp_all⟩⟩

/-! ## Operations under the rule -/

/-- An operation that does not slip keeps to the rule. -/
theorem obeys_act {t : Typist Document} (h : rule.Fits s x) {op : Operation} (hop : op.isOfLines)
    (hslip : ¬ t.Slips s op) :
    Obeys (t.act op) (fun _ s' y => y.2.Fits s' y.1) s x
      (rule.after (op.request?.toList.map .asked)) := by
  have hasked (hset : ¬ s.pendingAlignment.isSet) : rule.asked = .none := by
    rw [← h.asked]
    cases hpending : s.pendingAlignment <;> simp_all [LineAlignment.isSet]
  cases op with
  | insertText text =>
    by_cases htext : text = []
    · exact .ite_pos (List.isEmpty_iff.2 htext) (.pure h)
    · exact obeys_insertText h htext fun s' x' rule' hholds hs hbegun =>
        hholds.fits (hbegun fun hgone => hslip ⟨hgone.1, htext, hgone.2⟩) rfl rfl rfl hs
  | insertEquation text style => exact obeys_insertEquation h hslip fun _ _ _ hfits => hfits
  | insertLatexEquation latex style => exact obeys_insertEquation h hslip fun _ _ _ hfits => hfits
  | breakLine => exact obeys_breakLine h.toSuits fun _ _ hfits _ _ => hfits
  | insertParagraph =>
    exact .bind (obeys_breakLine h.toSuits fun _ _ hfits _ hrest =>
      obeys_insertSpace hfits.toSuits (.inr (hrest.trans (hasked hslip))) fun _ _ _ hfits => hfits)
  | insertSmallParagraph => exact .pure h
  | insertSpace =>
    have hdue : rule.line.isSome ∨ rule.asked = .none := by
      cases hline : rule.line with
      | some _ => exact .inl rfl
      | none => exact .inr (hasked fun hset => hslip ⟨by rw [h.lineStart, hline]; rfl, hset⟩)
    exact obeys_insertSpace h.toSuits hdue fun _ _ _ hfits => hfits
  | alignRightNextLine | alignJustifyNextLine =>
    exact .updateState { h with asked := rfl, line := h.line, alignment := h.alignment }
  | _ => cases hop

end Typing

namespace Document

open Typing

variable (c : Connection) (settings : Settings) (convert : Text → Nat → Text)

/-- One operation that does not slip. -/
theorem apply_obeys {desk : Desk Document} {rule : LineRule} {op : Operation}
    (h : rule.Fits desk.state desk.target) (htoken : desk.token.IsFree) (hop : op.isOfLines)
    (hslip : ¬ (typist c settings convert).Slips desk.state op) :
    ∃ s' x', (typist c settings convert).apply op desk = (.ok (), ⟨x', desk.token, s'⟩) ∧
      rule.Passes ((typist c settings convert).doing op desk) ∧
      (rule.after ((typist c settings convert).doing op desk)).Fits s' x' := by
  have hasks : rule.Passes (op.request?.toList.map .asked) := by
    cases op.request? with
    | none => trivial
    | some _ => exact ⟨h.restoring, trivial⟩
  have hobeys : Obeys ((typist c settings convert).operation op)
      (fun _ s' y => y.2.Fits s' y.1) desk.state desk.target
      (rule.after (op.request?.toList.map .asked)) := .operation (obeys_act h hop hslip)
  obtain ⟨hpasses, ⟨_, s'⟩, x', hhold, _, rfl, hfits⟩ := Dialogue.Ensures.moments hobeys c htoken
  refine ⟨s', x', ?_, LineRule.passes_append.2 ⟨hasks, hpasses⟩, ?_⟩
  · simp only [Typist.apply, carryOut, typist, hhold]
  · rw [Typist.doing, LineRule.after_append]
    exact hfits

/-- Operations that do not slip, one after another. -/
theorem applyAll_obeys_of_fits {ops : List Operation} {desk : Desk Document} {rule : LineRule}
    (h : rule.Fits desk.state desk.target) (htoken : desk.token.IsFree)
    (hops : ∀ op ∈ ops, op.isOfLines) (hheed : (typist c settings convert).IsHeedful ops desk) :
    ((typist c settings convert).applyAll ops desk).1 = .ok () ∧
      rule.IsObeyed ((typist c settings convert).doings ops desk) := by
  induction ops generalizing desk rule with
  | nil => exact ⟨rfl, trivial, h.restoring⟩
  | cons op ops ih =>
    obtain ⟨hslip, hheed⟩ := hheed
    obtain ⟨s', x', happly, hpasses, hfits⟩ :=
      apply_obeys c settings convert h htoken (hops op List.mem_cons_self) hslip
    rw [happly] at hheed
    obtain ⟨hok, hobeys⟩ := @ih ⟨x', desk.token, s'⟩ _ hfits htoken
      (fun op hop => hops op (List.mem_cons_of_mem _ hop)) hheed
    rw [Typist.applyAll_cons, Typist.doings, happly]
    refine ⟨hok, LineRule.passes_append.2 ⟨hpasses, hobeys.passes⟩, ?_⟩
    rw [LineRule.after_append]
    exact hobeys.restored

/-- From the start of typing, operations that type lines, none of which slips, all succeed in a
    document that nobody disturbs, and keep to the rule: whatever is typed on a line has the
    alignment that was asked for last before the line was begun, up to its break, the request is
    used up by that line, and left alignment comes back before anything else happens. -/
theorem applyAll_obeys {ops : List Operation} {desk : Desk Document}
    (hcalm : desk.target.IsCalm) (hproper : desk.target.buffer.IsProper)
    (htoken : desk.token.IsFree) (hstate : desk.state = {}) (hops : ∀ op ∈ ops, op.isOfLines)
    (hheed : (typist c settings convert).IsHeedful ops desk) :
    ((typist c settings convert).applyAll ops desk).1 = .ok () ∧
      LineRule.IsObeyed { base := desk.target.alignment }
        ((typist c settings convert).doings ops desk) := by
  refine applyAll_obeys_of_fits c settings convert ?_ htoken hops hheed
  rw [hstate]
  exact ⟨⟨⟨hcalm, hproper, rfl, rfl⟩, rfl, rfl, rfl⟩, rfl⟩

/-- A document before anything is typed. -/
def blankDesk : Desk Document where
  target := { name := "doc".toList }

/-- Lines with a request before each, one of them made in the middle of a line. -/
def alignedLines : List Operation :=
  [.alignRightNextLine, .insertText "  3점".toList, .alignJustifyNextLine, .insertSpace,
    .insertText "\\t다음".toList, .insertEquation " x ".toList { ensureNewline := some true },
    .alignRightNextLine, .insertEquation "\ty".toList {}, .insertParagraph, .insertText []]

theorem applyAll_obeys_alignedLines :
    ((typist {} {} fun latex _ => latex).applyAll alignedLines blankDesk).1 = .ok () ∧
      LineRule.IsObeyed { base := .left }
        ((typist {} {} fun latex _ => latex).doings alignedLines blankDesk) :=
  applyAll_obeys {} {} (fun latex _ => latex) ⟨rfl, rfl⟩ ⟨by decide, .inl rfl⟩ ⟨rfl, rfl⟩ rfl
    (by decide) (by decide +kernel)

/-- A space at the start of a line misses the alignment that is asked for. -/
theorem not_isObeyed_space :
    ¬ LineRule.IsObeyed { base := .left } ((typist {} {} fun latex _ => latex).doings
      [.alignJustifyNextLine, .insertSpace] blankDesk) :=
  fun h => absurd h.passes (by decide +kernel)

end Document

end Scribe
