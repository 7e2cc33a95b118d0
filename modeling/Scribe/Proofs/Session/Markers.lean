import Scribe.Proofs.Repair.TemplateUse
import Scribe.Proofs.Session.Resuming
import Scribe.Proofs.Typing.Phases

set_option autoImplicit false

/-! # Markers in a session

What is typed without a disturbance leads from phase to phase of the templates, step after step.
Main statement: a run that reports success leaves no marker of a template in a document that was
fresh, when the plan of its script mentions the templates and zones that the lines mention, and the
segments with choices or requests of their own use up their templates. -/

namespace Scribe

variable {α : Type}

/-! ## Undisturbed documents -/

/-- A calm document with the standard fragments, while nobody cancels. -/
structure Outside.IsUndisturbed (o : Outside Document) : Prop where
  token : o.token = {}
  calm : o.target.IsCalm
  stocked : o.target.IsStocked

namespace Outside.IsUndisturbed

variable {o : Outside Document}

theorem fresh (name : Text) :
    (⟨.withStandardFragments name, {}⟩ : Outside Document).IsUndisturbed :=
  ⟨rfl, ⟨rfl, rfl⟩, rfl⟩

/-- An undisturbed document answers calmly, and stays undisturbed. -/
theorem answer (h : o.IsUndisturbed) (r : Request) :
    Typing.calmly.answers r o.target.buffer (o.answer (Document.editor {}) r).1
        (o.answer (Document.editor {}) r).2.target.buffer ∧
      (o.answer (Document.editor {}) r).2.IsUndisturbed := by
  obtain ⟨doc, token⟩ := o
  obtain ⟨rfl, hcalm, hstocked⟩ := h
  refine ⟨?_, ?_, ?_, ?_⟩
  · cases r with
    | call p =>
      obtain ⟨hanswer, hbuffer⟩ := Document.perform_eq_reply hcalm hstocked p
      rw [Document.answer_call]
      exact Prod.ext hanswer.symm hbuffer.symm
    | identity => rfl
    | connect wanted =>
      show (doc.connect {} wanted).2.buffer = doc.buffer
      rw [Document.connect_eq]
      split <;> rfl
  · cases r <;> rfl
  · exact ((Document.Alike.refl hcalm).answer r).2.calm_left
  · exact (hcalm.after_frame [r]).1.trans hstocked

/-- A dialogue with an undisturbed document comes to what it ensures. -/
theorem hold (h : o.IsUndisturbed) {d : Dialogue α} {Q : α → Buffer → Prop}
    (hd : d.Ensures Typing.calmly Q o.target.buffer) :
    Q (d.hold (Document.editor {}) o).1 (d.hold (Document.editor {}) o).2.target.buffer ∧
      (d.hold (Document.editor {}) o).2.IsUndisturbed := by
  refine Dialogue.Ensures.hold (v := Document.buffer) (J := IsUndisturbed) (fun o ho => ?_)
    (fun o r ho _ => ho.answer r) hd h
  rw [ho.token]
  rfl

end Outside.IsUndisturbed

/-! ## Steps -/

/-- The operations of a plan, without the argument errors in the place of others. -/
def Plan.operations (plan : Plan) : List Operation := plan.steps.filterMap Except.toOption

/-- Nothing disturbs a session, and its document is in a phase. -/
structure Session.IsIn (phase : TemplatePhase) (s : Session Document) : Prop where
  undisturbed : s.outside.IsUndisturbed
  stands : s.desk.target.buffer.Stands phase.Holds

namespace Session.IsIn

open SessionAction

variable {settings : Settings} {convert : Text → Nat → Text} {s s' : Session Document}
  {phase phase' : TemplatePhase} {op : Operation} {document : Option Text}

/-- An attempt leads from phase to phase, and no failure of it loses the session. -/
theorem attempt (hs : s.IsIn phase) (h : (Document.typist {} settings convert).TypesNoMarker op)
    (hphase : phase.run? op.layoutEvent?.toList = some phase') :
    match s.carryOut (Document.editor {})
      (attempt (Document.typist {} settings convert) (.ok op)) with
    | (.ok (), s') => s'.IsIn phase'
    | (.error e, _) => e.isGone = false := by
  have hyields := Typing.yields_operation _ h hphase s.desk.state _ hs.stands
  obtain ⟨hend, hundisturbed⟩ := hs.undisturbed.hold hyields
  rw [carryOut_attempt_ok]
  obtain ⟨⟨⟨r, state⟩, o⟩, hheld⟩ : ∃ r, (((Document.typist {} settings convert).operation
    op).run.run s.desk.state).hold (Document.editor {}) s.outside = r := ⟨_, rfl⟩
  rw [hheld] at hend hundisturbed
  rw [hheld]
  cases r with
  | ok _ => exact ⟨hundisturbed, hend⟩
  | error e => exact hend

/-- A step that succeeds is an operation that leads from phase to phase. -/
theorem typeStep (hs : s.IsIn phase) {step : Step} {index : Nat} {again : Bool}
    (h : ∀ op, step = .ok op → (Document.typist {} settings convert).TypesNoMarker op)
    (hphase : phase.run? (step.toOption.toList.filterMap Operation.layoutEvent?) = some phase')
    (hrun : s.carryOut (Document.editor {}) (typeStep (Document.typist {} settings convert) document
      index step) = (.ok again, s')) : s'.IsIn phase' := by
  have hstep := stepRun_typeStep (Document.typist {} settings convert) document index step s
  rw [hrun] at hstep
  cases step with
  | error e =>
    rcases hstep.of_ok with ⟨-, hattempt⟩ | ⟨-, e', s₁, s₂, hattempt, -⟩
    · cases hattempt
    · cases hattempt
  | ok op =>
    have hevents : phase.run? op.layoutEvent?.toList = some phase' := by
      rw [← hphase]
      cases hevent : op.layoutEvent? <;> simp [Except.toOption, hevent]
    have hend := hs.attempt (h op rfl) hevents
    rcases hstep.of_ok with ⟨-, hattempt⟩ | ⟨-, e, s₁, s₂, hattempt, hgone, -⟩
    · rw [hattempt] at hend
      exact hend
    · -- the document never dies, so there is no second attempt
      rw [hattempt] at hend
      cases hgone.symm.trans hend

/-- Steps that succeed lead from phase to phase. -/
theorem typeSteps (hs : s.IsIn phase) {steps : List Step} {index : Nat} {reattached again : Bool}
    (h : ∀ op ∈ steps.filterMap Except.toOption,
      (Document.typist {} settings convert).TypesNoMarker op)
    (hphase : phase.run?
      ((steps.filterMap Except.toOption).filterMap Operation.layoutEvent?) = some phase')
    (hrun : s.carryOut (Document.editor {}) (typeSteps (Document.typist {} settings convert)
      document index reattached steps) = (.ok again, s')) : s'.IsIn phase' := by
  induction steps generalizing s phase index reattached with
  | nil =>
    obtain rfl := Option.some.inj hphase
    cases hrun
    exact hs
  | cons step steps ih =>
    rw [carryOut_typeSteps_cons (t := Document.typist {} settings convert)] at hrun
    have hparts : (step :: steps).filterMap Except.toOption =
        step.toOption.toList ++ steps.filterMap Except.toOption := by
      cases step <;> rfl
    rw [hparts, List.filterMap_append, TemplatePhase.run?_append] at hphase
    obtain ⟨middle, hfirst, hrest⟩ := Option.bind_eq_some_iff.1 hphase
    rw [hparts] at h
    rcases hstep : s.carryOut (Document.editor {}) (SessionAction.typeStep
      (Document.typist {} settings convert) document index step) with ⟨_ | a, s₁⟩
    · rw [hstep] at hrun
      cases hrun
    · rw [hstep] at hrun
      have hs₁ : s₁.IsIn middle := by
        refine hs.typeStep (fun op hop => h op ?_) hfirst hstep
        simp [hop, Except.toOption]
      exact ih hs₁ (fun op hop => h op (List.mem_append_right _ hop)) hrest hrun

/-- Attaching changes nothing of this. -/
theorem ensureAttached (hs : s.IsIn phase) (document : Option Text) :
    (s.carryOut (Document.editor {}) (ensureAttached document)).2.IsIn phase := by
  have hattach :
      (s.carryOut (Document.editor {}) (SessionAction.attach document)).2.IsIn phase := by
    obtain ⟨hbuffer, hundisturbed⟩ := hs.undisturbed.answer (.connect document)
    rw [carryOut_attach]
    obtain ⟨⟨r, x⟩, hconnect⟩ : ∃ r, (Document.editor {}).connect document s.desk.target = r :=
      ⟨_, rfl⟩
    have hx : ((Document.editor {}).connect document s.desk.target).2 = x := by rw [hconnect]
    have hstands : x.buffer.Stands phase.Holds := by
      have hsame : ((Document.editor {}).connect document s.desk.target).2.buffer =
        s.desk.target.buffer := hbuffer
      rw [hx] at hsame
      rw [hsame]
      exact hs.stands
    have hundisturbed : (⟨x, s.desk.token⟩ : Outside Document).IsUndisturbed := hx ▸ hundisturbed
    rw [hconnect]
    cases r with
    | ok _ => exact ⟨hundisturbed, hstands⟩
    | error e => exact ⟨hundisturbed, hstands⟩
  rw [SessionAction.ensureAttached, carryOut_bind, carryOut_isHealthy]
  split
  · exact hs
  · exact hattach

end Session.IsIn

/-! ## Runs -/

namespace Session

/-- A run that reports success leaves no marker of a template behind. -/
theorem isMarkerFree_of_isOk_run (settings : Settings) (convert : Text → Nat → Text)
    (script name : Text) (document : Option Text) (s : Session Document) (plan : Plan)
    (hfresh : s.outside = ⟨.withStandardFragments name, {}⟩)
    (hplan : Plan.ofScript (normalize script) = .ok plan)
    (htypes : ∀ op ∈ plan.operations, (Document.typist {} settings convert).TypesNoMarker op)
    (hread : plan.operations.filterMap Operation.layoutEvent? =
      Repair.layoutEvents (Text.lines (normalize script)))
    (hsegments : ∀ segment ∈ Repair.segments (Text.lines (normalize script)), ∀ line ∈ segment,
      Repair.insertsChoice line ∨ Repair.requestsCustom line → Repair.UsesUp segment)
    (hok : (s.run (Document.typist {} settings convert) .full script document).1.isOk) :
    (s.run (Document.typist {} settings convert) .full script
      document).2.desk.target.buffer.text.IsMarkerFree := by
  have hrun : s.run (Document.typist {} settings convert) .full script document =
      s.carryOut (Document.editor {}) (SessionAction.typePlan (Document.typist {} settings convert)
        (normalize script) plan document) := by
    have hread : Plan.ofScript (Pipeline.full.run script) = .ok plan := hplan
    simp only [run, SessionAction.typeScript, hread]
    rfl
  have hcompletes : Completes (plan.operations.filterMap Operation.layoutEvent?) := by
    rw [hread]
    obtain ⟨round, hround⟩ := Repair.exists_lines_normalize script
    rw [hround] at hsegments ⊢
    exact Repair.completes_of_hasZoneStructure (Repair.hasZoneStructure_roundLines round) hsegments
  -- the fresh document has no elements at all
  have hs : s.IsIn .clean := by
    refine ⟨hfresh ▸ .fresh name, [], [], ?_, Element.parted_nil _, Element.areClean_nil⟩
    have htarget : s.desk.target = .withStandardFragments name := congrArg Outside.target hfresh
    rw [htarget]
    exact ⟨rfl, rfl, rfl⟩
  rw [hrun] at hok ⊢
  obtain ⟨s₁, again, hattach, hsteps⟩ := SessionAction.carryOut_typePlan_of_isOk
    (t := Document.typist {} settings convert) hok
  have hs₁ : s₁.IsIn .clean := by
    have hattached := hs.ensureAttached document
    rwa [hattach] at hattached
  obtain ⟨behind, ahead, hb, -, hclean⟩ := (hs₁.typeSteps htypes hcompletes hsteps).stands
  show Text.IsMarkerFree (Element.renderAll _)
  rw [hb.elements]
  exact hclean.isMarkerFree

/-- A header with a box, a list item and choices. -/
def headerScript : Text :=
  ("insert_template('header.hwp')\ninsert_box()\ninsert_text('a')\nexit_box()\n" ++
    "insert_text('ㄱ. b')\ninsert_text('①')").toList

theorem isMarkerFree_run_header :
    (onFreshDocument.run (Document.typist {} {} fun latex _ => latex) .full headerScript
      none).1.isOk ∧
    (onFreshDocument.run (Document.typist {} {} fun latex _ => latex) .full headerScript
      none).2.desk.target.buffer.text.IsMarkerFree := by
  have hcheck : (Plan.ofScript (normalize headerScript)).toOption.any (fun plan =>
      plan.operations.all (fun op => op.literals.all (fun text => text.IsGlyphFree) &&
        (Document.typist {} {} fun latex _ => latex).equation op = []) &&
      plan.operations.filterMap Operation.layoutEvent? =
        Repair.layoutEvents (Text.lines (normalize headerScript))) = true := by decide +kernel
  have hok : (onFreshDocument.run (Document.typist {} {} fun latex _ => latex) .full headerScript
    none).1.isOk := by decide +kernel
  have hsegments : ∀ segment ∈ Repair.segments (Text.lines (normalize headerScript)),
      ∀ line ∈ segment, Repair.insertsChoice line ∨ Repair.requestsCustom line →
        Repair.UsesUp segment := by decide +kernel
  cases hplan : Plan.ofScript (normalize headerScript) with
  | error failure =>
    rw [hplan] at hcheck
    cases hcheck
  | ok plan =>
    rw [hplan] at hcheck
    simp only [Except.toOption, Option.any_some, Bool.and_eq_true, decide_eq_true_eq,
      List.all_eq_true] at hcheck
    obtain ⟨htypes, hread⟩ := hcheck
    have htypes (op : Operation) (hop : op ∈ plan.operations) :
        (Document.typist {} {} fun latex _ => latex).TypesNoMarker op := by
      obtain ⟨hliterals, hequation⟩ := htypes op hop
      refine ⟨hliterals, ?_⟩
      rw [hequation]
      exact Text.IsGlyphFree.isMarkerFree nofun
    exact ⟨hok, isMarkerFree_of_isOk_run {} _ headerScript _ none onFreshDocument plan rfl hplan
      htypes hread hsegments hok⟩

/-- Choices in a box in front of the inside zone of a header. -/
def boxedChoiceScript : Text :=
  "insert_template('header.hwp')\ninsert_box()\ninsert_text('①')\nexit_box()".toList

/-- In a box, choices do not enter the after zone, and behind choices it is not settled: the markers
    of two zones are left behind. -/
theorem not_isMarkerFree_run_boxedChoice :
    (Plan.ofScript (normalize boxedChoiceScript)).toOption.any (fun plan =>
      plan.operations.all fun op => op.literals.all fun text => text.IsGlyphFree) ∧
    (onFreshDocument.run (Document.typist {} {} fun latex _ => latex) .full boxedChoiceScript
      none).1.isOk ∧
    ¬ (onFreshDocument.run (Document.typist {} {} fun latex _ => latex) .full boxedChoiceScript
      none).2.desk.target.buffer.text.IsMarkerFree := by
  have htext : (onFreshDocument.run (Document.typist {} {} fun latex _ => latex) .full
      boxedChoiceScript none).2.desk.target.buffer.text = "[ ①]\n\n[".toList ++
        Zone.inside.marker ++ "]\n&&&".toList := by decide +kernel
  refine ⟨by decide +kernel, by decide +kernel, fun hfree => ?_⟩
  rw [htext] at hfree
  exact hfree .inside (List.infix_append _ _ _)

end Session

end Scribe
