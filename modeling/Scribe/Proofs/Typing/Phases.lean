import Scribe.Proofs.Script.Layout
import Scribe.Proofs.Typing.TemplateZones

set_option autoImplicit false

/-! # Typing a template

Each phase in the life of a template says what stands in the document. Main statement: an operation
leads from phase to phase, whatever it types. -/

namespace Scribe

open Element

variable {σ : Type}

/-- What stands in the document in a phase. -/
def TemplatePhase.Holds : TemplatePhase → List Element → List Element → Prop
  | .clean => Placed AreClean
  | .fresh flavor => Placed (Fresh flavor)
  | .opened flavor => Placed (Opened flavor)
  | .within depth => Awaits (Encloses depth)

/-! ## Actions -/

namespace Typing

open Buffer

variable {t : Typist σ} {n : Nat} {flavor : TemplateFlavor}

theorem yields_closeEx (n : Nat) :
    Yields (Stands (Awaits (Covers (n + 1)))) (tryRun .closeEx) fun left b =>
      if left = true then b.Stands (Awaits (Covers n))
      else b.Stands (Awaits (Covers (n + 1))) := by
  refine .tryRun fun b hb => ?_
  show if b.leaveTable.1 = true then b.leaveTable.2.Stands _ else b.leaveTable.2.Stands _
  rcases hb.leaveTable with hstay | ⟨hleft, hleave⟩
  · rw [hstay]
    exact hb
  · rwa [if_pos hleft]

theorem yields_moveDown (n : Nat) :
    Yields (Stands (Awaits (Covers n))) (discard (tryRun .moveDown))
      fun _ => Stands (Awaits (Encloses n)) :=
  .discard (.tryRun fun _ hb => hb.moveDown)

/-- Moves from cell to cell stay in the table. -/
theorem spares_moveCells {command : Command}
    (hcommand : command ∈ [.tableRightCell, .tableLowerCell, .tableLeftCell]) :
    Spares calmly (Stands (Awaits (Covers (n + 1)))) (.run command) := by
  refine spares_calmly fun b hb => ?_
  rw [b.reply_run]
  simp only [List.mem_cons, List.not_mem_nil, or_false] at hcommand
  rcases hcommand with rfl | rfl | rfl <;> exact hb.moveCells _

theorem yields_lowerCell (n : Nat) :
    Yields (Stands (Awaits (Covers (n + 1)))) (tryRun .tableLowerCell)
      fun _ => Stands (Awaits (Covers (n + 1))) :=
  (Yields.composes _).tryRun (spares_moveCells (by simp))

/-- At most one table is left with a container. -/
theorem yields_closeContainer (n : Nat) : Yields (Stands (Awaits (Encloses (n + 1))))
    closeContainer fun _ => Stands (Awaits (Encloses n)) := by
  have hleave : Yields (Stands (Awaits (Encloses (n + 1)))) leaveCell
      fun _ => Stands (Awaits (Covers n)) := by
    refine ((yields_closeEx n).pre fun _ hb => hb.awaits_mono fun _ h => h.covers).bind
      fun left => ?_
    cases left with
    | true => exact .pure fun _ hb => by simpa using hb
    | false =>
      exact (yields_lowerCell n).mono (fun _ hb => by simpa using hb)
        fun _ _ hb => hb.awaits_mono fun _ h => h.of_succ
  -- whether a table was left or not, what follows makes no call
  have hkept := Yields.composes (Stands (Awaits (Encloses n)))
  have hbehind (closed : Bool) : Yields (Stands (Awaits (Encloses n))) (do
      updateState .leaveContainer
      unless closed do throw .noContainer
      updateState .startLine) fun _ => Stands (Awaits (Encloses n)) :=
    hkept.bind (.updateState _) fun _ =>
      hkept.ite (.updateState _) (hkept.bind (hkept.throw nofun rfl) fun _ => .updateState _)
  refine hleave.bind fun closed => .ite (fun _ => ?_) fun _ => ?_
  · exact (yields_moveDown n).bind fun _ => hbehind closed
  · exact (hbehind closed).pre fun _ hb => hb.awaits_mono fun _ h => h.encloses

/-- A container that is opened is around the cursor. -/
theorem yields_openContainer (t : Typist σ) (framed : Bool) (n : Nat) :
    Yields (Stands (Awaits (Encloses n))) (t.openContainer framed)
      fun _ => Stands (Awaits (Encloses (n + 1))) := by
  have hkept := Yields.composes (Stands (Awaits (Encloses (n + 1))))
  have hbehind : Yields (Stands (Awaits (Encloses (n + 1)))) (do
      updateState fun s => s.enterContainer.markWritten
      t.boxTextStyle
      compactParagraph
      if framed then discard (tryRun .alignJustify))
      fun _ => Stands (Awaits (Encloses (n + 1))) :=
    hkept.bind (.updateState _) fun _ => hkept.bind (hkept.boxTextStyle t) fun _ =>
      hkept.bind hkept.compactParagraph fun _ => hkept.when (hkept.run (hkept.format rfl))
  have hinsert : Yields (Stands (Awaits (Encloses n)))
      (require (.insertFragment (t.templatePath
        (if framed then Typist.framedFragment else Typist.plainFragment))))
      fun found b => found = true ∧ b.moveToCell.1 = true ∧
        b.moveToCell.2.Stands (Awaits (Encloses (n + 1))) := by
    refine .require fun b found b' hb hr => ?_
    rw [b.reply_container] at hr
    obtain ⟨hfound, rfl⟩ := Prod.mk.inj hr
    obtain ⟨hmoved, hstands⟩ := hb.openContainer framed
    exact ⟨(Except.ok.inj hfound).symm, hmoved, hstands.awaits_mono fun _ h => h.encloses⟩
  have hmove : Yields (fun b => b.moveToCell.1 = true ∧
      b.moveToCell.2.Stands (Awaits (Encloses (n + 1)))) (tryRun .moveToCell)
      fun moved b => moved = true ∧ b.Stands (Awaits (Encloses (n + 1))) :=
    .tryRun fun b hb => hb
  refine hinsert.bind fun found => .ite (fun hfound => ?_) fun hmissed => ?_
  · refine (hmove.bind fun moved => .ite (fun _ => ?_) fun hstuck => ?_).pre fun _ hb => hb.2
    · exact hbehind.pre fun _ hb => hb.2
    · exact .of_forall_not fun _ hb => hstuck hb.1
  · exact .of_forall_not fun _ hb => hmissed hb.1

/-- A table that is typed is left at most once. -/
theorem yields_exitTable (n : Nat) : Yields (Stands (Awaits (Covers (n + 1)))) exitTable
    fun _ => Stands (Awaits (Encloses n)) := by
  have hdown := yields_moveDown n
  refine (yields_closeEx n).bind fun left => .ite (fun hleft => ?_) fun hstays => ?_
  · exact hdown.pre fun _ hb => by rwa [if_pos hleft] at hb
  · -- a move to the cell below may stay in the table; then leaving is tried once more
    have hcovered {b : Buffer} (hb : b.Stands (Awaits (Covers (n + 1)))) :
        b.Stands (Awaits (Encloses n)) := hb.awaits_mono fun _ h => h.of_succ.encloses
    refine ((yields_lowerCell n).pre fun _ hb => by rwa [if_neg hstays] at hb).bind fun _ =>
      .ite (fun _ => ?_) fun _ => .pure fun _ => hcovered
    refine (yields_closeEx n).bind fun left => .ite (fun hleft => ?_) fun hstays => ?_
    · exact hdown.pre fun _ hb => by rwa [if_pos hleft] at hb
    · refine .pure fun _ hb => ?_
      rw [if_neg hstays] at hb
      exact hcovered hb

/-- A table is typed in front of what waits. -/
theorem yields_insertTable (t : Typist σ) {spec : TableSpec}
    (h : t.TypesNoMarker (.insertTable spec)) (n : Nat) :
    Yields (Stands (Awaits (Encloses n))) (t.insertTable spec)
      fun _ => Stands (Awaits (Encloses n)) := by
  have houtside := Yields.composes (Stands (Awaits (Encloses n)))
  have hinside := Yields.composes (Stands (Awaits (Covers (n + 1))))
  have hcreate (rows cols : Nat) : Yields (Stands (Awaits (Encloses n)))
      (discard (require (.createTable rows cols))) fun _ => Stands (Awaits (Covers (n + 1))) := by
    refine .discard (.require fun b found b' hb hr => ?_)
    rcases b.reply_createTable rows cols with htable | ⟨e, hrefused⟩
    · obtain rfl := (Prod.mk.inj (htable.symm.trans hr)).2
      exact hb.insertTable_awaits cols _
    · cases hrefused.symm.trans hr
  have hcell : ∀ row ∈ spec.cells, ∀ value ∈ row,
      Yields (Stands (Awaits (Covers (n + 1)))) (t.fillCell spec.alignCenter value)
        fun _ => Stands (Awaits (Covers (n + 1))) := by
    intro row hrow value hvalue
    have hfree : value.IsGlyphFree := h.literals value (List.mem_flatten.2 ⟨row, hrow, hvalue⟩)
    refine hinside.fillCell t _ (spares_breakPara accepts_awaits)
      (fun run hrun => spares_insertText accepts_awaits fun c hc => ?_)
      fun equation hequation => .insertObject accepts_awaits (hfree.isMarkerFree.of_infix hequation)
    have hmem := hrun hc
    simp only [List.mem_cons] at hmem
    rcases hmem with rfl | rfl | hmem
    · decide
    · decide
    · exact hfree c hmem
  have hmove {command : Command}
      (hcommand : command ∈ [.tableRightCell, .tableLowerCell, .tableLeftCell]) :
      Spares calmly (Stands (Awaits (Covers (n + 1)))) (.run command) := spares_moveCells hcommand
  have hspace : Spares calmly (Stands (Awaits (Encloses n))) (.insertText [' ']) :=
    spares_insertText accepts_awaits (by decide)
  refine .ite (fun _ => ?_) fun _ => houtside.bind (houtside.throw nofun rfl) fun _ => ?_
  all_goals
    refine houtside.bind houtside.typingState fun s =>
      .ite (fun _ => houtside.bind (houtside.write hspace) fun _ => ?_) fun _ => ?_
    all_goals
      refine (hcreate _ _).bind fun _ => ?_
      refine (Yields.updateState _).bind fun _ => ?_
      refine Yields.bind (hinside.discard (hinside.bestEffort (hinside.format rfl))) fun _ => ?_
      refine Yields.bind (hinside.fillRows t _ _ _ (hmove (by simp)) (hmove (by simp))
        (hmove (by simp)) hcell) fun _ => .ite (fun _ => ?_) fun _ => ?_
      · refine (yields_exitTable n).bind fun _ => ?_
        exact houtside.bind (houtside.run (houtside.format rfl)) fun _ => .updateState _
      · exact .pure fun _ hb => hb.awaits_mono fun _ h => h.of_succ.encloses

/-- What is done behind a plain template: the marker that it brought along is taken out, and the
    cursor is put at the start. -/
theorem yields_cleanUp : Yields
    (fun b' => ∃ b : Buffer, b.Stands (Placed AreClean) ∧
      b' = b.insert (templateFront ++ mark .after))
    (do
      discard (tryRun .moveDocBegin)
      if ← findAny Zone.after.markerVariants then discard (tryRun .delete)
      discard (tryRun .moveDocBegin))
    fun _ => Stands (Placed (Fresh .plain)) := by
  -- nothing else of the document has its glyphs, so the search finds the new marker
  have hbegin : Yields (fun b' => ∃ b : Buffer,
        b.Stands (Placed AreClean) ∧ b' = b.insert (templateFront ++ mark .after))
      (discard (tryRun .moveDocBegin)) fun _ b => ∃ b',
        b.erase? Zone.after.markerVariants = some b' ∧
          (b'.goTo 0).Stands (Placed (Fresh .plain)) := by
    refine .discard (.tryRun ?_)
    rintro _ ⟨b, hb, rfl⟩
    exact hb.insert_plain
  have hsearch : Yields (fun b => ∃ b', b.erase? Zone.after.markerVariants = some b' ∧
        (b'.goTo 0).Stands (Placed (Fresh .plain)))
      (findAny Zone.after.markerVariants) fun found b => found = true ∧
        ((b.run .delete).2.goTo 0).Stands (Placed (Fresh .plain)) := by
    refine .findAny ?_
    rintro b ⟨b', herase, hb'⟩
    unfold erase? at herase
    split at herase
    · next hany =>
      obtain rfl := Option.some.inj herase
      exact ⟨hany, hb'⟩
    · cases herase
  have hdelete : Yields (fun b => ((b.run .delete).2.goTo 0).Stands (Placed (Fresh .plain)))
      (discard (tryRun .delete)) fun _ b => (b.goTo 0).Stands (Placed (Fresh .plain)) :=
    .discard (.tryRun fun _ hb => hb)
  have hend : Yields (fun b => (b.goTo 0).Stands (Placed (Fresh .plain)))
      (discard (tryRun .moveDocBegin)) fun _ => Stands (Placed (Fresh .plain)) :=
    .discard (.tryRun fun _ hb => hb)
  refine hbegin.bind fun _ => hsearch.bind fun found => .ite (fun _ => ?_) fun hmissed => ?_
  · exact (hdelete.bind fun _ => hend).pre fun _ hb => hb.2
  · exact .of_forall_not fun _ hb => hmissed hb.1

/-- A template waits for its requests in a document that was clean. -/
theorem yields_insertTemplate (t : Typist σ) (template : Template) :
    Yields (Stands (Placed AreClean)) (t.insertTemplate template)
      fun _ => Stands (Placed (Fresh template.flavor)) := by
  have hinsert : Yields (Stands (Placed AreClean))
      (require (.insertFragment (t.templatePath template.fileName))) fun found b' =>
        found = true ∧ ∃ b : Buffer, b.Stands (Placed AreClean) ∧
          b' = b.insert (templateFront ++ mark .after) := by
    refine .require fun b found b' hb hr => ?_
    have hreply : b.reply (.insertFragment (t.templatePath template.fileName)) =
        (.ok true, b.insert (templateFront ++ mark .after)) := by
      cases template <;>
        exact b.reply_insertFragment t ⟨by decide, by decide, by decide, by decide⟩ rfl
    obtain ⟨hfound, rfl⟩ := Prod.mk.inj (hreply.symm.trans hr)
    exact ⟨(Except.ok.inj hfound).symm, b, hb, rfl⟩
  refine hinsert.bind fun found => .ite (fun hfound => ?_) fun hmissed => ?_
  · cases template.flavor with
    | framed =>
      refine .pure ?_
      rintro _ ⟨-, b, hb, rfl⟩
      exact hb.insert_framed
    | plain => exact yields_cleanUp.pre fun _ hb => hb.2
  · exact .of_forall_not fun _ hb => hmissed hb.1

/-! ## Operations -/

variable {op : Operation} {phase phase' : TemplatePhase}

theorem exists_placed (hphase : ∀ n, phase ≠ .within n) :
    ∃ G, Admits G ∧ phase.Holds = Placed G := by
  cases phase with
  | clean => exact ⟨_, admits_areClean, rfl⟩
  | fresh flavor => exact ⟨_, admits_fresh flavor, rfl⟩
  | opened flavor => exact ⟨_, admits_opened flavor, rfl⟩
  | within n => exact absurd rfl (hphase n)

/-- Before its inside zone is requested, a template does not mind what is not about templates. -/
theorem yields_unzoned (t : Typist σ) (h : t.TypesNoMarker op) (hop : op.isZoning = false)
    (hphase : ∀ n, phase ≠ .within n) :
    Yields (Stands phase.Holds) (t.act op) fun _ => Stands phase.Holds := by
  obtain ⟨G, hG, hholds⟩ := exists_placed hphase
  rw [hholds]
  exact .unzoned hG.accepts roams_placed hop h

theorem TemplatePhase.run?_of_isZoning (hop : op.isZoning = false)
    (hphase : ∀ n, phase ≠ .within n) : phase.run? op.layoutEvent?.toList = some phase := by
  have hevent : op.layoutEvent? = none ∨ op.layoutEvent? = some .opening ∨
      op.layoutEvent? = some .exit := by
    cases op with
    | insertTemplate _ => cases hop
    | focusPlaceholder _ => cases hop
    | openContainer => exact .inr (.inl rfl)
    | openFramedContainer => exact .inr (.inl rfl)
    | closeContainer => exact .inr (.inr rfl)
    | _ => exact .inl rfl
  rcases hevent with hnone | hopening | hexit
  · rw [hnone]
    rfl
  · rw [hopening]
    exact TemplatePhase.run?_container (.inl rfl) hphase
  · rw [hexit]
    exact TemplatePhase.run?_container (.inr rfl) hphase

/-- A request leads from phase to phase. -/
theorem stands_focus {b : Buffer} {placeholder : Placeholder} (hb : b.Stands phase.Holds)
    (hphase : phase.step? (.focus placeholder) = some phase') :
    (b.focus placeholder).Stands phase'.Holds := by
  cases phase with
  | clean =>
    obtain rfl := Option.some.inj hphase
    exact hb.focus_of_sheds fun needle _ _ => sheds_areClean needle
  | fresh flavor =>
    rcases placeholder with (_ | _ | _) | marker
    · cases hphase
      exact hb.focus_before
    · cases hphase
    · cases hphase
    · obtain ⟨hinline, hsame⟩ := Option.ite_none_right_eq_some.1 hphase
      obtain rfl := Option.some.inj hsame
      exact hb.focus_custom (sheds_fresh flavor hinline)
  | opened flavor =>
    rcases placeholder with (_ | _ | _) | marker
    · cases hphase
    · cases hphase
      cases flavor with
      | framed => exact hb.focus_inside_framed
      | plain => exact hb.focus_inside_plain
    · cases hphase
    · obtain ⟨hinline, hsame⟩ := Option.ite_none_right_eq_some.1 hphase
      obtain rfl := Option.some.inj hsame
      exact hb.focus_custom (sheds_opened flavor hinline)
  | within n =>
    rcases placeholder with (_ | _ | _) | _ <;> cases hphase
    exact hb.focus_after

/-- An operation leads from phase to phase. -/
theorem yields_act (t : Typist σ) (h : t.TypesNoMarker op)
    (hphase : phase.run? op.layoutEvent?.toList = some phase') :
    Yields (Stands phase.Holds) (t.act op) fun _ => Stands phase'.Holds := by
  have hfocus (placeholder : Placeholder)
      (hstep : phase.run? [.focus placeholder] = some phase') :
      Yields (Stands phase.Holds) (focusPlaceholder placeholder) fun _ => Stands phase'.Holds :=
    .focusPlaceholder fun b hb => stands_focus hb (phase.run?_singleton _ ▸ hstep)
  by_cases hwithin : ∃ n, phase = .within n
  · -- inside the frame every table counts, so the operations that bring or leave one stand alone
    obtain ⟨n, rfl⟩ := hwithin
    cases op with
    | insertTemplate _ => cases hphase
    | focusPlaceholder placeholder => exact hfocus placeholder hphase
    | openContainer =>
      cases hphase
      exact yields_openContainer t false n
    | openFramedContainer =>
      cases hphase
      exact yields_openContainer t true n
    | closeContainer =>
      cases n with
      | zero => cases hphase
      | succ n =>
        cases hphase
        exact yields_closeContainer n
    | insertTable spec =>
      cases hphase
      exact yields_insertTable t h n
    | _ =>
      cases hphase
      exact .plain accepts_awaits rfl h
  · have hnot (n : Nat) : phase ≠ .within n := fun heq => hwithin ⟨n, heq⟩
    cases op with
    | insertTemplate template =>
      have hstep : phase.step? (.template (some template)) = some phase' :=
        phase.run?_singleton _ ▸ hphase
      cases phase with
      | clean =>
        cases hstep
        exact yields_insertTemplate t template
      | fresh flavor => cases hstep
      | opened flavor => cases hstep
      | within n => exact absurd rfl (hnot n)
    | focusPlaceholder placeholder => exact hfocus placeholder hphase
    | _ =>
      rw [TemplatePhase.run?_of_isZoning rfl hnot] at hphase
      obtain rfl := Option.some.inj hphase
      exact yields_unzoned t h rfl hnot

/-- An operation that is carried out leads from phase to phase. -/
theorem yields_operation (t : Typist σ) (h : t.TypesNoMarker op)
    (hphase : phase.run? op.layoutEvent?.toList = some phase') :
    Yields (Stands phase.Holds) (t.operation op) fun _ => Stands phase'.Holds := by
  intro s b hb
  rw [Typist.run_operation]
  rintro cancelled rfl
  refine ((yields_act t h hphase s b hb).mono ?_).bind
  rintro ⟨_ | _, s'⟩ b' hend
  · exact hend
  · exact hend

end Typing

end Scribe
