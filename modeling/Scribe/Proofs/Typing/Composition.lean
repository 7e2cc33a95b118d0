import Scribe.Proofs.Text.Lines
import Scribe.Typing.Apply

set_option autoImplicit false

/-! # Properties of typing that compose

Many properties of actions of typing are kept when actions are put together: it is enough that the
calls have them. Which calls each action makes, and how it changes the state, is said here once,
action by action. -/

namespace Scribe

variable {σ : Type}

/-- Does a call only bring a format into force? -/
def Primitive.isFormat : Primitive → Bool
  | .charShape _ | .paraShape _ | .cellFormat _ => true
  | .run command => command ∈ [.alignLeft, .alignRight, .alignCenter, .alignJustify]
  | _ => false

/-- Does a command move the cursor only, from line to line or from table to table? -/
def Command.isMove : Command → Bool
  | .moveDocBegin | .moveDown | .moveToCell | .closeEx | .tableRightCell | .tableLowerCell
  | .tableLeftCell => true
  | _ => false

theorem LineAlignment.isFormat_of_command? {alignment : LineAlignment} {command : Command}
    (h : alignment.command? = some command) : (Primitive.run command).isFormat := by
  cases alignment <;> cases h <;> rfl

/-! ## Parts of texts -/

theorem Text.suffix_of_stripStart? {lead s rest : Text} (h : Text.stripStart? lead s = some rest) :
    rest <:+ s := by
  rw [Text.stripStart?, Option.ite_none_right_eq_some, Option.some.injEq] at h
  exact h.2 ▸ List.drop_suffix _ _

theorem Text.trim_infix (s : Text) : s.trim <:+: s := by
  obtain ⟨a, b, -, -, h⟩ := exists_eq_append_trim s
  exact ⟨a, b, h.symm⟩

theorem dropSpace_subset (text : Text) : dropSpace text ⊆ text := by
  unfold dropSpace
  split
  · exact List.subset_cons_self _ _
  · exact List.Subset.refl _

theorem Typing.trimRun_subset (alignment : LineAlignment) (s : TypingState) (text : Text) :
    trimRun alignment s text ⊆ text := by
  have hgaps : text.dropWhile Text.isGap ⊆ text := (List.dropWhile_sublist _).subset
  unfold trimRun
  split <;> split
  · exact List.Subset.trans (dropSpace_subset _) hgaps
  · exact hgaps
  · exact dropSpace_subset _
  · exact List.Subset.refl _

theorem readTab_subset (text : Text) : readTab text ⊆ '\t' :: text := by
  unfold readTab
  split
  · exact List.cons_subset_cons _ fun c hc => by simp [hc]
  · exact List.cons_subset_cons _ fun c hc => by simp [hc]
  · exact List.subset_cons_self _ _

/-! ## What operations type -/

/-- Does an operation leave containers, templates, zones and tables alone? -/
def Operation.isPlain : Operation → Bool
  | .openContainer | .openFramedContainer | .closeContainer | .insertTemplate _
  | .focusPlaceholder _ | .insertTable _ => false
  | _ => true

/-- Does an operation put in a template, or go on at a placeholder? -/
def Operation.isZoning : Operation → Bool
  | .insertTemplate _ | .focusPlaceholder _ => true
  | _ => false

/-- The texts that an operation types as they are given. -/
def Operation.literals : Operation → List Text
  | .insertText text => [text]
  | .insertTable spec => spec.cells.flatten
  | _ => []

/-- The equation that an operation makes. -/
def Typist.equation (t : Typist σ) : Operation → Text
  | .insertEquation text _ => text
  | .insertLatexEquation latex _ => t.convert latex t.settings.converter.timeoutMs
  | _ => []

/-! ## Placeholders -/

namespace Placeholder

/-- The texts by which a placeholder is found. -/
def needles : Placeholder → List Text
  | .zone z => z.markerVariants
  | .custom marker => [marker]

/-- The zone that a placeholder stands for. -/
def zone? : Placeholder → Option Zone
  | .zone z => some z
  | .custom _ => none

end Placeholder

theorem Typing.focusPlaceholder_eq (placeholder : Placeholder) :
    focusPlaceholder placeholder = (do
      if ← findAny placeholder.needles then eraseMarker
      else if placeholder.zone? != some .after then
        discard (tryRun .moveDocBegin)
        if ← findAny placeholder.needles then eraseMarker
        else if placeholder.zone? == some .inside then discard (tryRun .moveToCell)
      updateState fun s => s.enterZone placeholder.zone?) := by
  cases placeholder <;> rfl

/-! ## Composition -/

/-- A property of actions that composes: putting actions together keeps it, every call in `K` has
    it, and so has every change of the state that does not enter or leave a container. -/
structure Typing.Composes (K : Primitive → Prop) (P : (α : Type) → Typing α → Prop) : Prop where
  format {p : Primitive} : p.isFormat → K p
  pure {α : Type} (a : α) : P α (pure a)
  throw {α : Type} {e : TypingError} : e ≠ .cancelled → e.isGone = false → P α (throw e)
  bind {α β : Type} {m : Typing α} {f : α → Typing β} :
    P α m → (∀ a, P β (f a)) → P β (m >>= f)
  /-- A change that goes by the state that was read before. -/
  revise {α : Type} {g : TypingState → TypingState} {f : TypingState → Typing α} :
    (∀ s, (g s).insideContainer = s.insideContainer) → (∀ s, P α (f s)) →
    P α (do let s ← typingState; updateState fun _ => g s; f s)
  typingState : P _ typingState
  updateState {f : TypingState → TypingState} :
    (∀ s, (f s).insideContainer = s.insideContainer) → P _ (updateState f)
  require {p : Primitive} : K p → P _ (require p)
  tryRun {command : Command} : K (.run command) → P _ (tryRun command)
  bestEffort {p : Primitive} : K p → P _ (bestEffort p)

namespace Typing.Composes

variable {K : Primitive → Prop} {P : (α : Type) → Typing α → Prop}

theorem ite (_h : Composes K P) {α : Type} {c : Prop} [Decidable c] {m n : Typing α} (hm : P _ m)
    (hn : P _ n) : P _ (if c then m else n) := by
  split
  · exact hm
  · exact hn

variable (h : Composes K P)

include h

theorem when {c : Prop} [Decidable c] {m : Typing Unit} (hm : P _ m) :
    P _ (if c then m else Pure.pure ()) := h.ite hm (h.pure ())

theorem whenNot {c : Prop} [Decidable c] {m : Typing Unit} (hm : P _ m) :
    P _ (if c then Pure.pure () else m) := h.ite (h.pure ()) hm

theorem discard {α : Type} {m : Typing α} (hm : P _ m) : P _ (discard m) :=
  h.bind hm fun _ => h.pure _

theorem run {command : Command} (hK : K (.run command)) :
    P _ (Functor.discard (Typing.tryRun command)) := h.discard (h.tryRun hK)

theorem change {f : TypingState → TypingState}
    (hf : ∀ s, (f s).insideContainer = s.insideContainer := by intros; rfl) :
    P _ (Scribe.updateState f) := h.updateState hf

/-! ## Text -/

theorem write {text : Text} (hw : K (.insertText text)) : P _ (write text) :=
  h.whenNot (h.discard (h.require hw))

theorem findAny {needles : List Text} (hf : ∀ needle ∈ needles, K (.findText needle .forward)) :
    P _ (findAny needles) := by
  induction needles with
  | nil => exact h.pure false
  | cons needle needles ih =>
    refine h.bind (h.bestEffort (hf _ List.mem_cons_self)) fun _ => h.ite (h.pure true) ?_
    exact ih fun n hn => hf n (List.mem_cons_of_mem _ hn)

theorem compactParagraph : P _ compactParagraph := h.discard (h.bestEffort (h.format rfl))

theorem boxTextStyle (t : Typist σ) : P _ t.boxTextStyle :=
  h.discard (h.bestEffort (h.format rfl))

theorem breakLine (hb : K (.run .breakPara)) : P _ breakLine :=
  h.bind (h.discard (h.require hb)) fun _ => h.bind h.typingState fun _ => h.bind h.change fun _ =>
    h.when (h.run (h.format rfl))

theorem insertSpace (hw : K (.insertText [' '])) : P _ insertSpace :=
  h.bind (h.write hw) fun _ => h.change

theorem applyAlignment : P _ applyAlignment := by
  refine h.revise (g := fun s => s.takeAlignment.2) (fun s => ?_) fun s => ?_
  · unfold TypingState.takeAlignment
    split <;> rfl
  · dsimp only
    split
    · next command hcommand =>
      exact h.bind (h.run (h.format (LineAlignment.isFormat_of_command? hcommand)))
        fun _ => h.pure _
    · exact h.pure _

theorem insertText {text : Text} (hb : K (.run .breakPara))
    (hw : ∀ run : Text, run ⊆ ' ' :: '\t' :: text → K (.insertText run)) :
    P _ (insertText text) := by
  have hrun (alignment : LineAlignment) (s : TypingState) :
      trimRun alignment s (readTab text) ⊆ '\t' :: text :=
    List.Subset.trans (trimRun_subset _ _ _) (readTab_subset _)
  refine h.whenNot (h.bind h.typingState fun s => h.ite (h.bind (h.breakLine hb) fun _ => ?_) ?_)
  all_goals
    refine h.bind h.applyAlignment fun alignment => h.bind h.typingState fun s => h.ite ?_ ?_
    · refine h.bind h.change fun _ => h.bind (h.write (hw _ ?_)) fun _ => h.change
      exact List.cons_subset_cons _ (hrun _ _)
    · refine h.bind (h.write (hw _ ?_)) fun _ => h.change
      exact List.Subset.trans (hrun _ _) (List.subset_cons_self _ _)

theorem insertObject {spec : EquationSpec} (hcreate : K (.createEquation spec))
    (hanchor : K (.objectAnchor spec.treatAsChar)) (hcancel : K (.run .cancel))
    (hright : K (.run .moveRight)) : P _ (insertObject spec) :=
  h.bind (h.discard (h.require hcreate)) fun _ => h.bind (h.discard (h.require hanchor)) fun _ =>
    h.bind (h.discard (h.require hcancel)) fun _ => h.discard (h.require hright)

theorem insertEquation (t : Typist σ) {text : Text} (style : EquationStyle)
    (hb : K (.run .breakPara)) (hw : ∀ run : Text, run ⊆ [' ', '\t'] → K (.insertText run))
    (ho : ∀ equation, equation <:+: text →
      P _ (Typing.insertObject (t.equationSpec equation style))) :
    P _ (t.insertEquation text style) := by
  have htabs : Text.trim (text.dropWhile (· == '\t')) <:+: text :=
    (Text.trim_infix _).trans (List.dropWhile_suffix _).isInfix
  have htab : P _ (Typing.insertText ['\t']) :=
    h.insertText hb fun run hrun => hw run (List.Subset.trans hrun (by simp))
  have hbehind {equation : Text} (hsub : Text.trim equation <:+: text) {again : Prop}
      [Decidable again] (f : TypingState → TypingState)
      (hf : ∀ s, (f s).insideContainer = s.insideContainer) :
      P _ (if (Text.trim equation).isEmpty then Scribe.updateState f
        else do
          Typing.insertObject (t.equationSpec (Text.trim equation) style)
          if again then
            Typing.breakLine
            Scribe.updateState f
          else Scribe.updateState f) :=
    h.ite (h.change hf) (h.bind (ho _ hsub) fun _ =>
      h.ite (h.bind (h.breakLine hb) fun _ => h.change hf) (h.change hf))
  refine h.bind h.typingState fun s => h.ite (h.bind htab fun _ => ?_) ?_
  all_goals
    refine h.bind h.applyAlignment fun alignment => h.bind h.typingState fun s =>
      h.ite (h.bind (h.write (hw _ (by decide))) fun _ => h.bind h.change fun _ => ?_) ?_
  · exact hbehind htabs _ fun _ => rfl
  · exact hbehind htabs _ fun _ => rfl
  · exact hbehind (Text.trim_infix _) _ fun _ => rfl
  · exact hbehind (Text.trim_infix _) _ fun _ => rfl

/-! ## Cells and placeholders -/

theorem bareContainer (hcreate : K (.createTable 1 1)) (hcell : K (.run .moveToCell)) :
    P _ bareContainer := h.bind (h.discard (h.require hcreate)) fun _ => h.run hcell

theorem leaveCell (hclose : K (.run .closeEx)) (hlower : K (.run .tableLowerCell)) :
    P _ leaveCell :=
  h.bind (h.tryRun hclose) fun _ => h.ite (h.pure true) (h.tryRun hlower)

theorem closeContainer (hclose : K (.run .closeEx)) (hlower : K (.run .tableLowerCell))
    (hdown : K (.run .moveDown)) (hleave : P _ (Scribe.updateState .leaveContainer)) :
    P _ closeContainer := by
  refine h.bind (h.leaveCell hclose hlower) fun closed =>
    h.ite (h.bind (h.run hdown) fun _ => ?_) ?_
  all_goals
    exact h.bind hleave fun _ => h.ite h.change (h.bind (h.throw nofun rfl) fun _ => h.change)

theorem eraseMarker (hdelete : K (.run .delete)) (hback : K (.run .deleteBack)) :
    P _ eraseMarker := h.bind (h.tryRun hdelete) fun _ => h.whenNot (h.run hback)

theorem focusPlaceholder (placeholder : Placeholder) (hbegin : K (.run .moveDocBegin))
    (hfind : ∀ needle, K (.findText needle .forward)) (hdelete : K (.run .delete))
    (hback : K (.run .deleteBack)) (hcell : K (.run .moveToCell))
    (henter : ∀ zone?, P _ (Scribe.updateState fun s => s.enterZone zone?)) :
    P _ (focusPlaceholder placeholder) := by
  have herase : P _ Typing.eraseMarker := h.eraseMarker hdelete hback
  rw [focusPlaceholder_eq]
  refine h.bind (h.findAny fun _ _ => hfind _) fun found =>
    h.ite (h.bind herase fun _ => henter _) (h.ite ?_ (henter _))
  refine h.bind (h.run hbegin) fun _ => h.bind (h.findAny fun _ _ => hfind _) fun found => ?_
  refine h.ite (h.bind herase fun _ => henter _) ?_
  exact h.ite (h.bind (h.run hcell) fun _ => henter _) (henter _)

/-! ## Containers and templates -/

theorem buildContainer (t : Typist σ) (framed : Bool)
    (hw : ∀ text ∈ [[' '], Typist.framedLabel], K (.insertText text))
    (hb : K (.run .breakPara)) (hcreate : K (.createTable 1 1)) (hcell : K (.run .moveToCell)) :
    P _ (t.buildContainer framed) := by
  have hspace : P _ (Typing.write [' ']) := h.write (hw _ (by simp))
  have hlabel : P _ (Typing.write Typist.framedLabel) := h.write (hw _ (by simp))
  refine h.bind h.typingState fun s => h.ite (h.bind hspace fun _ => ?_) ?_
  all_goals
    refine h.bind (h.bareContainer hcreate hcell) fun _ => h.when ?_
    refine h.bind (h.run (h.format rfl)) fun _ => h.bind (h.boxTextStyle t) fun _ => ?_
    refine h.bind hlabel fun _ => h.bind (h.discard (h.require hb)) fun _ => ?_
    exact h.run (h.format rfl)

theorem openContainer (t : Typist σ) (framed : Bool)
    (hfragment : K (.insertFragment (t.templatePath
      (if framed then Typist.framedFragment else Typist.plainFragment))))
    (hw : ∀ text ∈ [[' '], Typist.framedLabel], K (.insertText text))
    (hb : K (.run .breakPara)) (hcreate : K (.createTable 1 1)) (hcell : K (.run .moveToCell))
    (henter : P _ (Scribe.updateState fun s => s.enterContainer.markWritten)) :
    P _ (t.openContainer framed) := by
  have hbehind : P _ (do
      Scribe.updateState fun s => s.enterContainer.markWritten
      t.boxTextStyle
      Typing.compactParagraph
      if framed then Functor.discard (Typing.tryRun .alignJustify)) :=
    h.bind henter fun _ => h.bind (h.boxTextStyle t) fun _ => h.bind h.compactParagraph fun _ =>
      h.when (h.run (h.format rfl))
  refine h.bind (h.require hfragment) fun found =>
    h.ite (h.bind (h.tryRun hcell) fun _ => ?_) ?_
  · exact h.ite hbehind (h.bind (h.bareContainer hcreate hcell) fun _ => hbehind)
  · exact h.bind (h.buildContainer t framed hw hb hcreate hcell) fun _ => hbehind

theorem insertTemplate (t : Typist σ) (template : Template)
    (hfragment : K (.insertFragment (t.templatePath template.fileName)))
    (hbegin : K (.run .moveDocBegin)) (hfind : ∀ needle, K (.findText needle .forward))
    (hdelete : K (.run .delete)) :
    P _ (t.insertTemplate template) := by
  refine h.bind (h.require hfragment) fun found =>
    h.ite ?_ (h.bind (h.throw nofun rfl) fun _ => ?_)
  all_goals
    cases template.flavor with
    | framed => exact h.pure ()
    | plain =>
      refine h.bind (h.run hbegin) fun _ => h.bind (h.findAny fun _ _ => hfind _) fun found => ?_
      exact h.ite (h.bind (h.run hdelete) fun _ => h.run hbegin) (h.run hbegin)

/-! ## Tables -/

theorem tryRunTimes {command : Command} (hK : K (.run command)) (n : Nat) :
    P _ (tryRunTimes command n) := by
  induction n with
  | zero => exact h.pure ()
  | succ n ih => exact h.bind (h.run hK) fun _ => ih

theorem exitTable (hclose : K (.run .closeEx)) (hlower : K (.run .tableLowerCell))
    (hdown : K (.run .moveDown)) : P _ exitTable := by
  refine h.bind (h.tryRun hclose) fun _ => h.ite (h.run hdown) ?_
  exact h.bind (h.tryRun hlower) fun _ => h.when (h.bind (h.tryRun hclose) fun _ =>
    h.when (h.run hdown))

theorem cellStyle (t : Typist σ) (alignCenter : Bool) : P _ (t.cellStyle alignCenter) :=
  h.bind (h.boxTextStyle t) fun _ => h.bind h.compactParagraph fun _ =>
    h.when (h.run (h.format rfl))

theorem fillCell (t : Typist σ) (alignCenter : Bool) {value : Text} (hb : K (.run .breakPara))
    (hw : ∀ run : Text, run ⊆ ' ' :: '\t' :: value → K (.insertText run))
    (ho : ∀ equation, equation <:+: value →
      P _ (Typing.insertObject (t.equationSpec equation {}))) :
    P _ (t.fillCell alignCenter value) := by
  refine h.bind (h.cellStyle t _) fun _ => ?_
  split
  · next equation hvalue =>
    have hsub : Text.trim equation <:+: value :=
      (Text.trim_infix _).trans (Text.suffix_of_stripStart? hvalue).isInfix
    refine h.insertEquation t {} hb
      (fun run hrun => hw run (List.Subset.trans hrun (by simp))) fun e he => ?_
    exact ho e (he.trans hsub)
  · exact h.insertText hb hw

theorem fillRow (t : Typist σ) (alignCenter : Bool) (left : Nat) {values : List Text}
    (hright : K (.run .tableRightCell))
    (hcell : ∀ value ∈ values, P _ (t.fillCell alignCenter value)) :
    P _ (t.fillRow alignCenter left values) := by
  induction left, values using Typist.fillRow.induct with
  | case1 => exact h.pure 0
  | case2 => exact h.pure 0
  | case3 left value values ih =>
    refine h.bind (hcell _ List.mem_cons_self) fun _ => h.ite (h.pure 0) ?_
    refine h.bind (h.run hright) fun _ => h.bind (ih fun v hv => ?_) fun _ => h.pure _
    exact hcell v (List.mem_cons_of_mem _ hv)

theorem fillRows (t : Typist σ) (alignCenter : Bool) (cols left : Nat) {rows : List (List Text)}
    (hright : K (.run .tableRightCell)) (hlower : K (.run .tableLowerCell))
    (hleft : K (.run .tableLeftCell))
    (hcell : ∀ row ∈ rows, ∀ value ∈ row, P _ (t.fillCell alignCenter value)) :
    P _ (t.fillRows alignCenter cols left rows) := by
  induction left, rows using Typist.fillRows.induct with
  | case1 => exact h.pure ()
  | case2 => exact h.pure ()
  | case3 left row rows ih =>
    have hrow := h.fillRow t alignCenter cols hright (hcell _ List.mem_cons_self)
    refine h.bind hrow fun moves => h.ite (h.pure ()) (h.bind (h.run hlower) fun _ => ?_)
    refine h.bind (h.tryRunTimes hleft _) fun _ => ih fun r hr => ?_
    exact hcell r (List.mem_cons_of_mem _ hr)

theorem insertTable (t : Typist σ) (spec : TableSpec) (hspace : K (.insertText [' ']))
    (hcreate : ∀ rows cols, K (.createTable rows cols)) (hright : K (.run .tableRightCell))
    (hlower : K (.run .tableLowerCell)) (hleft : K (.run .tableLeftCell))
    (hclose : K (.run .closeEx)) (hdown : K (.run .moveDown))
    (hcell : ∀ row ∈ spec.cells, ∀ value ∈ row, P _ (t.fillCell spec.alignCenter value)) :
    P _ (t.insertTable spec) := by
  refine h.ite ?_ (h.bind (h.throw nofun rfl) fun _ => ?_)
  all_goals
    refine h.bind h.typingState fun s => h.ite (h.bind (h.write hspace) fun _ => ?_) ?_
    all_goals
      refine h.bind (h.discard (h.require (hcreate _ _))) fun _ => h.bind h.change fun _ => ?_
      refine h.bind (h.discard (h.bestEffort (h.format rfl))) fun _ => ?_
      refine h.bind (h.fillRows t _ _ _ hright hlower hleft hcell) fun _ => h.when ?_
      refine h.bind (h.exitTable hclose hlower hdown) fun _ => ?_
      exact h.bind (h.run (h.format rfl)) fun _ => h.change

/-! ## Operations -/

/-- A plain operation has the property when its calls have it. -/
theorem plain (t : Typist σ) {op : Operation} (hplain : op.isPlain) (hb : K (.run .breakPara))
    (hw : ∀ run : Text, run ⊆ ' ' :: '\t' :: op.literals.flatten → K (.insertText run))
    (ho : ∀ spec : EquationSpec, spec.text <:+: t.equation op → P _ (Typing.insertObject spec)) :
    P _ (t.act op) := by
  have hformat {p : Primitive} (hp : p.isFormat) : P _ (Functor.discard (Typing.require p)) :=
    h.discard (h.require (h.format hp))
  have hequation (text : Text) (style : EquationStyle) (heq : t.equation op = text) :
      P _ (t.insertEquation text style) := by
    refine h.insertEquation t style hb (fun run hrun => hw run ?_) fun e he => ho _ ?_
    · exact List.Subset.trans hrun (by simp)
    · rwa [heq]
  have hspace : K (.insertText [' ']) := hw _ (by simp)
  cases op with
  | insertText text =>
    exact h.insertText hb fun run hrun => hw run (by simpa [Operation.literals] using hrun)
  | insertEquation text style => exact hequation _ style rfl
  | insertLatexEquation latex style => exact hequation _ style rfl
  | breakLine => exact h.breakLine hb
  | insertParagraph => exact h.bind (h.breakLine hb) fun _ => h.insertSpace hspace
  | insertSmallParagraph => exact h.pure ()
  | insertSpace => exact h.insertSpace hspace
  | setBold enabled => exact h.bind (hformat rfl) fun _ => h.change
  | setUnderline enabled =>
    exact h.bind h.typingState fun _ => h.bind (hformat rfl) fun _ => h.change
  | setBorderInvisible => exact hformat rfl
  | alignRightNextLine => exact h.change
  | alignJustifyNextLine => exact h.change
  | setCharWidthRatio percent => exact hformat rfl
  | _ => cases hplain

/-- An operation that has to do with no template has the property when its calls and its changes of
    the state have it. -/
theorem unzoned (t : Typist σ) {op : Operation} (hop : op.isZoning = false)
    (hmove : ∀ command : Command, command.isMove → K (.run command))
    (hcreate : ∀ rows cols, K (.createTable rows cols))
    (hfragment : ∀ framed : Bool, K (.insertFragment (t.templatePath
      (if framed then Typist.framedFragment else Typist.plainFragment))))
    (hb : K (.run .breakPara)) (hlabel : K (.insertText Typist.framedLabel))
    (hw : ∀ run : Text, run ⊆ ' ' :: '\t' :: op.literals.flatten → K (.insertText run))
    (ho : ∀ spec : EquationSpec,
      (spec.text <:+: t.equation op ∨ ∃ text ∈ op.literals, spec.text <:+: text) →
        P _ (Typing.insertObject spec))
    (hU : ∀ f, P _ (Scribe.updateState f)) : P _ (t.act op) := by
  have hspace : K (.insertText [' ']) := hw _ (by simp)
  have hopen (framed : Bool) : P _ (t.openContainer framed) := by
    refine h.openContainer t framed (hfragment framed) (fun text htext => ?_) hb (hcreate _ _)
      (hmove _ rfl) (hU _)
    simp only [List.mem_cons, List.not_mem_nil, or_false] at htext
    rcases htext with rfl | rfl
    · exact hspace
    · exact hlabel
  cases op with
  | openContainer => exact hopen false
  | openFramedContainer => exact hopen true
  | closeContainer => exact h.closeContainer (hmove _ rfl) (hmove _ rfl) (hmove _ rfl) (hU _)
  | insertTable spec =>
    refine h.insertTable t spec hspace hcreate (hmove _ rfl) (hmove _ rfl) (hmove _ rfl)
      (hmove _ rfl) (hmove _ rfl) fun row hrow value hvalue => ?_
    have hliteral : value ∈ (Operation.insertTable spec).literals :=
      List.mem_flatten.2 ⟨row, hrow, hvalue⟩
    refine h.fillCell t _ hb (fun run hrun => hw run fun c hc => ?_) fun e he =>
      ho _ (.inr ⟨value, hliteral, he⟩)
    have hmem := hrun hc
    simp only [List.mem_cons] at hmem ⊢
    exact hmem.imp_right fun hc => hc.imp_right fun hc => List.mem_flatten.2 ⟨value, hliteral, hc⟩
  | insertTemplate template => cases hop
  | focusPlaceholder placeholder => cases hop
  | _ => exact h.plain t rfl hb hw fun spec hspec => ho spec (.inl hspec)

/-- An operation has the property when every call and every change of the state has it. -/
theorem act (t : Typist σ) (hK : ∀ p, K p) (hU : ∀ f, P _ (Scribe.updateState f))
    (op : Operation) : P _ (t.act op) := by
  cases op with
  | insertTemplate template =>
    exact h.insertTemplate t template (hK _) (hK _) (fun _ => hK _) (hK _)
  | focusPlaceholder placeholder =>
    exact h.focusPlaceholder placeholder (hK _) (fun _ => hK _) (hK _) (hK _) (hK _) fun _ => hU _
  | _ =>
    exact h.unzoned t rfl (fun _ _ => hK _) (fun _ _ => hK _) (fun _ => hK _) (hK _) (hK _)
      (fun _ _ => hK _) (fun _ _ => h.insertObject (hK _) (hK _) (hK _) (hK _)) hU

end Typing.Composes

end Scribe
