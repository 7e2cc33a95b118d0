import Scribe.Proofs.Repair.Nesting

set_option autoImplicit false

/-! # The state of typing is coherent

Operations change the state of typing piece by piece, and may stop behind any of their calls. Main
statement: wherever they stop, only in a container a first run is due, and before anything was
written typing stands at the start of a line and behind no equation. It is enough that each change
of the state keeps this; only the indent of an equation needs to know what was read before. -/

namespace Scribe

variable {σ α β : Type}

/-! ## Coherent states -/

namespace TypingState

/-- The flags of a state fit together. -/
structure IsCoherent (s : TypingState) : Prop where
  /-- A first run of a container is due in a container only. -/
  insideContainer : s.containerLineStart → s.insideContainer
  /-- Before anything was written, typing stands at the start of a line. -/
  lineStart : s.hasWrittenFirstLine = false → s.lineStart
  /-- Before anything was written, no equation was. -/
  lastWasEquation : s.hasWrittenFirstLine = false → s.lastWasEquation = false

theorem isCoherent_initial : IsCoherent {} := ⟨nofun, fun _ => rfl, fun _ => rfl⟩

/-- Behind something written, only the flags of the container have to fit. -/
theorem isCoherent_of_hasWritten {s : TypingState}
    (hcontainer : s.containerLineStart → s.insideContainer)
    (hwritten : s.hasWrittenFirstLine = true) : s.IsCoherent := by
  refine ⟨hcontainer, fun h => ?_, fun h => ?_⟩ <;> cases hwritten.symm.trans h

namespace IsCoherent

variable {s : TypingState} (h : s.IsCoherent)

include h

theorem takeAlignment : s.takeAlignment.2.IsCoherent := by
  unfold TypingState.takeAlignment
  split
  · exact ⟨h.insideContainer, h.lineStart, h.lastWasEquation⟩
  · exact h

theorem markWritten : s.markWritten.IsCoherent := isCoherent_of_hasWritten h.insideContainer rfl

theorem markText : s.markText.IsCoherent := isCoherent_of_hasWritten h.insideContainer rfl

theorem startLine : s.startLine.IsCoherent := ⟨h.insideContainer, fun _ => rfl, fun _ => rfl⟩

theorem breakLine : s.breakLine.IsCoherent := by
  refine ⟨fun hdue => h.insideContainer ?_, fun _ => rfl, fun _ => rfl⟩
  exact (Bool.and_eq_true_iff.1 hdue).1

/-- The first run of a container was begun. -/
theorem beginRun : IsCoherent { s with containerLineStart := false } :=
  ⟨nofun, h.lineStart, h.lastWasEquation⟩

theorem enterContainer : s.enterContainer.IsCoherent :=
  ⟨fun _ => rfl, h.lineStart, h.lastWasEquation⟩

theorem leaveContainer : s.leaveContainer.IsCoherent :=
  ⟨nofun, h.lineStart, h.lastWasEquation⟩

theorem enterZone (zone? : Option Zone) : (s.enterZone zone?).IsCoherent := by
  rcases zone? with _ | _ | _ | _
  · exact h.startLine
  · exact h.startLine.leaveContainer
  · exact h.startLine.enterContainer
  · exact h.startLine.leaveContainer

/-- An indent is typed on later lines only. -/
theorem indent (hindent : s.wantsIndent) : IsCoherent { s with lineStart := false } := by
  simp only [wantsIndent, Bool.and_eq_true] at hindent
  exact isCoherent_of_hasWritten h.insideContainer hindent.2

/-- An equation was typed, and perhaps a break that belongs to it. -/
theorem markEquation (lineStart : Bool) : IsCoherent
    { s with hasWrittenFirstLine := true, lineStart := lineStart, lastWasEquation := true } :=
  isCoherent_of_hasWritten h.insideContainer rfl

end IsCoherent

end TypingState

/-! ## Actions that leave the state as it is -/

namespace Typing

/-- An action leaves the state as it is, however it is answered and wherever it stops. -/
def IsStateless (m : Typing α) : Prop :=
  ∀ s, (m.run.run s).Ensures .any (fun r _ => r.2 = s) ()

namespace IsStateless

theorem pure (a : α) : IsStateless (pure a : Typing α) := fun _ => rfl

theorem throw (e : TypingError) : IsStateless (throw e : Typing α) := fun _ => rfl

theorem bind {m : Typing α} {f : α → Typing β} (hm : m.IsStateless)
    (hf : ∀ a, (f a).IsStateless) : (m >>= f).IsStateless := by
  intro s
  rw [run_bind]
  refine ((hm s).mono ?_).bind
  rintro ⟨e | a, s'⟩ _ rfl
  · exact rfl
  · exact hf a s'

theorem ite {c : Prop} [Decidable c] {m n : Typing α} (hm : m.IsStateless)
    (hn : n.IsStateless) : (if c then m else n).IsStateless := by
  split
  · exact hm
  · exact hn

theorem discard {m : Typing α} (hm : m.IsStateless) : (discard m).IsStateless :=
  hm.bind fun _ => pure ()

theorem call (p : Primitive) : (call p).IsStateless := by
  rintro s (_ | _) -
  · exact ⟨trivial, fun _ _ _ => rfl⟩
  · exact rfl

theorem require (p : Primitive) : (require p).IsStateless :=
  (call p).bind fun r => match r with
    | .ok found => pure found
    | .error e => throw (.target e)

theorem tryRun (command : Command) : (tryRun command).IsStateless :=
  (call (.run command)).bind fun r => match r with
    | .ok found => pure found
    | .error (.action _ _) => pure false
    | .error (.sessionUnavailable _) => throw _
    | .error (.documentNotFound _) => throw _

theorem bestEffort (p : Primitive) : (bestEffort p).IsStateless := by
  refine (call p).bind fun r => ?_
  rcases r with e | found
  · exact ite (throw _) (pure false)
  · exact pure found

theorem run (command : Command) : (Functor.discard (Typing.tryRun command)).IsStateless :=
  (tryRun command).discard

theorem write (text : Text) : (write text).IsStateless := ite (pure ()) (require _).discard

theorem findAny (needles : List Text) : (findAny needles).IsStateless := by
  induction needles with
  | nil => exact pure false
  | cons needle needles ih => exact (bestEffort _).bind fun _ => ite (pure true) ih

theorem compactParagraph : Typing.compactParagraph.IsStateless := (bestEffort _).discard

theorem boxTextStyle (t : Typist σ) : t.boxTextStyle.IsStateless := (bestEffort _).discard

theorem cellStyle (t : Typist σ) (alignCenter : Bool) : (t.cellStyle alignCenter).IsStateless :=
  (boxTextStyle t).bind fun _ => compactParagraph.bind fun _ => ite (run _) (pure ())

theorem insertObject (spec : EquationSpec) : (insertObject spec).IsStateless :=
  (require _).discard.bind fun _ => (require _).discard.bind fun _ =>
    (require _).discard.bind fun _ => (require _).discard

theorem bareContainer : Typing.bareContainer.IsStateless :=
  (require _).discard.bind fun _ => run _

theorem leaveCell : Typing.leaveCell.IsStateless :=
  (tryRun _).bind fun _ => ite (pure true) (tryRun _)

theorem eraseMarker : Typing.eraseMarker.IsStateless :=
  (tryRun _).bind fun _ => ite (pure ()) (run _)

theorem exitTable : Typing.exitTable.IsStateless :=
  (tryRun _).bind fun _ => ite (run _) ((tryRun _).bind fun _ =>
    ite ((tryRun _).bind fun _ => ite (run _) (pure ())) (pure ()))

theorem tryRunTimes (command : Command) (n : Nat) : (tryRunTimes command n).IsStateless := by
  induction n with
  | zero => exact pure ()
  | succ n ih => exact (run _).bind fun _ => ih

theorem insertTemplate (t : Typist σ) (template : Template) :
    (t.insertTemplate template).IsStateless := by
  refine (require _).bind fun found => ite ?_ ((throw _).bind fun _ => ?_)
  all_goals
    cases template.flavor with
    | framed => exact pure ()
    | plain =>
      exact (run _).bind fun _ => (findAny _).bind fun _ =>
        ite ((run _).bind fun _ => run _) (run _)

end IsStateless

/-! ## Actions that keep the state coherent -/

/-- From this state an action comes to a coherent one, however it is answered and wherever it
    stops. -/
def CoheresFrom (s : TypingState) (m : Typing α) : Prop :=
  (m.run.run s).Ensures .any (fun r _ => r.2.IsCoherent) ()

/-- An action keeps the state coherent. -/
def Coheres (m : Typing α) : Prop := ∀ s : TypingState, s.IsCoherent → CoheresFrom s m

namespace CoheresFrom

variable {s : TypingState}

theorem updateState {g : TypingState → TypingState} {f : Unit → Typing α}
    (h : CoheresFrom (g s) (f ())) : CoheresFrom s (Scribe.updateState g >>= f) := h

/-- Behind an action that leaves the state as it is. -/
theorem behind {m : Typing α} {f : α → Typing β} (hs : s.IsCoherent) (hm : m.IsStateless)
    (hf : ∀ a, CoheresFrom s (f a)) : CoheresFrom s (m >>= f) := by
  unfold CoheresFrom
  rw [run_bind]
  refine ((hm s).mono ?_).bind
  rintro ⟨e | a, s'⟩ _ rfl
  · exact hs
  · exact hf a

theorem ite {c : Prop} [Decidable c] {m n : Typing α} (hm : c → CoheresFrom s m)
    (hn : CoheresFrom s n) : CoheresFrom s (if c then m else n) := by
  split
  · next hc => exact hm hc
  · exact hn

end CoheresFrom

theorem IsStateless.coheres {m : Typing α} (h : m.IsStateless) : m.Coheres :=
  fun s hs => (h s).mono fun _ _ hr => hr ▸ hs

namespace Coheres

theorem pure (a : α) : Coheres (pure a : Typing α) := (IsStateless.pure a).coheres

theorem updateState {g : TypingState → TypingState}
    (hg : ∀ s : TypingState, s.IsCoherent → (g s).IsCoherent) : Coheres (updateState g) := hg

theorem bind {m : Typing α} {f : α → Typing β} (hm : m.Coheres) (hf : ∀ a, (f a).Coheres) :
    (m >>= f).Coheres := by
  intro s hs
  unfold CoheresFrom
  rw [run_bind]
  refine ((hm s hs).mono ?_).bind
  rintro ⟨e | a, s'⟩ _ h
  · exact h
  · exact hf a s' h

theorem ite {c : Prop} [Decidable c] {m n : Typing α} (hm : m.Coheres) (hn : n.Coheres) :
    (if c then m else n).Coheres := by
  split
  · exact hm
  · exact hn

/-- What goes by the state that was read. -/
theorem reads {f : TypingState → Typing α}
    (h : ∀ s : TypingState, s.IsCoherent → CoheresFrom s (f s)) :
    Coheres (typingState >>= f) := h

/-- What does not go by the state that was read. -/
theorem ignores {f : TypingState → Typing α} (h : ∀ s, (f s).Coheres) :
    Coheres (typingState >>= f) := reads fun s hs => h s s hs

/-- Behind an action that leaves the state as it is. -/
theorem behind {m : Typing α} {f : α → Typing β} (hm : m.IsStateless)
    (hf : ∀ a, (f a).Coheres) : (m >>= f).Coheres := hm.coheres.bind hf

/-! ## Text -/

theorem breakLine : Typing.breakLine.Coheres :=
  behind (IsStateless.require _).discard fun _ => ignores fun _ =>
    (updateState fun _ h => h.breakLine).bind fun _ =>
      ite (IsStateless.run _).coheres (pure ())

theorem insertSpace : Typing.insertSpace.Coheres :=
  behind (.write _) fun _ => updateState fun _ h => h.markText

theorem applyAlignment : Typing.applyAlignment.Coheres := by
  refine reads fun s hs => ?_
  have haligned := hs.takeAlignment
  generalize s.takeAlignment = taken at haligned ⊢
  obtain ⟨alignment, s'⟩ := taken
  refine .updateState ?_
  cases alignment.command? with
  | some command => exact .behind haligned (.run _) fun _ => pure _ _ haligned
  | none => exact pure _ _ haligned

theorem insertText (text : Text) : (insertText text).Coheres := by
  refine ite (pure ()) (ignores fun s => ite (breakLine.bind fun _ => ?_) ?_)
  all_goals
    refine applyAlignment.bind fun alignment => ignores fun s => ite ?_ ?_
    · exact (updateState fun _ h => h.beginRun).bind fun _ => behind (.write _) fun _ =>
        updateState fun _ h => h.markText
    · exact behind (.write _) fun _ => updateState fun _ h => h.markText

theorem insertEquation (t : Typist σ) (text : Text) (style : EquationStyle) :
    (t.insertEquation text style).Coheres := by
  -- what follows the indent, for the text that is left of the equation
  have hbehind (equation : Text) {again : Prop} [Decidable again] (lineStart : Bool) :
      Coheres (if equation.isEmpty then Scribe.updateState fun s => { s with
          hasWrittenFirstLine := true, lineStart := lineStart, lastWasEquation := true }
        else do
          Typing.insertObject (t.equationSpec equation style)
          if again then
            Typing.breakLine
            Scribe.updateState fun s => { s with
              hasWrittenFirstLine := true, lineStart := lineStart, lastWasEquation := true }
          else Scribe.updateState fun s => { s with
            hasWrittenFirstLine := true, lineStart := lineStart, lastWasEquation := true }) := by
    have hmark := updateState fun s (h : s.IsCoherent) => h.markEquation lineStart
    exact ite hmark (behind (.insertObject _) fun _ =>
      ite (breakLine.bind fun _ => hmark) hmark)
  refine ignores fun s => ite ((insertText _).bind fun _ => ?_) ?_
  all_goals
    refine applyAlignment.bind fun alignment => reads fun s hs => .ite (fun hindent => ?_) ?_
    · refine .behind hs (.write _) fun _ => .updateState ?_
      exact hbehind _ _ _ (hs.indent (Bool.and_eq_true_iff.1 hindent).2)
    · exact hbehind _ _ s hs

/-! ## Containers and placeholders -/

theorem closeContainer : Typing.closeContainer.Coheres := by
  refine behind .leaveCell fun closed => ite (behind (.run _) fun _ => ?_) ?_
  all_goals
    refine (updateState fun _ h => h.leaveContainer).bind fun _ => ite ?_ ?_
    · exact updateState fun _ h => h.startLine
    · exact behind (.throw _) fun _ => updateState fun _ h => h.startLine

theorem focusPlaceholder (placeholder : Placeholder) :
    (focusPlaceholder placeholder).Coheres := by
  have henter : Coheres (Scribe.updateState fun s => s.enterZone placeholder.zone?) :=
    updateState fun _ h => h.enterZone _
  rw [focusPlaceholder_eq]
  refine behind (.findAny _) fun found => ite (behind .eraseMarker fun _ => henter) ?_
  refine ite (behind (.run _) fun _ => behind (.findAny _) fun found => ?_) henter
  exact ite (behind .eraseMarker fun _ => henter) (ite (behind (.run _) fun _ => henter) henter)

theorem buildContainer (t : Typist σ) (framed : Bool) : (t.buildContainer framed).Coheres := by
  refine ignores fun s => ite (behind (.write _) fun _ => ?_) ?_
  all_goals
    refine behind .bareContainer fun _ => ite (behind (.run _) fun _ => ?_) (pure ())
    exact behind (.boxTextStyle t) fun _ => behind (.write _) fun _ =>
      behind (IsStateless.require _).discard fun _ => (IsStateless.run _).coheres

theorem openContainer (t : Typist σ) (framed : Bool) : (t.openContainer framed).Coheres := by
  have hbehind : Coheres (do
      Scribe.updateState fun s => s.enterContainer.markWritten
      t.boxTextStyle
      Typing.compactParagraph
      if framed then discard (Typing.tryRun .alignJustify)) :=
    (updateState fun _ h => h.enterContainer.markWritten).bind fun _ =>
      behind (.boxTextStyle t) fun _ => behind .compactParagraph fun _ =>
        ite (IsStateless.run _).coheres (pure ())
  refine behind (.require _) fun found => ite (behind (.tryRun _) fun moved => ?_) ?_
  · exact ite hbehind (behind .bareContainer fun _ => hbehind)
  · exact (buildContainer t framed).bind fun _ => hbehind

/-! ## Tables -/

theorem fillCell (t : Typist σ) (alignCenter : Bool) (value : Text) :
    (t.fillCell alignCenter value).Coheres := by
  refine behind (.cellStyle t _) fun _ => ?_
  split
  · exact insertEquation t _ _
  · exact insertText _

theorem fillRow (t : Typist σ) (alignCenter : Bool) (left : Nat) (values : List Text) :
    (t.fillRow alignCenter left values).Coheres := by
  induction left, values using Typist.fillRow.induct with
  | case1 => exact pure 0
  | case2 => exact pure 0
  | case3 left value values ih =>
    refine (fillCell t _ _).bind fun _ => ite (pure 0) (behind (.run _) fun _ => ?_)
    exact ih.bind fun _ => pure _

theorem fillRows (t : Typist σ) (alignCenter : Bool) (cols left : Nat) (rows : List (List Text)) :
    (t.fillRows alignCenter cols left rows).Coheres := by
  induction left, rows using Typist.fillRows.induct with
  | case1 => exact pure ()
  | case2 => exact pure ()
  | case3 left row rows ih =>
    refine (fillRow t _ _ _).bind fun moves => ite (pure ()) (behind (.run _) fun _ => ?_)
    exact behind (.tryRunTimes _ _) fun _ => ih

theorem insertTable (t : Typist σ) (spec : TableSpec) : (t.insertTable spec).Coheres := by
  refine ite ?_ (behind (.throw _) fun _ => ?_)
  all_goals
    refine ignores fun s => ite (behind (.write _) fun _ => ?_) ?_
    all_goals
      refine behind (IsStateless.require _).discard fun _ =>
        (updateState fun _ h => h.markWritten).bind fun _ =>
          behind (IsStateless.bestEffort _).discard fun _ => (fillRows t _ _ _ _).bind fun _ => ?_
      refine ite (behind .exitTable fun _ => behind (.run _) fun _ => ?_) (pure ())
      exact updateState fun _ h => h.startLine

/-! ## Operations -/

variable (t : Typist σ)

/-- Every operation keeps the state coherent, wherever it stops. -/
theorem act (op : Operation) : (t.act op).Coheres := by
  cases op with
  | insertText text => exact insertText text
  | insertEquation text style => exact insertEquation t text style
  | insertLatexEquation latex style => exact insertEquation t _ style
  | breakLine => exact breakLine
  | insertParagraph => exact breakLine.bind fun _ => insertSpace
  | insertSmallParagraph => exact pure ()
  | insertSpace => exact insertSpace
  | openContainer => exact openContainer t false
  | openFramedContainer => exact openContainer t true
  | closeContainer => exact closeContainer
  | insertTemplate template => exact (IsStateless.insertTemplate t template).coheres
  | focusPlaceholder placeholder => exact focusPlaceholder placeholder
  | insertTable spec => exact insertTable t spec
  | setBold enabled =>
    exact behind (IsStateless.require _).discard fun _ =>
      updateState fun _ h => ⟨h.insideContainer, h.lineStart, h.lastWasEquation⟩
  | setUnderline enabled =>
    exact ignores fun _ => behind (IsStateless.require _).discard fun _ =>
      updateState fun _ h => ⟨h.insideContainer, h.lineStart, h.lastWasEquation⟩
  | setBorderInvisible => exact (IsStateless.require _).discard.coheres
  | alignRightNextLine | alignJustifyNextLine =>
    exact updateState fun _ h => ⟨h.insideContainer, h.lineStart, h.lastWasEquation⟩
  | setCharWidthRatio percent => exact (IsStateless.require _).discard.coheres

/-- An operation that loses its session puts a coherent state back. -/
theorem operation (op : Operation) : (t.operation op).Coheres := by
  intro s hs
  unfold CoheresFrom
  rw [Typist.run_operation]
  rintro (_ | _) -
  · refine ((act t op s hs).mono ?_).bind
    rintro ⟨e | _, s'⟩ _ h
    · show TypingState.IsCoherent (if e.isGone then s else s')
      split
      · exact hs
      · exact h
    · exact h
  · exact hs

end Coheres

end Typing

/-! ## States that are reached -/

/-- An operation leaves a coherent state behind, with whatever it ends. -/
theorem Typist.isCoherent_apply (t : Typist σ) (op : Operation) {desk : Desk σ}
    (h : desk.state.IsCoherent) : (t.apply op desk).2.state.IsCoherent := by
  have hends := (Typing.Coheres.operation t op desk.state h).hold (e := t.editor)
    (v := fun _ => ()) (J := fun _ => True) (o := ⟨desk.target, desk.token⟩)
    (fun _ _ => trivial) (fun _ _ _ _ => ⟨trivial, trivial⟩) trivial
  exact hends.1

/-- A state of typing is reached when operations lead to it from the first one. Each of them may
    fail or stop, and before each the target and the token may have become anything. -/
inductive TypingState.Reached : TypingState → Prop
  | initial : Reached {}
  | apply {σ : Type} (t : Typist σ) (op : Operation) (desk : Desk σ) :
    Reached desk.state → Reached (t.apply op desk).2.state

/-- Every state that is reached is coherent. -/
theorem TypingState.isCoherent_of_reached {s : TypingState} (h : s.Reached) : s.IsCoherent := by
  induction h with
  | initial => exact isCoherent_initial
  | apply t op _ _ ih => exact t.isCoherent_apply op ih

/-- A controller cancels a framed box at its third call, and the equation that is typed next finds
    its session lost. -/
theorem TypingState.isCoherent_brokenBox :
    let box := Repair.plainTypist.apply .openFramedContainer
      ⟨Repair.emptyDesk.target, Token.armed {} 3, {}⟩
    let lost := Repair.plainTypist.apply (.insertEquation ['x'] {})
      ⟨Repair.emptyDesk.target.inject ⟨.disconnect, 0⟩, {}, box.2.state⟩
    box.1 = .error .cancelled ∧ box.2.state.containerLineStart ∧
      lost.1 = .error (.target .gone) ∧ lost.2.state = box.2.state ∧
      lost.2.state.Reached ∧ lost.2.state.IsCoherent := by
  intro box lost
  have hbox : box.2.state.Reached := .apply _ .openFramedContainer _ .initial
  have hlost : lost.2.state.Reached := .apply _ (.insertEquation ['x'] {}) _ hbox
  exact ⟨by decide +kernel, by decide +kernel, by decide +kernel, by decide +kernel, hlost,
    isCoherent_of_reached hlost⟩

end Scribe
