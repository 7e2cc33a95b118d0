import Mathlib.Data.List.Forall2
import Scribe.Document.Editor
import Scribe.Proofs.Repair.Skeleton
import Scribe.Proofs.Typing.Ensures
import Scribe.Repair.Containers

set_option autoImplicit false

/-! # Nesting and typing

Compacting the breaks in containers tracks by a depth and a flag whether a container is open. Typing
remembers by a single flag whether the cursor is in one. Main statement: as long as every operation
succeeds, the two agree behind every line exactly when no line parts them. A line parts them when it
closes one of two open containers, when it requests a zone outside while a plain container is open,
or when a custom request or a template comes while only the inside zone is open. -/

namespace Scribe

variable {σ α β : Type}

/-! ## The flag of typing -/

/-- A conduct under which anything may happen. -/
def Conduct.any : Conduct Unit where
  allows _ _ := True
  sees _ := True
  answers _ _ _ _ := True

/-- An action that is not stopped changes by `f` whether the cursor is in a container. -/
def Typing.Steers (f : Bool → Bool) (m : Typing α) : Prop :=
  ∀ s, (m.run.run s).Ensures .any
    (fun r _ => ∀ a, r.1 = .ok a → r.2.insideContainer = f s.insideContainer) ()

namespace Typing.Steers

theorem pure (a : α) : Steers id (pure a : Typing α) := fun _ _ _ => rfl

theorem throw {f : Bool → Bool} (e : TypingError) : Steers f (throw e : Typing α) :=
  fun _ _ h => nomatch h

theorem typingState : Steers id typingState := fun _ _ _ => rfl

theorem updateState {f : Bool → Bool} {g : TypingState → TypingState}
    (hg : ∀ s, (g s).insideContainer = f s.insideContainer) : Steers f (updateState g) :=
  fun s _ _ => hg s

theorem bind {f g : Bool → Bool} {m : Typing α} {n : α → Typing β} (hm : m.Steers f)
    (hn : ∀ a, (n a).Steers g) : Steers (g ∘ f) (m >>= n) := by
  intro s
  rw [run_bind]
  refine ((hm s).mono ?_).bind
  rintro ⟨e | a, s'⟩ _ h
  · exact fun a ha => nomatch ha
  · exact (hn a s').mono fun r _ hr b hb => (hr b hb).trans (congrArg g (h a rfl))

variable {f : Bool → Bool}

/-- Behind an action that leaves the flag as it is. -/
theorem behind {m : Typing α} {n : α → Typing β} (hm : m.Steers id) (hn : ∀ a, (n a).Steers f) :
    Steers f (m >>= n) := bind (g := f) hm hn

/-- Before an action that leaves the flag as it is. -/
theorem before {m : Typing α} {n : α → Typing β} (hm : m.Steers f) (hn : ∀ a, (n a).Steers id) :
    Steers f (m >>= n) := bind (g := id) hm hn

theorem ite {c : Prop} [Decidable c] {m n : Typing α} (hm : m.Steers f) (hn : n.Steers f) :
    Steers f (if c then m else n) := by
  split
  · exact hm
  · exact hn

theorem call (p : Primitive) : Steers id (call p) := by
  rintro s (_ | _) -
  · exact ⟨trivial, fun _ _ _ _ _ => rfl⟩
  · exact fun _ h => nomatch h

theorem require (p : Primitive) : Steers id (require p) :=
  behind (call p) fun r => match r with
    | .ok found => .pure found
    | .error e => .throw (.target e)

theorem tryRun (command : Command) : Steers id (tryRun command) :=
  behind (call (.run command)) fun r => match r with
    | .ok found => .pure found
    | .error (.action _ _) => .pure false
    | .error (.sessionUnavailable _) => .throw _
    | .error (.documentNotFound _) => .throw _

theorem bestEffort (p : Primitive) : Steers id (bestEffort p) := by
  refine behind (call p) fun r => ?_
  rcases r with e | found
  · exact ite (throw _) (pure false)
  · exact pure found

/-- Whatever is called, the flag changes by what is done to the state only. -/
theorem composes : Composes (fun _ => True) fun α (m : Typing α) => m.Steers id where
  format _ := trivial
  pure := pure
  throw _ _ := throw _
  bind hm hf := behind hm hf
  revise hg hf s := (hf s _).mono fun _ _ h a ha => (h a ha).trans (hg s)
  typingState := typingState
  updateState hg := updateState hg
  require _ := require _
  tryRun _ := tryRun _
  bestEffort _ := bestEffort _

end Typing.Steers

/-- Whether the cursor is in a container behind an operation, given whether it was before. -/
def Operation.insideAfter : Operation → Bool → Bool
  | .openContainer | .openFramedContainer | .focusPlaceholder (.zone .inside) => fun _ => true
  | .closeContainer | .focusPlaceholder (.zone _) => fun _ => false
  | _ => id

namespace Typing.Steers

open Scribe.Operation

variable (t : Typist σ)

theorem openContainer (framed : Bool) : Steers (fun _ => true) (t.openContainer framed) := by
  have hbehind : Steers (fun _ => true) (do
      Scribe.updateState fun s => s.enterContainer.markWritten
      t.boxTextStyle
      compactParagraph
      if framed then discard (Typing.tryRun .alignJustify)) :=
    before (updateState fun _ => rfl) fun _ => behind (composes.boxTextStyle t) fun _ =>
      behind composes.compactParagraph fun _ => composes.when (composes.run trivial)
  have hbuild : Steers id (t.buildContainer framed) :=
    composes.buildContainer t framed (fun _ _ => trivial) trivial trivial trivial
  refine behind (require _) fun found => ite (behind (tryRun _) fun moved => ?_) ?_
  · exact ite hbehind (behind (composes.bareContainer trivial trivial) fun _ => hbehind)
  · exact behind hbuild fun _ => hbehind

theorem closeContainer : Steers (fun _ => false) closeContainer := by
  refine behind (composes.leaveCell trivial trivial) fun closed =>
    ite (behind (composes.run trivial) fun _ => ?_) ?_
  all_goals
    refine before (updateState fun _ => rfl) fun _ => ite (updateState fun _ => rfl) ?_
    exact behind (throw _) fun _ => updateState fun _ => rfl

theorem focusPlaceholder (placeholder : Placeholder) :
    Steers (insideAfter (.focusPlaceholder placeholder)) (focusPlaceholder placeholder) := by
  have hfind (needles : List Text) : Steers id (findAny needles) :=
    composes.findAny fun _ _ => trivial
  have henter : Steers (insideAfter (.focusPlaceholder placeholder))
      (Scribe.updateState fun s => s.enterZone placeholder.zone?) :=
    updateState fun s => by rcases placeholder with (_ | _ | _) | _ <;> rfl
  have herase {n : Typing Unit} (hn : n.Steers (insideAfter (.focusPlaceholder placeholder))) :
      Steers (insideAfter (.focusPlaceholder placeholder)) (eraseMarker >>= fun _ => n) :=
    behind (composes.eraseMarker trivial trivial) fun _ => hn
  rw [focusPlaceholder_eq]
  refine behind (hfind _) fun found => ite (herase henter) (ite ?_ henter)
  refine behind (composes.run trivial) fun _ => behind (hfind _) fun found => ?_
  exact ite (herase henter) (ite (behind (composes.run trivial) fun _ => henter) henter)

/-- Every operation that succeeds sets the flag as `insideAfter` says. -/
theorem act (op : Operation) : Steers op.insideAfter (t.act op) := by
  have hobject (spec : EquationSpec) : Steers id (insertObject spec) :=
    composes.insertObject trivial trivial trivial trivial
  cases op with
  | openContainer => exact openContainer t false
  | openFramedContainer => exact openContainer t true
  | closeContainer => exact closeContainer
  | insertTemplate template =>
    exact composes.insertTemplate t template trivial trivial (fun _ => trivial) trivial
  | focusPlaceholder placeholder => exact focusPlaceholder placeholder
  | insertTable spec =>
    refine composes.insertTable t spec trivial (fun _ _ => trivial) trivial trivial trivial trivial
      trivial fun _ _ _ _ => ?_
    exact composes.fillCell t _ trivial (fun _ _ => trivial) fun _ _ => hobject _
  | _ => exact composes.plain t rfl trivial (fun _ _ => trivial) fun _ _ => hobject _

theorem operation (op : Operation) : Steers op.insideAfter (t.operation op) := by
  intro s
  rw [Typist.run_operation]
  rintro (_ | _) -
  · refine ((act t op s).mono ?_).bind
    rintro ⟨_ | _, s'⟩ _ h
    · exact fun _ ha => nomatch ha
    · exact h
  · exact fun _ ha => nomatch ha

end Typing.Steers

/-! ## Operations in order -/

/-- Carries out operations in order. -/
def Typist.applyAll (t : Typist σ) : List Operation → ExceptT TypingError (StateM (Desk σ)) Unit
  | [] => pure ()
  | op :: ops => do
    t.apply op
    t.applyAll ops

/-- Whether the cursor is in a container behind operations, given whether it was before. -/
def insideBehind (ops : List Operation) (inside : Bool) : Bool :=
  ops.foldl (fun inside op => op.insideAfter inside) inside

theorem Typist.insideContainer_apply (t : Typist σ) {op : Operation} {desk : Desk σ}
    (h : (t.apply op desk).1 = .ok ()) :
    (t.apply op desk).2.state.insideContainer = op.insideAfter desk.state.insideContainer := by
  have hends := (Typing.Steers.operation t op desk.state).hold (e := t.editor) (v := fun _ => ())
    (J := fun _ => True) (o := ⟨desk.target, desk.token⟩) (fun _ _ => trivial)
    (fun _ _ _ _ => ⟨trivial, trivial⟩) trivial
  exact hends.1 () h

theorem Typist.applyAll_cons (t : Typist σ) (op : Operation) (ops : List Operation)
    (desk : Desk σ) : t.applyAll (op :: ops) desk =
      match t.apply op desk with
      | (.ok (), desk) => t.applyAll ops desk
      | (.error e, desk) => (.error e, desk) := by
  show StateT.bind (t.apply op) (ExceptT.bindCont fun _ => t.applyAll ops) desk = _
  simp only [StateT.bind]
  rcases t.apply op desk with ⟨_ | _, _⟩ <;> rfl

theorem Typist.applyAll_append (t : Typist σ) (ops more : List Operation) (desk : Desk σ) :
    t.applyAll (ops ++ more) desk =
      match t.applyAll ops desk with
      | (.ok (), desk) => t.applyAll more desk
      | (.error e, desk) => (.error e, desk) := by
  induction ops generalizing desk with
  | nil => rfl
  | cons op ops ih =>
    rw [List.cons_append, applyAll_cons, applyAll_cons]
    rcases t.apply op desk with ⟨_ | _, desk'⟩
    · rfl
    · exact ih desk'

/-- When operations in order all succeed, the flag is as they say. -/
theorem Typist.insideContainer_applyAll (t : Typist σ) {ops : List Operation} {desk : Desk σ}
    (h : (t.applyAll ops desk).1 = .ok ()) :
    (t.applyAll ops desk).2.state.insideContainer =
      insideBehind ops desk.state.insideContainer := by
  induction ops generalizing desk with
  | nil => rfl
  | cons op ops ih =>
    have happly : (t.apply op desk).1 = .ok () → _ := t.insideContainer_apply
    rw [applyAll_cons] at h ⊢
    revert h happly
    rcases t.apply op desk with ⟨_ | _, desk'⟩ <;> intro h happly
    · cases h
    · exact (ih h).trans (congrArg (insideBehind ops) (happly rfl))

/-- When operations in order all succeed, so do the first of them. -/
theorem Typist.applyAll_take (t : Typist σ) {ops : List Operation} {desk : Desk σ} (k : Nat)
    (h : (t.applyAll ops desk).1 = .ok ()) : (t.applyAll (ops.take k) desk).1 = .ok () := by
  rw [← List.take_append_drop k ops, applyAll_append] at h
  rcases hfirst : t.applyAll (ops.take k) desk with ⟨_ | _, desk'⟩
  · rw [hfirst] at h
    cases h
  · rfl

namespace Repair

/-! ## Lines and operations -/

/-- An operation does to containers, zones and templates what a line is seen to do. -/
def Line.Describes (line : Line) : Operation → Prop
  | .openContainer => line = .opening .insertBox
  | .openFramedContainer => line = .opening .insertViewBox
  | .closeContainer => line = .exit
  | .insertTemplate t => line = .template (some t)
  | .focusPlaceholder placeholder => line = .focus placeholder
  | _ => match line with
    | .opening _ | .exit | .template _ | .focus _ => False
    | _ => True

/-- A line parts nesting and typing: behind it, a container is open for the one of them only. -/
def Nesting.Parts (n : Nesting) : Line → Prop
  | .exit => 1 < n.plainDepth ∨ n.plainDepth = 1 ∧ n.inZone
  | .focus (.zone .before) | .focus (.zone .after) => 0 < n.plainDepth
  | .focus (.custom _) | .template _ => n.plainDepth = 0 ∧ n.inZone
  | _ => False

/-- From where nesting and typing agree, they agree behind a line unless it parts them. -/
theorem Nesting.inside_observe_iff {n : Nesting} {line : Line} {op : Operation}
    (h : line.Describes op) :
    (n.observe line).inside = op.insideAfter n.inside ↔ ¬ n.Parts line := by
  obtain ⟨depth, inZone⟩ := n
  cases op with
  | openContainer | openFramedContainer =>
    cases h
    simp [observe, inside, Operation.insideAfter, Parts]
  | closeContainer =>
    cases h
    rcases depth with _ | _ | depth <;>
      simp [observe, inside, Operation.insideAfter, Parts]
  | insertTemplate template =>
    cases h
    cases inZone <;> simp [observe, inside, Operation.insideAfter, Parts, Nat.pos_iff_ne_zero]
  | focusPlaceholder placeholder =>
    cases h
    rcases placeholder with (_ | _ | _) | _ <;> cases inZone <;>
      simp [observe, inside, Operation.insideAfter, Parts, Nat.pos_iff_ne_zero]
  | _ =>
    cases line with
    | opening _ | exit | template _ | focus _ => exact h.elim
    | _ => simp [observe, Operation.insideAfter, Parts]

/-- What the pass knows of the nesting is what it observes. -/
theorem fst_foldl_compactStep (lines : List Text) (state : Nesting × List Text) :
    (lines.foldl compactStep state).1 =
      (lines.map Line.classify).foldl Nesting.observe state.1 := by
  induction lines generalizing state with
  | nil => rfl
  | cons line lines ih =>
    have hstep : (compactStep state line).1 = state.1.observe (Line.classify line) := by
      obtain ⟨nesting, written⟩ := state
      simp only [compactStep]
      cases hline : Line.classify line with
      | lineBreak => split <;> rfl
      | _ => rfl
    rw [List.foldl_cons, ih, hstep, List.map_cons, List.foldl_cons]

/-- Lines of which none parts nesting and typing keep them together, and the first that does
    shows. -/
theorem inside_foldl_observe_iff {lines : List Line} {ops : List Operation}
    (describes : List.Forall₂ Line.Describes lines ops) {n : Nesting} {inside : Bool}
    (h : n.inside = inside) :
    (∀ k ≤ lines.length,
      ((lines.take k).foldl Nesting.observe n).inside = insideBehind (ops.take k) inside) ↔
    ∀ k, (hk : k < lines.length) →
      ¬ ((lines.take k).foldl Nesting.observe n).Parts lines[k] := by
  induction describes generalizing n inside with
  | nil => simp [h, insideBehind]
  | @cons line op lines ops hline _ ih =>
    subst h
    by_cases hparts : n.Parts line
    · refine iff_of_false (fun hall => ?_) fun hall => hall 0 (by simp) hparts
      exact (Nesting.inside_observe_iff hline).1 (hall 1 (by simp)) hparts
    · have hnext := ih ((Nesting.inside_observe_iff hline).2 hparts)
      constructor
      · intro hall k hk
        cases k with
        | zero => exact hparts
        | succ k =>
          refine hnext.1 (fun j hj => ?_) k (by simpa using hk)
          exact hall (j + 1) (by simpa using hj)
      · intro hall k hk
        cases k with
        | zero => rfl
        | succ k =>
          refine hnext.2 (fun j hj => ?_) k (by simpa using hk)
          exact hall (j + 1) (by simpa using hj)

/-- The nesting that compacting the breaks knows of behind lines. -/
def nestingBehind (lines : List Text) : Nesting := (lines.foldl compactStep ({}, [])).1

/-- The pass and the typing agree behind every line exactly when no line parts them. -/
theorem inside_eq_insideContainer_iff (t : Typist σ) {lines : List Text} {ops : List Operation}
    (describes : List.Forall₂ (fun line op => (Line.classify line).Describes op) lines ops)
    {desk : Desk σ} (fresh : desk.state = {}) (succeeds : (t.applyAll ops desk).1 = .ok ()) :
    (∀ k ≤ lines.length, (nestingBehind (lines.take k)).inside =
      (t.applyAll (ops.take k) desk).2.state.insideContainer) ↔
    ∀ k, (h : k < lines.length) →
      ¬ (nestingBehind (lines.take k)).Parts (Line.classify lines[k]) := by
  have hflag (k : Nat) : (t.applyAll (ops.take k) desk).2.state.insideContainer =
      insideBehind (ops.take k) false := by
    rw [t.insideContainer_applyAll (t.applyAll_take k succeeds), fresh]
  have hdescribes : List.Forall₂ Line.Describes (lines.map Line.classify) ops :=
    (List.forall₂_map_left_iff).2 describes
  have hstart : ({} : Nesting).inside = false := rfl
  have hiff := inside_foldl_observe_iff hdescribes hstart
  simpa [hflag, nestingBehind, fst_foldl_compactStep, List.map_take] using hiff

/-- A desk with an empty document. -/
def emptyDesk : Desk Document := { target := .withStandardFragments "doc.hwp".toList }

/-- A typist with the settings as they come. -/
def plainTypist : Typist Document :=
  { editor := Document.editor {}, settings := {}, convert := fun latex _ => latex }

theorem inside_eq_insideContainer_box :
    List.Forall₂ (fun line op => (Line.classify line).Describes op) [openBoxLine, exitBoxLine]
      [.openContainer, .closeContainer] ∧
    emptyDesk.state = {} ∧
    (plainTypist.applyAll [.openContainer, .closeContainer] emptyDesk).1 = .ok () ∧
    ((∀ k ≤ 2, (nestingBehind ([openBoxLine, exitBoxLine].take k)).inside =
        (plainTypist.applyAll ([.openContainer, .closeContainer].take k)
          emptyDesk).2.state.insideContainer) ↔
      ∀ k, (h : k < [openBoxLine, exitBoxLine].length) →
        ¬ (nestingBehind ([openBoxLine, exitBoxLine].take k)).Parts
          (Line.classify [openBoxLine, exitBoxLine][k])) :=
  have describes : List.Forall₂ (fun line op => (Line.classify line).Describes op)
      [openBoxLine, exitBoxLine] [.openContainer, .closeContainer] :=
    .cons classify_openBoxLine (.cons classify_exitBoxLine .nil)
  have succeeds :
      (plainTypist.applyAll [.openContainer, .closeContainer] emptyDesk).1 = .ok () := by
    decide +kernel
  ⟨describes, rfl, succeeds, inside_eq_insideContainer_iff plainTypist describes rfl succeeds⟩

/-- Behind the exit from the inner one of two boxes the pass still sees a container, and drops a
    break there, while the typing is in none. -/
theorem inside_ne_insideContainer_nestedBoxes :
    List.Forall₂ (fun line op => (Line.classify line).Describes op)
      [openBoxLine, openBoxLine, exitBoxLine]
      [.openContainer, .openContainer, .closeContainer] ∧
    emptyDesk.state = {} ∧
    (plainTypist.applyAll [.openContainer, .openContainer, .closeContainer] emptyDesk).1 = .ok () ∧
    (nestingBehind [openBoxLine, openBoxLine, exitBoxLine]).inside = true ∧
    (plainTypist.applyAll [.openContainer, .openContainer, .closeContainer]
      emptyDesk).2.state.insideContainer = false ∧
    compactContainerBreaks [openBoxLine, openBoxLine, exitBoxLine, enterLine, enterLine] =
      [openBoxLine, openBoxLine, exitBoxLine, enterLine] :=
  ⟨.cons classify_openBoxLine (.cons classify_openBoxLine (.cons classify_exitBoxLine .nil)), rfl,
    by decide +kernel, by decide +kernel, by decide +kernel, by decide +kernel⟩

end Repair

end Scribe
