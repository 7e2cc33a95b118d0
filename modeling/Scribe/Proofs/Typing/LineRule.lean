import Scribe.Proofs.Document.Moments
import Scribe.Proofs.Repair.Nesting
import Scribe.Proofs.Typing.Undisturbed

set_option autoImplicit false

/-! # The rule of aligned lines

An alignment that is asked for is due on the line that is begun next, from the first thing that is
typed on it up to its break; then left alignment comes back before anything else happens. Here this
is a rule that what happens in order passes or not, with what it says of the state of typing and of
the document. -/

namespace Scribe

variable {α : Type}

/-! ## The rule -/

namespace Primitive

/-- Does a call type something? -/
def types : Primitive → Bool
  | .insertText _ | .createEquation _ | .createTable _ _ | .insertFragment _ => true
  | _ => false

/-- Does a call break the line? -/
def breaks : Primitive → Bool
  | .run .breakPara => true
  | _ => false

/-- Does a call bring left alignment into force? -/
def alignsLeft : Primitive → Bool
  | .run .alignLeft => true
  | _ => false

end Primitive

/-- What happens while lines are typed. -/
inductive Doing where
  /-- An alignment is asked for. -/
  | asked (alignment : LineAlignment)
  /-- A call reaches the document. -/
  | called (m : Moment)

/-- The alignment of a document that is meant, if any. -/
def LineAlignment.alignment? : LineAlignment → Option Alignment
  | .none => Option.none
  | .right => some .right
  | .justify => some .justify

/-- Which alignment is due on which line. -/
structure LineRule where
  /-- The alignment asked for and not yet met. -/
  asked : LineAlignment := .none
  /-- The alignment of the line, once something was typed on it. -/
  line : Option LineAlignment := none
  /-- An aligned line was broken, and left alignment must come back. -/
  restoring : Bool := false
  /-- The alignment of lines that none is asked for. -/
  base : Alignment

namespace LineRule

/-- The alignment of the line as far as it was typed. -/
def inForce (rule : LineRule) : Alignment := (rule.line.getD .none).alignment?.getD rule.base

/-- The alignment of what is typed next. -/
def due (rule : LineRule) : Alignment := (rule.line.getD rule.asked).alignment?.getD rule.base

/-- May this happen? -/
def Allows (rule : LineRule) : Doing → Prop
  | .asked _ => rule.restoring = false
  | .called m =>
    (rule.restoring → m.call.alignsLeft) ∧ (m.call.types → m.document.alignment = rule.due) ∧
      (m.call.breaks → m.document.alignment = rule.inForce)

instance (rule : LineRule) : (d : Doing) → Decidable (rule.Allows d)
  | .asked _ => inferInstanceAs (Decidable (rule.restoring = false))
  | .called _ => inferInstanceAs (Decidable (_ ∧ _ ∧ _))

/-- The rule behind what happened. -/
def next (rule : LineRule) : Doing → LineRule
  | .asked asked => { rule with asked }
  | .called m =>
    if m.call.types then
      { rule with
        line := some (rule.line.getD rule.asked)
        asked := if rule.line.isSome then rule.asked else .none }
    else if m.call.breaks then
      { rule with line := none, restoring := (rule.line.getD .none).isSet }
    else if rule.restoring then { rule with restoring := false, base := .left }
    else rule

/-- The rule behind all that happened. -/
def after (rule : LineRule) (ds : List Doing) : LineRule := ds.foldl next rule

/-- All that happens is allowed when it happens. -/
def Passes (rule : LineRule) : List Doing → Prop
  | [] => True
  | d :: ds => rule.Allows d ∧ (rule.next d).Passes ds

instance decidablePasses (rule : LineRule) : (ds : List Doing) → Decidable (rule.Passes ds)
  | [] => inferInstanceAs (Decidable True)
  | d :: ds =>
    have := (rule.next d).decidablePasses ds
    inferInstanceAs (Decidable (_ ∧ _))

/-- All that happens is allowed, and in the end left alignment is not wanting. -/
structure IsObeyed (rule : LineRule) (ds : List Doing) : Prop where
  passes : rule.Passes ds
  restored : (rule.after ds).restoring = false

theorem passes_append {rule : LineRule} {ds es : List Doing} :
    rule.Passes (ds ++ es) ↔ rule.Passes ds ∧ (rule.after ds).Passes es := by
  induction ds generalizing rule with
  | nil => simp [Passes, after]
  | cons d ds ih => exact (and_congr_right' ih).trans and_assoc.symm

theorem after_append (rule : LineRule) (ds es : List Doing) :
    rule.after (ds ++ es) = (rule.after ds).after es := List.foldl_append

end LineRule

/-! ## What happens -/

/-- The calls that a dialogue makes, with the document as each of them finds it. -/
def Dialogue.moments (e : Editor Document) : Dialogue α → Outside Document → List Moment
  | .done _, _ => []
  | .look next, o => (next o.token.cancelled).moments e o
  | .ask (.call p) next, o =>
    ⟨o.target, p⟩ :: (next (o.answer e (.call p)).1).moments e (o.answer e (.call p)).2
  | .ask r next, o => (next (o.answer e r).1).moments e (o.answer e r).2

/-- The alignment that an operation asks for. -/
def Operation.request? : Operation → Option LineAlignment
  | .alignRightNextLine => some .right
  | .alignJustifyNextLine => some .justify
  | _ => none

/-- Does an operation type text, spaces, equations or breaks, or ask for an alignment? -/
def Operation.isOfLines : Operation → Bool
  | .insertText _ | .insertEquation _ _ | .insertLatexEquation _ _ | .breakLine | .insertParagraph
  | .insertSmallParagraph | .insertSpace | .alignRightNextLine | .alignJustifyNextLine => true
  | _ => false

namespace Typist

/-- What happens while an operation is carried out. -/
def doing (t : Typist Document) (op : Operation) (desk : Desk Document) : List Doing :=
  op.request?.toList.map .asked ++
    (((t.operation op).run.run desk.state).moments t.editor ⟨desk.target, desk.token⟩).map .called

/-- What happens while operations are carried out in order. -/
def doings (t : Typist Document) : List Operation → Desk Document → List Doing
  | [], _ => []
  | op :: ops, desk => t.doing op desk ++ t.doings ops (t.apply op desk).2

/-- An operation slips: it types a space at the start of a line without the alignment that is asked
    for, or it begins a line without typing anything. -/
def Slips (t : Typist Document) (s : TypingState) : Operation → Prop
  | .insertSpace => s.lineStart ∧ s.pendingAlignment.isSet
  | .insertParagraph => s.pendingAlignment.isSet
  | .insertText text =>
    s.lineStart ∧ text ≠ [] ∧ Typing.trimRun s.pendingAlignment s (readTab text) = []
  | op@(.insertEquation _ _) | op@(.insertLatexEquation _ _) =>
    s.lineStart ∧ Text.trim (t.equation op) = [] ∧ (s.pendingAlignment = .right ∨
      s.hasWrittenFirstLine = false ∧ (t.equation op).head? ≠ some '\t')
  | _ => False

instance (t : Typist Document) (s : TypingState) : (op : Operation) → Decidable (t.Slips s op)
  | .insertSpace => inferInstanceAs (Decidable (_ ∧ _))
  | .insertParagraph => inferInstanceAs (Decidable (_ = _))
  | .insertText _ => inferInstanceAs (Decidable (_ ∧ _ ∧ _))
  | .insertEquation _ _ | .insertLatexEquation _ _ =>
    inferInstanceAs (Decidable (_ ∧ _ ∧ (_ ∨ _ ∧ _)))
  | .breakLine | .insertSmallParagraph | .openContainer | .openFramedContainer | .closeContainer
  | .insertTemplate _ | .focusPlaceholder _ | .insertTable _ | .setBold _ | .setUnderline _
  | .setBorderInvisible | .alignRightNextLine | .alignJustifyNextLine | .setCharWidthRatio _ =>
    inferInstanceAs (Decidable False)

/-- No operation slips in the state that it is carried out in. -/
def IsHeedful (t : Typist Document) : List Operation → Desk Document → Prop
  | [], _ => True
  | op :: ops, desk => ¬ t.Slips desk.state op ∧ t.IsHeedful ops (t.apply op desk).2

instance decidableIsHeedful (t : Typist Document) :
    (ops : List Operation) → (desk : Desk Document) → Decidable (t.IsHeedful ops desk)
  | [], _ => inferInstanceAs (Decidable True)
  | op :: ops, desk =>
    have := t.decidableIsHeedful ops (t.apply op desk).2
    inferInstanceAs (Decidable (¬ _ ∧ _))

end Typist

/-! ## Under the rule -/

namespace Document

variable {x : Document}

theorem alignment_perform_run (h : x.IsCalm) (command : Command) :
    (x.perform (.run command)).2.alignment =
      match command with
      | .alignLeft => .left
      | .alignRight => .right
      | .alignCenter => .center
      | .alignJustify => .justify
      | _ => x.alignment := by
  rw [perform_of_isCalm h]
  cases command <;> rfl

theorem alignment_perform_of_types (h : x.IsCalm) {p : Primitive} (hp : p.types) :
    (x.perform p).2.alignment = x.alignment := by
  rw [perform_of_isCalm h]
  cases p with
  | insertText _ | createEquation _ => rfl
  | createTable _ _ => simp only [effect]; split <;> rfl
  | insertFragment _ => simp only [effect]; split <;> rfl
  | _ => cases hp

theorem alignment_perform_objectAnchor (h : x.IsCalm) (treatAsChar : Bool) :
    (x.perform (.objectAnchor treatAsChar)).2.alignment = x.alignment := by
  rw [perform_of_isCalm h]
  simp only [effect]
  split <;> rfl

end Document

namespace Typing

/-- Undisturbed, an action succeeds, keeps to the rule and comes to `Q`. -/
abbrev Obeys (m : Typing α) (Q : α → TypingState → Document × LineRule → Prop) (s : TypingState)
    (x : Document) (rule : LineRule) : Prop :=
  Attains (fun p y => y.2.Allows (.called ⟨y.1, p⟩))
    (fun p y => ((y.1.perform p).1, (y.1.perform p).2, y.2.next (.called ⟨y.1, p⟩))) m Q s (x, rule)

end Typing

/-- What a dialogue ensures under the rule comes about when it is held. -/
theorem Dialogue.Ensures.moments {d : Dialogue α} {Q : α → Document × LineRule → Prop}
    {x : Document} {rule : LineRule}
    (h : d.Ensures (.undisturbed (fun p y => y.2.Allows (.called ⟨y.1, p⟩))
      fun p y => ((y.1.perform p).1, (y.1.perform p).2, y.2.next (.called ⟨y.1, p⟩))) Q (x, rule))
    (c : Document.Connection) {token : Token} (htoken : token.IsFree) :
    rule.Passes ((d.moments (Document.editor c) ⟨x, token⟩).map .called) ∧
      ∃ a x', d.hold (Document.editor c) ⟨x, token⟩ = (a, ⟨x', token⟩) ∧
        Q a (x', rule.after ((d.moments (Document.editor c) ⟨x, token⟩).map .called)) := by
  induction d generalizing x rule with
  | done a => exact ⟨trivial, a, x, rfl, h⟩
  | look next ih => exact ih _ (h _ htoken.cancelled)
  | ask r next ih =>
    cases r with
    | call p =>
      obtain ⟨hallows, hnext⟩ := h
      have hanswer : Outside.answer (Document.editor c) (.call p) ⟨x, token⟩ =
          ((x.perform p).1, ⟨(x.perform p).2, token⟩) := by
        show (_, Outside.mk _ (token.answered (.call p))) = _
        rw [htoken.answered]
        rfl
      simp only [Dialogue.moments, Dialogue.hold, hanswer]
      obtain ⟨hpasses, hend⟩ := ih _ (hnext _ _ rfl)
      exact ⟨⟨hallows, hpasses⟩, hend⟩
    | identity => exact absurd h.1 id
    | connect _ => exact absurd h.1 id

/-! ## States under the rule -/

namespace LineRule

/-- Lines are typed outside of containers, and left alignment is not wanting. -/
structure Proceeds (rule : LineRule) (s : TypingState) (x : Document) : Prop where
  calm : x.IsCalm
  proper : x.buffer.IsProper
  outside : s.insideContainer = false
  restoring : rule.restoring = false

/-- The alignment of the line as far as it was typed is in force. -/
structure Suits (rule : LineRule) (s : TypingState) (x : Document) : Prop
    extends Proceeds rule s x where
  asked : s.pendingAlignment = rule.asked
  line : s.lineAlignment = rule.line.getD .none
  alignment : x.alignment = rule.inForce

/-- A line starts where nothing was typed on it. -/
structure Fits (rule : LineRule) (s : TypingState) (x : Document) : Prop
    extends Suits rule s x where
  lineStart : s.lineStart = rule.line.isNone

/-- The alignment that is due was brought into force. -/
structure Holds (rule : LineRule) (s : TypingState) (x : Document) : Prop
    extends Proceeds rule s x where
  asked : s.pendingAlignment = if rule.line.isSome then rule.asked else .none
  line : s.lineAlignment = rule.line.getD rule.asked
  alignment : x.alignment = rule.due

variable {rule : LineRule} {s s' : TypingState} {x : Document} {p : Primitive}

theorem Fits.isSome_line (h : rule.Fits s x) (hs : s.lineStart = false) : rule.line.isSome := by
  have hnone := h.lineStart
  cases hline : rule.line <;> simp_all

theorem Fits.line_eq_none (h : rule.Fits s x) (hs : s.lineStart = true) : rule.line = none := by
  have hnone := h.lineStart
  cases hline : rule.line <;> simp_all

/-- At the start of a line the request is taken, and the line has it from then on. -/
theorem Fits.takeAlignment (h : rule.Fits s x) (hs : s.lineStart = true) :
    s.takeAlignment = (rule.asked, { s with
      pendingAlignment := .none, lineAlignment := rule.asked }) := by
  rw [TypingState.takeAlignment, if_pos hs, h.asked, h.line, h.line_eq_none hs]
  cases rule.asked <;> rfl

theorem Suits.holds (h : rule.Suits s x) (hdue : rule.line.isSome ∨ rule.asked = .none) :
    rule.Holds s x where
  toProceeds := h.toProceeds
  asked := by
    rw [h.asked]
    rcases hdue with hline | hasked
    · rw [if_pos hline]
    · simp [hasked]
  line := by
    rw [h.line]
    cases hline : rule.line <;> simp_all
  alignment := by
    rw [h.alignment, inForce, due]
    cases hline : rule.line <;> simp_all

theorem Holds.suits (h : rule.Holds s x) (hline : rule.line.isSome) : rule.Suits s x where
  toProceeds := h.toProceeds
  asked := by rw [h.asked, if_pos hline]
  line := by
    obtain ⟨alignment, hsome⟩ := Option.isSome_iff_exists.1 hline
    rw [h.line, hsome]
    rfl
  alignment := by
    obtain ⟨alignment, hsome⟩ := Option.isSome_iff_exists.1 hline
    rw [h.alignment, inForce, due, hsome]
    rfl

/-- Only the alignments and the container matter. -/
theorem Holds.of_eq (h : rule.Holds s x) (hasked : s'.pendingAlignment = s.pendingAlignment)
    (hline : s'.lineAlignment = s.lineAlignment)
    (hinside : s'.insideContainer = s.insideContainer) : rule.Holds s' x where
  calm := h.calm
  proper := h.proper
  outside := hinside.trans h.outside
  restoring := h.restoring
  asked := hasked.trans h.asked
  line := hline.trans h.line
  alignment := h.alignment

/-- A line that was begun is behind its start. -/
theorem Holds.fits (h : rule.Holds s x) (hline : rule.line.isSome)
    (hasked : s'.pendingAlignment = s.pendingAlignment)
    (halignment : s'.lineAlignment = s.lineAlignment)
    (hinside : s'.insideContainer = s.insideContainer) (hstart : s'.lineStart = false) :
    rule.Fits s' x where
  toSuits := (h.of_eq hasked halignment hinside).suits hline
  lineStart := by
    rw [hstart]
    cases hrule : rule.line <;> simp_all

/-- Typing under the alignment that is due begins the line with it. -/
theorem Holds.types (h : rule.Holds s x) (hp : p.types) :
    rule.Allows (.called ⟨x, p⟩) ∧ (rule.next (.called ⟨x, p⟩)).Holds s (x.perform p).2 ∧
      (rule.next (.called ⟨x, p⟩)).line.isSome := by
  have hbreaks : p.breaks = false := by cases p <;> first | rfl | cases hp
  have hnext : rule.next (.called ⟨x, p⟩) = { rule with
      line := some (rule.line.getD rule.asked)
      asked := if rule.line.isSome then rule.asked else .none } := if_pos hp
  rw [hnext]
  refine ⟨⟨?_, fun _ => h.alignment, ?_⟩, ⟨⟨h.calm.perform p,
    Document.isProper_perform h.proper p, h.outside, h.restoring⟩, h.asked, h.line, ?_⟩, rfl⟩
  · rw [h.restoring]
    exact nofun
  · rw [hbreaks]
    exact nofun
  · rw [Document.alignment_perform_of_types h.calm hp]
    exact h.alignment

/-- A call that neither types nor breaks makes no difference to the rule. -/
theorem Proceeds.passed (h : rule.Proceeds s x) (htypes : p.types = false)
    (hbreaks : p.breaks = false) :
    rule.Allows (.called ⟨x, p⟩) ∧ rule.next (.called ⟨x, p⟩) = rule ∧
      rule.Proceeds s (x.perform p).2 := by
  refine ⟨⟨?_, ?_, ?_⟩, ?_, ⟨h.calm.perform p, Document.isProper_perform h.proper p, h.outside,
    h.restoring⟩⟩
  · rw [h.restoring]
    exact nofun
  · rw [htypes]
    exact nofun
  · rw [hbreaks]
    exact nofun
  · simp [next, htypes, hbreaks, h.restoring]

end LineRule

end Scribe
