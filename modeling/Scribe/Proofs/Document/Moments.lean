import Scribe.Proofs.Document.Selections
import Scribe.Proofs.Typing.Ensures

set_option autoImplicit false

/-! # Dialogues with a document that others disturb

While a dialogue with a document goes on, others may plant faults in the document, take its session
down or bring it back, and cancel, at any time; only the contents they leave alone. What becomes of
the document is told by the calls that reached it. -/

namespace Scribe

variable {α β : Type}

/-! ## Moments -/

/-- A call, with the document as the call found it. -/
structure Moment where
  document : Document
  call : Primitive

namespace Moment

/-- What the call is answered. -/
def answer (m : Moment) : Except TargetError Bool := (m.document.perform m.call).1

/-- The document behind the call. -/
def after (m : Moment) : Document := (m.document.perform m.call).2

/-- The edit that the call makes. -/
def splice (m : Moment) : Splice := m.document.splice m.call

end Moment

/-- The elements were selected, and the call takes them out. -/
structure Moment.Takes (m : Moment) (es : List Element) : Prop where
  selects : m.document.buffer.Selects m.splice.start es
  removed : m.splice.removed = es.length

theorem Moment.removed_splice_ne_zero {m : Moment} (h : m.splice.removed ≠ 0) :
    (m.document.buffer.splice m.document.fragments m.call).removed ≠ 0 := by
  revert h
  unfold splice Document.splice
  split
  · exact id
  · exact fun h => absurd rfl h

/-- A call that takes anything out takes out what was selected. -/
theorem Moment.takes_of_selects {m : Moment} {start : Nat} {es : List Element}
    (h : m.document.buffer.Selects start es) (hremoved : m.splice.removed ≠ 0) : m.Takes es := by
  have hsplice : m.splice.start = start ∧ m.splice.removed = start + es.length - start := by
    revert hremoved
    unfold splice Document.splice
    split
    · intro hremoved
      exact (m.document.buffer.splice_of_selection h.selection _ _).resolve_left hremoved
    · exact fun hremoved => absurd rfl hremoved
  exact ⟨hsplice.1 ▸ h, by rw [hsplice.2, Nat.add_sub_cancel_left]⟩

/-- The edits of calls. -/
def splicesOf (ms : List Moment) : List Splice := ms.map Moment.splice

namespace Document

/-- Calls reach a document one after another; in between its contents stay the same. -/
inductive Course : Document → List Moment → Document → Prop
  | done {x y : Document} : x.SameContents y → Course x [] y
  | call {x y z : Document} {p : Primitive} {ms : List Moment} :
    x.SameContents y → Course (y.perform p).2 ms z → Course x (⟨y, p⟩ :: ms) z

namespace Course

variable {x y z : Document} {m : Moment} {ms ns : List Moment}

theorem of_sameContents (hxy : x.SameContents y) (h : Course y ms z) : Course x ms z := by
  cases h with
  | done hyz => exact .done (hxy.trans hyz)
  | call hy h => exact .call (hxy.trans hy) h

theorem append (h : Course x ms y) (h' : Course y ns z) : Course x (ms ++ ns) z := by
  induction h with
  | done hxy => exact h'.of_sameContents hxy
  | call hy _ ih => exact .call hy (ih h')

/-- A course can be cut at any call. -/
theorem split (h : Course x (ms ++ m :: ns) z) :
    Course x ms m.document ∧ Course m.document (m :: ns) z := by
  induction ms generalizing x with
  | nil =>
    cases h with
    | call hxy h => exact ⟨.done hxy, .call (.refl _) h⟩
  | cons _ ms ih =>
    cases h with
    | call hxy h =>
      obtain ⟨hbefore, hbehind⟩ := ih h
      exact ⟨.call hxy hbefore, hbehind⟩

theorem isProper (h : Course x ms z) (hx : x.buffer.IsProper) : z.buffer.IsProper := by
  induction h with
  | done hxy => exact hxy.buffer ▸ hx
  | call hxy _ ih => exact ih (isProper_perform (hxy.buffer ▸ hx) _)

theorem fragments (h : Course x ms z) : z.fragments = x.fragments := by
  induction h with
  | done hxy => exact hxy.fragments.symm
  | call hxy _ ih => rw [ih, fragments_perform, hxy.fragments]

/-- The contents are edited call by call. -/
theorem elements (h : Course x ms z) (hx : x.buffer.IsProper) :
    z.buffer.elements = Splice.applyAll (splicesOf ms) x.buffer.elements := by
  induction h with
  | done hxy => exact congrArg Buffer.elements hxy.buffer.symm
  | @call x y z p ms hxy _ ih =>
    have hy : y.buffer.IsProper := hxy.buffer ▸ hx
    rw [ih (isProper_perform hy p), elements_perform y hy.hasOrderedSelection p, hxy.buffer]
    rfl

/-- Every element is found again in the end, unless a call took it out. -/
theorem follow (h : Course x ms z) (hx : x.buffer.IsProper) {i : Nat} {e : Element}
    (hi : x.buffer.elements[i]? = some e) :
    (∃ j, Splice.followAll? (splicesOf ms) i = some j ∧ z.buffer.elements[j]? = some e) ∨
    ∃ before m behind j, ms = before ++ m :: behind ∧
      Splice.followAll? (splicesOf before) i = some j ∧ m.document.buffer.elements[j]? = some e ∧
      m.splice.start ≤ j ∧ j < m.splice.start + m.splice.removed := by
  cases hfollow : Splice.followAll? (splicesOf ms) i with
  | some j => exact .inl ⟨j, rfl, h.elements hx ▸ Splice.getElem?_applyAll hfollow hi⟩
  | none =>
    obtain ⟨before', q, behind', hms, j, hj, hstart, hstop⟩ :=
      Splice.exists_of_followAll?_eq_none hfollow
    obtain ⟨before, rest, rfl, rfl, hrest⟩ := List.map_eq_append_iff.1 hms
    obtain ⟨m, behind, rfl, rfl, rfl⟩ := List.map_eq_cons_iff.1 hrest
    refine .inr ⟨before, m, behind, j, rfl, hj, ?_, hstart, hstop⟩
    rw [h.split.1.elements hx]
    exact Splice.getElem?_applyAll hj hi

/-- What is selected was selected before, or a call selected it: a search that found its text, or
    the creation of an equation. -/
theorem origin (h : Course x ms z) (hx : x.buffer.IsProper) (hz : z.buffer.selection ≠ none) :
    x.buffer.SameSelected z.buffer ∨
    ∃ m ∈ ms, m.after.buffer.SameSelected z.buffer ∧
      ((∃ needle direction start, m.call = .findText needle direction ∧
        m.after.buffer.Selects start (needle.map .char)) ∨
      ∃ spec start, m.call = .createEquation spec ∧
        m.after.buffer.Selects start [.equation spec.text]) := by
  induction h with
  | done hxy => exact .inl (hxy.buffer ▸ .refl _)
  | @call x y z p ms hxy _ ih =>
    have hy : y.buffer.IsProper := hxy.buffer ▸ hx
    rcases ih (isProper_perform hy p) hz with hsame | ⟨m, hm, hmade⟩
    · cases (follows_perform hy p).reselects with
      | kept helements hselection =>
        refine .inl ⟨?_, ?_⟩
        · rw [hxy.buffer, ← hsame.elements, helements]
        · rw [hxy.buffer, ← hsame.selection, hselection]
      | released hnone => exact absurd (hsame.selection.symm.trans hnone) hz
      | found hp _ _ hselects =>
        exact .inr ⟨⟨y, p⟩, List.mem_cons_self, hsame, .inl ⟨_, _, _, hp, hselects⟩⟩
      | created hp hselects =>
        exact .inr ⟨⟨y, p⟩, List.mem_cons_self, hsame, .inr ⟨_, _, hp, hselects⟩⟩
    · exact .inr ⟨m, List.mem_cons_of_mem _ hm, hmade⟩

end Course

end Document

/-! ## Disturbed dialogues -/

namespace Document

/-- A conduct under which others may disturb a document, and the connection may be of any kind. A
    call must be as `guard` says, given the buffer. -/
def conduct (guard : Primitive → Buffer → Prop) : Conduct Document where
  allows r x := match r with
    | .call p => guard p x.buffer
    | _ => True
  sees _ := True
  answers r x a x' := ∃ c y, x.SameContents y ∧ (editor c).answer r y = (a, x')

end Document

namespace Dialogue

/-- How a dialogue may go when others disturb the document: the calls that reach it, the result, and
    the document in the end. -/
inductive Goes : Dialogue α → Document → List Moment → α → Document → Prop
  | done {a : α} {x : Document} : Goes (.done a) x [] a x
  | look {next : Bool → Dialogue α} {x z : Document} {ms : List Moment} {a : α} (b : Bool) :
    Goes (next b) x ms a z → Goes (.look next) x ms a z
  | call {p : Primitive} {next : Except TargetError Bool → Dialogue α} {x y z : Document}
      {ms : List Moment} {a : α} :
    x.SameContents y → Goes (next (y.perform p).1) (y.perform p).2 ms a z →
    Goes (.ask (.call p) next) x (⟨y, p⟩ :: ms) a z
  | ask {r : Request} {next : r.Answer → Dialogue α} {x y z : Document} {ms : List Moment} {a : α}
      (c : Document.Connection) :
    r.isCall = false → x.SameContents y →
    Goes (next ((Document.editor c).answer r y).1) ((Document.editor c).answer r y).2 ms a z →
    Goes (.ask r next) x ms a z

end Dialogue

theorem Document.sameContents_answer (c : Connection) {r : Request} (hr : r.isCall = false)
    (doc : Document) : doc.SameContents ((editor c).answer r doc).2 := by
  cases r with
  | call p => cases hr
  | identity => exact .refl _
  | connect wanted =>
    show doc.SameContents (doc.connect c wanted).2
    have hrevive : doc.SameContents (if c.revives then doc.revive else doc) := by
      split <;> exact ⟨rfl, rfl⟩
    simp only [connect]
    generalize (if c.revives then doc.revive else doc) = y at hrevive ⊢
    split
    · exact hrevive
    · split
      · exact hrevive
      · split <;> exact ⟨hrevive.buffer, hrevive.fragments⟩

namespace Dialogue.Goes

variable {d : Dialogue α} {x z : Document} {ms : List Moment} {a : α}

theorem course (h : Goes d x ms a z) : Document.Course x ms z := by
  induction h with
  | done => exact .done (.refl _)
  | look _ _ ih => exact ih
  | call hxy _ ih => exact .call hxy ih
  | ask c hr hxy _ ih => exact ih.of_sameContents (hxy.trans (Document.sameContents_answer c hr _))

/-- One dialogue after another. -/
theorem of_bind {f : α → Dialogue β} {b : β} (h : Goes (d.bind f) x ms b z) :
    ∃ ms₁ ms₂ a y, ms = ms₁ ++ ms₂ ∧ Goes d x ms₁ a y ∧ Goes (f a) y ms₂ b z := by
  induction d generalizing x ms with
  | done a => exact ⟨[], ms, a, x, rfl, .done, h⟩
  | look next ih =>
    cases h with
    | look b' h =>
      obtain ⟨ms₁, ms₂, a, y, rfl, h₁, h₂⟩ := ih b' h
      exact ⟨ms₁, ms₂, a, y, rfl, .look b' h₁, h₂⟩
  | ask r next ih =>
    cases h with
    | call hxy h =>
      obtain ⟨ms₁, ms₂, a, y, rfl, h₁, h₂⟩ := ih _ h
      exact ⟨_ :: ms₁, ms₂, a, y, rfl, .call hxy h₁, h₂⟩
    | ask c hr hxy h =>
      obtain ⟨ms₁, ms₂, a, y, rfl, h₁, h₂⟩ := ih _ h
      exact ⟨ms₁, ms₂, a, y, rfl, .ask c hr hxy h₁, h₂⟩

/-- However a dialogue goes, it comes to what it ensures, and each call is as the guard says. -/
theorem of_ensures {guard : Primitive → Buffer → Prop} {Q : α → Document → Prop}
    (hd : d.Ensures (Document.conduct guard) Q x) (h : Goes d x ms a z) :
    (∀ m ∈ ms, guard m.call m.document.buffer) ∧ Q a z := by
  induction h with
  | done => exact ⟨fun _ hm => absurd hm List.not_mem_nil, hd⟩
  | look b _ ih => exact ih (hd b trivial)
  | @call p next x y z ms a hxy _ ih =>
    obtain ⟨hms, hQ⟩ := ih (hd.2 _ _ ⟨{}, y, hxy, rfl⟩)
    refine ⟨fun m hm => ?_, hQ⟩
    rcases List.mem_cons.1 hm with rfl | hm
    · exact hxy.buffer ▸ hd.1
    · exact hms m hm
  | ask c _ hxy _ ih => exact ih (hd.2 _ _ ⟨c, _, hxy, rfl⟩)

end Dialogue.Goes

/-- A dialogue that is held to its end goes in one of the ways that it may. -/
theorem Dialogue.exists_goes (c : Document.Connection) (d : Dialogue α) (o : Outside Document) :
    ∃ ms, d.Goes o.target ms (d.hold (Document.editor c) o).1
      (d.hold (Document.editor c) o).2.target := by
  induction d generalizing o with
  | done a => exact ⟨[], .done⟩
  | look next ih =>
    obtain ⟨ms, h⟩ := ih o.token.cancelled o
    exact ⟨ms, .look _ h⟩
  | ask r next ih =>
    obtain ⟨ms, h⟩ := ih (o.answer (Document.editor c) r).1 (o.answer (Document.editor c) r).2
    cases hr : r.isCall with
    | false => exact ⟨ms, .ask c hr (.refl _) h⟩
    | true =>
      cases r with
      | call p => exact ⟨_ :: ms, .call (.refl _) h⟩
      | identity => cases hr
      | connect _ => cases hr

end Scribe
