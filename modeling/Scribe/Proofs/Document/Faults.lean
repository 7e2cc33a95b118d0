import Scribe.Document.Editor
import Scribe.Proofs.Typing.Discipline

set_option autoImplicit false

/-! # Documents that die

A document in memory is calm when no fault is planted in it and its session lives. What is asked of
calm documents depends on their buffers, fragments and names alone.

A document that dies after so many calls answers these calls as a calm one does. Main statement: an
operation that is typed into it either goes as in a calm document, or it ends at the first call too
many, with the document as the calls before that one left it. -/

namespace Scribe

variable {α : Type}

namespace Document

/-- A typist on documents in memory. -/
abbrev typist (c : Connection) (settings : Settings) (convert : Text → Nat → Text) :
    Typist Document :=
  { editor := editor c, settings, convert }

/-! ## What a call does -/

/-- All that a call can do: edit the buffer by what stands in it and the fragments, or bring a
    format into force. -/
theorem effect_cases (p : Primitive) :
    (∃ edit : Buffer → List (Text × List Element) → Except TargetError Bool × Buffer,
      ∀ doc : Document, doc.effect p = ((edit doc.buffer doc.fragments).1,
        { doc with buffer := (edit doc.buffer doc.fragments).2 })) ∨
    (∃ alignment, ∀ doc : Document, doc.effect p = (.ok true, { doc with alignment })) ∨
    (∃ shape, ∀ doc : Document, doc.effect p =
      (.ok true, { doc with charShape := doc.charShape.overlay shape })) := by
  -- a call that reads the buffer or the fragments only is given by what it does to a bare document
  let bare (b : Buffer) (fragments : List (Text × List Element)) :
      Except TargetError Bool × Buffer :=
    let r := ({ name := [], buffer := b, fragments } : Document).effect p
    (r.1, r.2.buffer)
  cases p with
  | run command =>
    cases command
    case alignLeft => exact .inr (.inl ⟨_, fun _ => rfl⟩)
    case alignRight => exact .inr (.inl ⟨_, fun _ => rfl⟩)
    case alignCenter => exact .inr (.inl ⟨_, fun _ => rfl⟩)
    case alignJustify => exact .inr (.inl ⟨_, fun _ => rfl⟩)
    all_goals exact .inl ⟨bare, fun _ => rfl⟩
  | charShape shape => exact .inr (.inr ⟨shape, fun _ => rfl⟩)
  | cellFormat _ => exact .inl ⟨bare, fun _ => by simp only [bare, effect]; split <;> rfl⟩
  | createTable _ _ => exact .inl ⟨bare, fun _ => by simp only [bare, effect]; split <;> rfl⟩
  | objectAnchor _ => exact .inl ⟨bare, fun _ => by simp only [bare, effect]; split <;> rfl⟩
  | insertFragment path =>
    refine .inl ⟨bare, fun doc => ?_⟩
    simp only [bare, effect, fragment?]
    cases doc.fragments.lookup (Path.fileName path) <;> rfl
  | _ => exact .inl ⟨bare, fun _ => rfl⟩

/-- Faults make no difference to what a call does. -/
theorem effect_fault (doc : Document) (fault : Option Fault) (p : Primitive) :
    ({ doc with fault } : Document).effect p =
      ((doc.effect p).1, { (doc.effect p).2 with fault }) := by
  rcases effect_cases p with ⟨_, h⟩ | ⟨_, h⟩ | ⟨_, h⟩ <;> simp only [h]

/-! ## Calm documents -/

/-- No fault is planted, and the session lives. -/
structure IsCalm (doc : Document) : Prop where
  fault : doc.fault = none
  disconnected : doc.disconnected = false

variable {doc : Document}

theorem perform_of_isCalm (h : doc.IsCalm) (p : Primitive) :
    doc.perform p = { doc with log := p :: doc.log }.effect p := by
  obtain ⟨_, _, _, _, _, _, _, _, _⟩ := doc
  obtain ⟨rfl, rfl⟩ := h
  rfl

theorem IsCalm.perform (h : doc.IsCalm) (p : Primitive) : (doc.perform p).2.IsCalm := by
  rw [perform_of_isCalm h]
  rcases effect_cases p with ⟨_, he⟩ | ⟨_, he⟩ | ⟨_, he⟩
  all_goals
    rw [he]
    exact ⟨h.fault, h.disconnected⟩

/-- Attaching brings a session back, whatever had been planted. -/
theorem connect_eq (wanted : Option Text) (doc : Document) :
    doc.connect {} wanted =
      match wanted.filter (· != doc.name) with
      | some name => (.error (.documentNotFound name), doc.revive)
      | none => (.ok (), { doc.revive with attachments := doc.attachments + 1 }) := rfl

theorem answer_call (c : Connection) (doc : Document) (p : Primitive) :
    Outside.answer (editor c) (.call p) ⟨doc, {}⟩ =
      ((doc.perform p).1, ⟨(doc.perform p).2, {}⟩) := by
  cases p <;> rfl

/-! ## Alike documents -/

/-- Calm documents that differ at most in their formats, their logs and how often they were attached
    to. -/
structure Alike (x y : Document) : Prop where
  calm_left : x.IsCalm
  calm_right : y.IsCalm
  buffer : x.buffer = y.buffer
  fragments : x.fragments = y.fragments
  name : x.name = y.name

theorem Alike.refl (h : doc.IsCalm) : doc.Alike doc := ⟨h, h, rfl, rfl, rfl⟩

variable {x y : Document}

theorem Alike.perform (h : x.Alike y) (p : Primitive) :
    (x.perform p).1 = (y.perform p).1 ∧ (x.perform p).2.Alike (y.perform p).2 := by
  have hx := h.calm_left
  have hy := h.calm_right
  rw [perform_of_isCalm hx, perform_of_isCalm hy]
  rcases effect_cases p with ⟨edit, he⟩ | ⟨_, he⟩ | ⟨_, he⟩
  · rw [he, he]
    refine ⟨?_, ⟨hx.fault, hx.disconnected⟩, ⟨hy.fault, hy.disconnected⟩, ?_, h.fragments, h.name⟩
    all_goals simp only [h.buffer, h.fragments]
  all_goals
    rw [he, he]
    exact ⟨rfl, ⟨hx.fault, hx.disconnected⟩, ⟨hy.fault, hy.disconnected⟩, h.buffer, h.fragments,
      h.name⟩

theorem Alike.connect (h : x.Alike y) (wanted : Option Text) :
    (x.connect {} wanted).1 = (y.connect {} wanted).1 ∧
      (x.connect {} wanted).2.Alike (y.connect {} wanted).2 := by
  rw [connect_eq, connect_eq, h.name]
  split
  · exact ⟨rfl, ⟨rfl, rfl⟩, ⟨rfl, rfl⟩, h.buffer, h.fragments, h.name⟩
  · exact ⟨rfl, ⟨rfl, rfl⟩, ⟨rfl, rfl⟩, h.buffer, h.fragments, h.name⟩

theorem Alike.answer (h : x.Alike y) (r : Request) :
    ((editor {}).answer r x).1 = ((editor {}).answer r y).1 ∧
      ((editor {}).answer r x).2.Alike ((editor {}).answer r y).2 := by
  cases r with
  | call p => exact h.perform p
  | identity =>
    refine ⟨?_, h⟩
    show x.identity.map some = y.identity.map some
    rw [identity, identity, h.calm_left.disconnected, h.calm_right.disconnected, h.name]
  | connect wanted => exact h.connect wanted

theorem IsCalm.after (h : doc.IsCalm) (rs : List Request) : ((editor {}).after rs doc).IsCalm := by
  induction rs generalizing doc with
  | nil => exact h
  | cons r rs ih => exact ih ((Alike.refl h).answer r).2.calm_left

/-- No request changes the name or the fragments of a document. -/
theorem IsCalm.after_frame (h : doc.IsCalm) (rs : List Request) :
    ((editor {}).after rs doc).fragments = doc.fragments ∧
      ((editor {}).after rs doc).name = doc.name := by
  induction rs generalizing doc with
  | nil => exact ⟨rfl, rfl⟩
  | cons r rs ih =>
    obtain ⟨hfragments, hname⟩ := ih ((Alike.refl h).answer r).2.calm_left
    have hframe : ((editor {}).answer r doc).2.fragments = doc.fragments ∧
        ((editor {}).answer r doc).2.name = doc.name := by
      cases r with
      | call p =>
        show (doc.perform p).2.fragments = _ ∧ (doc.perform p).2.name = _
        rw [perform_of_isCalm h]
        rcases effect_cases p with ⟨_, he⟩ | ⟨_, he⟩ | ⟨_, he⟩ <;> rw [he] <;> exact ⟨rfl, rfl⟩
      | identity => exact ⟨rfl, rfl⟩
      | connect wanted =>
        show (doc.connect {} wanted).2.fragments = _ ∧ (doc.connect {} wanted).2.name = _
        rw [connect_eq]
        split <;> exact ⟨rfl, rfl⟩
    exact ⟨hfragments.trans hframe.1, hname.trans hframe.2⟩

/-- A dialogue goes the same way with alike documents, and leaves them alike. -/
theorem Alike.hold (h : x.Alike y) (d : Dialogue α) :
    (d.hold (editor {}) ⟨x, {}⟩).1 = (d.hold (editor {}) ⟨y, {}⟩).1 ∧
      (d.hold (editor {}) ⟨x, {}⟩).2.target.Alike (d.hold (editor {}) ⟨y, {}⟩).2.target := by
  induction d generalizing x y with
  | done a => exact ⟨rfl, h⟩
  | look next ih => exact ih _ h
  | ask r next ih =>
    have htoken : ({} : Token).answered r = {} := by cases r <;> rfl
    obtain ⟨hanswer, halike⟩ := h.answer r
    simp only [Dialogue.hold, Outside.answer, htoken, hanswer]
    exact ih _ halike

/-! ## Dying documents -/

/-- The document whose session dies after so many further calls. -/
def dying (doc : Document) (n : Nat) : Document := doc.inject ⟨.disconnect, n⟩

/-- The document whose session is dead. -/
def dead (doc : Document) : Document := { doc with disconnected := true }

/-- A call that is not yet one too many goes as in a calm document. -/
theorem perform_dying_succ (h : doc.IsCalm) (n : Nat) (p : Primitive) :
    (doc.dying (n + 1)).perform p = ((doc.perform p).1, (doc.perform p).2.dying n) := by
  have dying_perform : (doc.dying (n + 1)).perform p =
      ({ { doc with log := p :: doc.log } with fault := some ⟨.disconnect, n⟩ } :
        Document).effect p := by
    obtain ⟨_, _, _, _, _, _, _, _, _⟩ := doc
    obtain ⟨rfl, rfl⟩ := h
    rfl
  rw [dying_perform, perform_of_isCalm h, effect_fault]
  rfl

theorem perform_dying_zero (h : doc.IsCalm) (p : Primitive) :
    (doc.dying 0).perform p = (.error .gone, doc.dead) := by
  obtain ⟨_, _, _, _, _, _, _, _, _⟩ := doc
  obtain ⟨rfl, rfl⟩ := h
  rfl

end Document

/-! ## Typing into a dying document -/

/-- A disciplined dialogue with a document that dies after `n` calls goes as with a calm one if it
    has no more calls, and ends at the first call too many otherwise. -/
theorem Dialogue.Disciplined.hold_dying {d : Dialogue (Typed α)} (hd : d.Disciplined)
    (c : Document.Connection) {doc : Document} (h : doc.IsCalm) (n : Nat) :
    let e := Document.editor c
    let requests := requestsOf (d.turns e ⟨doc, {}⟩)
    (requests.length ≤ n ∧ d.hold e ⟨doc.dying n, {}⟩ =
      ((d.hold e ⟨doc, {}⟩).1, { (d.hold e ⟨doc, {}⟩).2 with
        target := (d.hold e ⟨doc, {}⟩).2.target.dying (n - requests.length) })) ∨
    (n < requests.length ∧ ∃ s, d.hold e ⟨doc.dying n, {}⟩ =
      ((.error (.target .gone), s), ⟨(e.after (requests.take n) doc).dead, {}⟩)) := by
  induction hd generalizing doc n with
  | done _ => exact .inl ⟨Nat.zero_le n, rfl⟩
  | look _ _ ih => exact ih h n
  | @call next s p after htrue hfalse gone _ ih =>
    simp only [turns, hold, hfalse, Document.answer_call]
    cases n with
    | zero =>
      obtain ⟨s', hs⟩ := gone .gone rfl
      refine .inr ⟨Nat.zero_lt_succ _, s', ?_⟩
      rw [Document.perform_dying_zero h, hs]
      rfl
    | succ n =>
      rw [Document.perform_dying_succ h]
      rcases ih (doc.perform p).1 (h.perform p) n with ⟨hlen, hrun⟩ | ⟨hlen, s', hrun⟩
      · rw [← Nat.add_sub_add_right n 1] at hrun
        exact .inl ⟨Nat.succ_le_succ hlen, hrun⟩
      · exact .inr ⟨Nat.succ_lt_succ hlen, s', hrun⟩

end Scribe
