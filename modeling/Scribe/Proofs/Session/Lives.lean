import Scribe.Proofs.Document.Moments
import Scribe.Session

set_option autoImplicit false

/-! # The life of a document

In its life a document has scripts typed into it, is attached to, and has operations carried out on
it one by one, while others disturb it and cancel. Main statement: what holds in the beginning, and
is kept by every attempt at an operation, holds at any time of a life, whatever the sessions try
again. -/

namespace Scribe

variable {α β : Type}

/-! ## Lives -/

/-- A life of a document: the calls that reached it, and what became of it. Sessions may remember
    anything, and operations may be carried out in any state of typing. -/
inductive Document.Lives : Document → List Moment → Document → Prop
  | start {x : Document} : Lives x [] x
  | run {x y z : Document} {ms ns : List Moment} (t : Typist Document) (repairs : Pipeline)
      (script : Text) (document : Option Text) (memory : SessionMemory)
      {a : Except RunError RunReport × SessionMemory} :
    Lives x ms y →
    ((SessionAction.typeScript t repairs script document).run memory).Goes y ns a z →
    Lives x (ms ++ ns) z
  | attach {x y z : Document} {ms ns : List Moment} (document : Option Text)
      (memory : SessionMemory) {a : Except TargetError Unit × SessionMemory} :
    Lives x ms y → ((SessionAction.attach document).run memory).Goes y ns a z →
    Lives x (ms ++ ns) z
  | operation {x y z : Document} {ms ns : List Moment} (t : Typist Document) (op : Operation)
      (s : TypingState) {r : Typed Unit} :
    Lives x ms y → ((t.operation op).run.run s).Goes y ns r z → Lives x (ms ++ ns) z

/-- A script that is typed into the document of a session is part of its life. -/
theorem Session.exists_lives_run (c : Document.Connection) (settings : Settings)
    (convert : Text → Nat → Text) (repairs : Pipeline) (script : Text) (document : Option Text)
    (s : Session Document) :
    ∃ ms, s.desk.target.Lives ms
      (s.run (Document.typist c settings convert) repairs script document).2.desk.target := by
  obtain ⟨ms, h⟩ := Dialogue.exists_goes c ((SessionAction.typeScript
    (Document.typist c settings convert) repairs script document).run s.memory) s.outside
  exact ⟨[] ++ ms, .run _ repairs script document s.memory .start h⟩

/-! ## Attempts -/

/-- What every attempt at an operation keeps, given the calls that reached the document so far. -/
structure Document.KeptByAttempts (P : List Moment → Document → Prop) : Prop where
  attempt {t : Typist Document} {op : Operation} {s : TypingState} {r : Typed Unit}
    {ms ns : List Moment} {y z : Document} :
    P ms y → ((t.operation op).run.run s).Goes y ns r z → P (ms ++ ns) z
  sameContents {ms : List Moment} {y z : Document} : P ms y → y.SameContents z → P ms z

/-- An action of a session keeps what every attempt at an operation keeps. -/
def SessionAction.Preserves (P : List Moment → Document → Prop) (m : SessionAction α) : Prop :=
  ∀ memory ms ns y a z, P ms y → (m.run memory).Goes y ns a z → P (ms ++ ns) z

namespace SessionAction.Preserves

variable {P : List Moment → Document → Prop} (h : Document.KeptByAttempts P)

theorem pure (a : α) : Preserves P (pure a : SessionAction α) := by
  intro memory ms ns y a' z hP hgoes
  cases hgoes with
  | done => rwa [List.append_nil]

theorem bind {m : SessionAction α} {f : α → SessionAction β} (hm : m.Preserves P)
    (hf : ∀ a, (f a).Preserves P) : Preserves P (m >>= f) := by
  intro memory ms ns y b z hP hgoes
  obtain ⟨ns₁, ns₂, ⟨a, memory'⟩, y', rfl, hfirst, hthen⟩ :=
    Dialogue.Goes.of_bind (d := m.run memory) hgoes
  rw [← List.append_assoc]
  exact hf a _ _ _ _ _ _ (hm _ _ _ _ _ _ hP hfirst) hthen

theorem ite {c : Prop} [Decidable c] {m n : SessionAction α} (hm : m.Preserves P)
    (hn : n.Preserves P) : Preserves P (if c then m else n) := by
  split
  · exact hm
  · exact hn

theorem get : Preserves P (get : SessionAction SessionMemory) := by
  intro memory ms ns y a z hP hgoes
  cases hgoes with
  | done => rwa [List.append_nil]

theorem modify (f : SessionMemory → SessionMemory) :
    Preserves P (modify f : SessionAction Unit) := by
  intro memory ms ns y a z hP hgoes
  cases hgoes with
  | done => rwa [List.append_nil]

theorem looked : Preserves P (Dialogue.looked : SessionAction Bool) := by
  intro memory ms ns y a z hP hgoes
  cases hgoes with
  | look b hgoes =>
    cases hgoes with
    | done => rwa [List.append_nil]

/-- A dialogue that is held within an action. -/
theorem lift {d : Dialogue α}
    (hd : ∀ ms ns y a z, P ms y → d.Goes y ns a z → P (ms ++ ns) z) :
    Preserves P (d : SessionAction α) := by
  intro memory ms ns y a z hP hgoes
  obtain ⟨ns₁, ns₂, b, y', rfl, hfirst, hthen⟩ := Dialogue.Goes.of_bind (d := d) hgoes
  cases hthen with
  | done =>
    rw [List.append_nil]
    exact hd _ _ _ _ _ hP hfirst

include h

theorem asked {r : Request} (hr : r.isCall = false) :
    Preserves P (Dialogue.asked r : SessionAction r.Answer) := by
  intro memory ms ns y a z hP hgoes
  cases hgoes with
  | call => cases hr
  | ask c _ hy hgoes =>
    cases hgoes with
    | done =>
      rw [List.append_nil]
      exact h.sameContents hP (hy.trans (Document.sameContents_answer c hr _))

theorem attach (document : Option Text) : (attach document).Preserves P := by
  refine bind (asked h rfl) fun r => ?_
  rcases r with e | _
  · exact bind (modify _) fun _ => pure _
  · exact bind (modify _) fun _ => pure _

theorem isHealthy (document : Option Text) : (isHealthy document).Preserves P := by
  refine bind get fun memory => ite (bind (asked h rfl) fun r => ?_) (pure _)
  rcases r with e | name <;> exact pure _

theorem ensureAttached (document : Option Text) : (ensureAttached document).Preserves P :=
  bind (isHealthy h document) fun _ => ite (pure _) (attach h document)

variable (t : Typist Document)

theorem operation (op : Operation) : (typing (t.operation op)).Preserves P := by
  refine bind get fun memory => bind (lift fun ms ns y r z hP hgoes => ?_) fun _ =>
    bind (modify _) fun _ => pure _
  exact h.attempt hP hgoes

theorem attempt (step : Step) : (attempt t step).Preserves P := by
  rcases step with e | op
  · exact pure _
  · exact bind (operation h t op) fun _ => pure _

theorem typeStep (document : Option Text) (index : Nat) (step : Step) :
    (typeStep t document index step).Preserves P := by
  refine bind (attempt h t step) fun r => ?_
  rcases r with (e | e | ⟨e, a⟩) | _
  · exact pure _
  · refine ite (bind (attach h document) fun r => ?_) (pure _)
    rcases r with a | _
    · exact pure _
    · refine bind (attempt h t step) fun r => ?_
      rcases r with e | _ <;> exact pure _
  · exact pure _
  · exact pure _

theorem typeSteps (document : Option Text) (index : Nat) (reattached : Bool) (steps : List Step) :
    (typeSteps t document index reattached steps).Preserves P := by
  induction steps generalizing index reattached with
  | nil => exact pure _
  | cons step steps ih =>
    refine bind (typeStep h t document index step) fun r => ?_
    rcases r with e | again
    · exact pure _
    · exact ih _ _

theorem typeScript (repairs : Pipeline) (script : Text) (document : Option Text) :
    (typeScript t repairs script document).Preserves P := by
  unfold SessionAction.typeScript
  dsimp only
  split
  · exact pure _
  · refine bind looked fun cancelled => ite (pure _) (bind (ensureAttached h document) fun r => ?_)
    rcases r with e | _
    · exact pure _
    · refine bind (typeSteps h t document _ _ _) fun r => ?_
      rcases r with e | _ <;> exact pure _

end SessionAction.Preserves

namespace Document

variable {P : List Moment → Document → Prop} {x z : Document} {ms : List Moment}

/-- What every attempt at an operation keeps holds throughout a life, if it does in the
    beginning. -/
theorem Lives.induction (h : Lives x ms z) (start : P [] x) (hP : KeptByAttempts P) : P ms z := by
  induction h with
  | start => exact start
  | run t repairs script document memory _ hgoes ih =>
    exact SessionAction.Preserves.typeScript hP t repairs script document _ _ _ _ _ _ ih hgoes
  | attach document memory _ hgoes ih =>
    exact SessionAction.Preserves.attach hP document _ _ _ _ _ _ ih hgoes
  | operation t op s _ hgoes ih => exact hP.attempt ih hgoes

theorem Lives.course (h : Lives x ms z) : Course x ms z :=
  h.induction (.done (.refl x))
    { attempt := fun hcourse hgoes => hcourse.append hgoes.course
      sameContents := fun hcourse hsame => by
        simpa using hcourse.append (.done hsame) }

end Document

end Scribe
