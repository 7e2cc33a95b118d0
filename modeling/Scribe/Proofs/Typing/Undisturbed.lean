import Scribe.Proofs.Document.Faults
import Scribe.Proofs.Document.Selections
import Scribe.Proofs.Typing.Ensures

set_option autoImplicit false

/-! # Undisturbed typing

While nobody cancels and every call is answered in one way, an action of typing comes from one state
and what is before it to one result, unless it fails. `Attains` says that it succeeds and comes to
what is wanted; there is one rule for each way of putting actions together and for each kind of
call. -/

namespace Scribe

variable {σ α β : Type}

/-- Nobody cancels, and every call that is allowed is answered in one way. -/
def Conduct.undisturbed (allows : Primitive → σ → Prop)
    (answer : Primitive → σ → Except TargetError Bool × σ) : Conduct σ where
  allows r x := match r with
    | .call p => allows p x
    | _ => False
  sees cancelled := cancelled = false
  answers
    | .call p, x, r, x' => answer p x = (r, x')
    | _, x, _, x' => x' = x

namespace Typing

/-- Undisturbed, an action succeeds and comes to `Q`. -/
def Attains (allows : Primitive → σ → Prop) (answer : Primitive → σ → Except TargetError Bool × σ)
    (m : Typing α) (Q : α → TypingState → σ → Prop) (s : TypingState) (x : σ) : Prop :=
  (m.run.run s).Ensures (.undisturbed allows answer)
    (fun r x' => ∃ a, r.1 = .ok a ∧ Q a r.2 x') x

namespace Attains

variable {allows : Primitive → σ → Prop} {answer : Primitive → σ → Except TargetError Bool × σ}
  {m : Typing α} {Q Q' : α → TypingState → σ → Prop} {s : TypingState} {x : σ}

theorem mono (h : Attains allows answer m Q s x) (hQ : ∀ a s x, Q a s x → Q' a s x) :
    Attains allows answer m Q' s x :=
  Dialogue.Ensures.mono h fun _ _ ⟨a, hr, ha⟩ => ⟨a, hr, hQ a _ _ ha⟩

/-! ## Putting actions together -/

theorem pure {a : α} (h : Q a s x) : Attains allows answer (pure a : Typing α) Q s x :=
  ⟨a, rfl, h⟩

theorem bind {f : α → Typing β} {R : β → TypingState → σ → Prop}
    (h : Attains allows answer m (fun a => Attains allows answer (f a) R) s x) :
    Attains allows answer (m >>= f) R s x := by
  unfold Attains
  rw [run_bind]
  refine (Dialogue.Ensures.mono h ?_).bind
  rintro ⟨r, s'⟩ x' ⟨a, rfl, ha⟩
  exact ha

theorem discard {R : Unit → TypingState → σ → Prop}
    (h : Attains allows answer m (fun _ => R ()) s x) :
    Attains allows answer (discard m) R s x := bind (h.mono fun _ _ _ ha => pure ha)

theorem ite_pos {c : Prop} [Decidable c] {n : Typing α} (hc : c)
    (h : Attains allows answer m Q s x) : Attains allows answer (if c then m else n) Q s x := by
  rwa [if_pos hc]

theorem ite_neg {c : Prop} [Decidable c] {n : Typing α} (hc : ¬ c)
    (h : Attains allows answer n Q s x) : Attains allows answer (if c then m else n) Q s x := by
  rwa [if_neg hc]

theorem typingState {Q : TypingState → TypingState → σ → Prop} (h : Q s s x) :
    Attains allows answer typingState Q s x := ⟨s, rfl, h⟩

theorem updateState {f : TypingState → TypingState} {Q : Unit → TypingState → σ → Prop}
    (h : Q () (f s) x) : Attains allows answer (updateState f) Q s x := ⟨(), rfl, h⟩

/-! ## Calls -/

theorem call {p : Primitive} {Q : Except TargetError Bool → TypingState → σ → Prop}
    (hallows : allows p x) (h : Q (answer p x).1 s (answer p x).2) :
    Attains allows answer (call p) Q s x := by
  rintro _ rfl
  refine ⟨hallows, fun r x' hr => ?_⟩
  have hanswer : answer p x = (r, x') := hr
  rw [hanswer] at h
  exact ⟨r, rfl, h⟩

variable {p : Primitive} {command : Command} {Q : Bool → TypingState → σ → Prop} {found : Bool}

theorem require (hallows : allows p x) (hanswer : (answer p x).1 = .ok found)
    (h : Q found s (answer p x).2) : Attains allows answer (require p) Q s x := by
  refine bind (call hallows ?_)
  rw [hanswer]
  exact pure h

theorem tryRun (hallows : allows (.run command) x)
    (hanswer : (answer (.run command) x).1 = .ok found)
    (h : Q found s (answer (.run command) x).2) :
    Attains allows answer (tryRun command) Q s x := by
  refine bind (call hallows ?_)
  rw [hanswer]
  exact pure h

theorem bestEffort (hallows : allows p x) (hanswer : (answer p x).1 = .ok found)
    (h : Q found s (answer p x).2) : Attains allows answer (bestEffort p) Q s x := by
  refine bind (call hallows ?_)
  rw [hanswer]
  exact pure h

/-- A run of text is typed by a call, unless it is empty. -/
theorem write {text : Text} {Q : Unit → TypingState → σ → Prop}
    (hempty : text = [] → Q () s x)
    (hallows : text ≠ [] → allows (.insertText text) x)
    (hanswer : text ≠ [] → (answer (.insertText text) x).1 = .ok found)
    (h : text ≠ [] → Q () s (answer (.insertText text) x).2) :
    Attains allows answer (write text) Q s x := by
  unfold Typing.write
  by_cases htext : text = []
  · rw [if_pos (List.isEmpty_iff.2 htext)]
    exact pure (hempty htext)
  · rw [if_neg (mt List.isEmpty_iff.1 htext)]
    exact discard (require (hallows htext) (hanswer htext) (h htext))

/-- In the middle of a line no alignment is due. -/
theorem applyAlignment_of_lineStart {Q : LineAlignment → TypingState → σ → Prop}
    (hs : s.lineStart = false) (h : Q .none s x) : Attains allows answer applyAlignment Q s x := by
  have htaken : s.takeAlignment = (.none, s) := by simp [TypingState.takeAlignment, hs]
  refine bind (typingState ?_)
  rw [htaken]
  exact bind (updateState (bind (pure (pure h))))

/-! ## Operations -/

theorem operation {τ : Type} {t : Typist τ} {op : Operation} {Q : Unit → TypingState → σ → Prop}
    (h : Attains allows answer (t.act op) Q s x) :
    Attains allows answer (t.operation op) Q s x := by
  unfold Attains
  rw [Typist.run_operation]
  rintro _ rfl
  refine (Dialogue.Ensures.mono h ?_).bind
  rintro ⟨r, s'⟩ x' ⟨a, rfl, ha⟩
  exact ⟨a, rfl, ha⟩

end Attains

end Typing

/-! ## Calm documents -/

/-- An equation that was put in is selected. -/
theorem Buffer.equationSelected_insertEquation {b : Buffer} (h : b.IsProper) (text : Text) :
    (b.insertEquation text).equationSelected := by
  simp only [Buffer.equationSelected, Buffer.insertEquation, Buffer.insertAt]
  rw [List.append_assoc, List.getElem?_append_right (List.length_take_le ..),
    List.length_take_of_le h.deleteSelection.cursor_le, Nat.sub_self]
  rfl

namespace Document

variable {x : Document}

theorem perform_run (h : x.IsCalm) (command : Command) :
    (x.perform (.run command)).1 = .ok (x.buffer.run command).1 ∧
      (x.perform (.run command)).2.buffer = (x.buffer.run command).2 := by
  rw [perform_of_isCalm h]
  cases command <;> exact ⟨rfl, rfl⟩

theorem perform_insertText (h : x.IsCalm) (text : Text) :
    (x.perform (.insertText text)).1 = .ok true ∧
      (x.perform (.insertText text)).2.buffer = x.buffer.insert (text.map .char) := by
  rw [perform_of_isCalm h]
  exact ⟨rfl, rfl⟩

theorem perform_createEquation (h : x.IsCalm) (spec : EquationSpec) :
    (x.perform (.createEquation spec)).1 = .ok true ∧
      (x.perform (.createEquation spec)).2.buffer = x.buffer.insertEquation spec.text := by
  rw [perform_of_isCalm h]
  exact ⟨rfl, rfl⟩

theorem perform_objectAnchor (h : x.IsCalm) (hselected : x.buffer.equationSelected)
    (treatAsChar : Bool) :
    (x.perform (.objectAnchor treatAsChar)).1 = .ok true ∧
      (x.perform (.objectAnchor treatAsChar)).2.buffer = x.buffer := by
  rw [perform_of_isCalm h, effect, if_pos hselected]
  exact ⟨rfl, rfl⟩

theorem perform_createTable (h : x.IsCalm) {rows cols : Nat} (hleast : 1 ≤ rows * cols)
    (hmost : rows * cols ≤ mostCells) :
    (x.perform (.createTable rows cols)).1 = .ok true ∧
      (x.perform (.createTable rows cols)).2.buffer =
        x.buffer.insertTable cols (rows * cols) := by
  rw [perform_of_isCalm h, effect, if_pos ⟨hleast, hmost⟩]
  exact ⟨rfl, rfl⟩

theorem perform_cellFormat (h : x.IsCalm) (hcell : x.buffer.enclosingOpen?.isSome)
    (format : CellFormat) :
    (x.perform (.cellFormat format)).1 = .ok true ∧
      (x.perform (.cellFormat format)).2.buffer = x.buffer := by
  rw [perform_of_isCalm h, effect, if_pos hcell]
  exact ⟨rfl, rfl⟩

theorem perform_charShape (h : x.IsCalm) (shape : CharShape) :
    (x.perform (.charShape shape)).1 = .ok true ∧
      (x.perform (.charShape shape)).2.buffer = x.buffer := by
  rw [perform_of_isCalm h]
  exact ⟨rfl, rfl⟩

theorem perform_paraShape (h : x.IsCalm) (shape : ParaShape) :
    (x.perform (.paraShape shape)).1 = .ok true ∧
      (x.perform (.paraShape shape)).2.buffer = x.buffer := by
  rw [perform_of_isCalm h]
  exact ⟨rfl, rfl⟩

end Document

namespace Typing

/-- In a document that nobody disturbs, an action succeeds and comes to `Q`. -/
abbrev Succeeds (m : Typing α) (Q : α → TypingState → Document → Prop) (s : TypingState)
    (x : Document) : Prop := Attains (fun _ _ => True) Document.perform m Q s x

/-- What succeeds does so when it is carried out. -/
theorem Succeeds.carryOut {m : Typing α} {Q : α → TypingState → Document → Prop}
    {s : TypingState} {x : Document} (h : Succeeds m Q s x) (c : Document.Connection)
    {token : Token} (htoken : token.IsFree) :
    ∃ a s' x', m.carryOut (Document.editor c) ⟨x, token, s⟩ = (.ok a, ⟨x', token, s'⟩) ∧
      Q a s' x' := by
  have hend := Dialogue.Ensures.hold (e := Document.editor c) (v := id)
    (J := fun o => o.token = token) (o := ⟨x, token⟩)
    (fun o ho => ho ▸ htoken.cancelled)
    (fun o r ho hr => ?_) h rfl
  · obtain ⟨⟨a, hok, ha⟩, htok⟩ := hend
    refine ⟨a, _, _, ?_, ha⟩
    show ((_, _) : Except TypingError α × Desk Document) = _
    rw [hok, htok]
    rfl
  · have hanswered : (o.answer (Document.editor c) r).2.token = token := by
      subst ho
      exact htoken.answered r
    cases r with
    | call p => exact ⟨rfl, hanswered⟩
    | identity => cases hr
    | connect _ => cases hr

end Typing

end Scribe
