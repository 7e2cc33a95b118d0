import Scribe.Proofs.Typing.Composition
import Scribe.Proofs.Typing.Dialogue

set_option autoImplicit false

/-! # Typing keeps to the rules

Main statement: whatever operation is typed, each call is sent right behind a look that saw no
cancellation; a look that sees one ends the operation as cancelled, and nothing else does; and a
lost session ends it at once, with the error of the call that found it lost. -/

namespace Scribe

variable {σ τ α β : Type}

/-! ## Disciplined dialogues -/

/-- What a dialogue of typing ends with: a result and the state of typing. -/
abbrev Typed (α : Type) := Except TypingError α × TypingState

/-- A dialogue of typing that keeps to the rules. -/
inductive Dialogue.Disciplined : Dialogue (Typed α) → Prop
  | done {r : Typed α} : r.1 ≠ .error .cancelled → Disciplined (.done r)
  | look {next : Bool → Dialogue (Typed α)} {s : TypingState} :
    next true = .done (.error .cancelled, s) → Disciplined (next false) →
    Disciplined (.look next)
  | call {next : Bool → Dialogue (Typed α)} {s : TypingState} {p : Primitive}
      {after : Except TargetError Bool → Dialogue (Typed α)} :
    next true = .done (.error .cancelled, s) → next false = .ask (.call p) after →
    (∀ e : TargetError, e.isGone → ∃ s, after (.error e) = .done (.error (.target e), s)) →
    (∀ r, Disciplined (after r)) → Disciplined (.look next)

/-- An action of typing that keeps to the rules in every state. -/
def Typing.IsDisciplined (m : Typing α) : Prop := ∀ s, (m.run.run s).Disciplined

/-! ## Running actions -/

namespace Typing

theorem run_bind (m : Typing α) (f : α → Typing β) (s : TypingState) :
    (m >>= f).run.run s = (m.run.run s).bind fun r =>
      match r with
      | (.ok a, s) => (f a).run.run s
      | (.error e, s) => .done (.error e, s) := by
  show Dialogue.bind _ _ = _
  congr 1
  funext ⟨r, s⟩
  cases r <;> rfl

theorem run_tryCatch (m : Typing α) (h : TypingError → Typing α) (s : TypingState) :
    (tryCatch m h).run.run s = (m.run.run s).bind fun r =>
      match r with
      | (.ok a, s) => .done (.ok a, s)
      | (.error e, s) => (h e).run.run s := by
  show Dialogue.bind _ _ = _
  congr 1
  funext ⟨r, s⟩
  cases r <;> rfl

end Typing

namespace Typing.IsDisciplined

/-! ## Composition -/

theorem pure (a : α) : IsDisciplined (pure a : Typing α) := fun _ => .done nofun

theorem throw {e : TypingError} (he : e ≠ .cancelled) : IsDisciplined (throw e : Typing α) :=
  fun _ => .done fun h => he (Except.error.inj h)

theorem typingState : IsDisciplined typingState := fun _ => .done nofun

theorem updateState (f : TypingState → TypingState) : IsDisciplined (updateState f) :=
  fun _ => .done nofun

theorem bind {m : Typing α} {f : α → Typing β} (hm : m.IsDisciplined)
    (hf : ∀ a, (f a).IsDisciplined) : (m >>= f).IsDisciplined := by
  intro s
  rw [run_bind]
  generalize m.run.run s = d, hm s = hd
  induction hd with
  | @done r hr =>
    rcases r with ⟨_ | a, s⟩
    · exact .done fun h => hr (congrArg Except.error (Except.error.inj h))
    · exact hf a s
  | look htrue _ ih => exact .look (by rw [htrue]; rfl) ih
  | call htrue hfalse gone _ ih =>
    refine .call (by rw [htrue]; rfl) (by rw [hfalse]; rfl) (fun e he => ?_) ih
    obtain ⟨s, hs⟩ := gone e he
    exact ⟨s, by rw [hs]; rfl⟩

/-- An action that ends an error handler with the same error again. -/
theorem tryCatch {m : Typing α} {h : TypingError → Typing α} (hm : m.IsDisciplined)
    (rethrow : ∀ e s, ∃ s', (h e).run.run s = .done (.error e, s')) :
    IsDisciplined (tryCatch m h) := by
  intro s
  rw [run_tryCatch]
  generalize m.run.run s = d, hm s = hd
  induction hd with
  | @done r hr =>
    rcases r with ⟨e | a, s⟩
    · obtain ⟨s', hs⟩ := rethrow e s
      simp only [Dialogue.bind, hs]
      exact .done hr
    · exact .done nofun
  | @look next s htrue _ ih =>
    obtain ⟨s', hs⟩ := rethrow .cancelled s
    exact .look (by rw [htrue]; exact hs) ih
  | @call next s p after htrue hfalse gone _ ih =>
    obtain ⟨s', hs⟩ := rethrow .cancelled s
    refine .call (by rw [htrue]; exact hs) (by rw [hfalse]; rfl) (fun e he => ?_) ih
    obtain ⟨s, hs⟩ := gone e he
    obtain ⟨s', hs'⟩ := rethrow (.target e) s
    exact ⟨s', by rw [hs]; exact hs'⟩

/-! ## Calls -/

theorem checkpoint : IsDisciplined checkpoint := fun _ => .look rfl (.done nofun)

/-- A call may do anything with its answer but go on when the session is lost. -/
theorem call_bind {p : Primitive} {f : Except TargetError Bool → Typing α}
    (gone : ∀ e, e.isGone → f (.error e) = MonadExcept.throw (.target e))
    (hf : ∀ r, (f r).IsDisciplined) : (call p >>= f).IsDisciplined := by
  intro s
  refine .call (s := s) rfl rfl (fun e he => ?_) fun r => hf r s
  show ∃ s', (f (.error e)).run.run s = .done (.error (.target e), s')
  rw [gone e he]
  exact ⟨s, rfl⟩

theorem require (p : Primitive) : (require p).IsDisciplined := by
  refine .call_bind (fun e _ => rfl) fun r => ?_
  rcases r with e | found
  · exact .throw nofun
  · exact .pure found

theorem tryRun (command : Command) : (tryRun command).IsDisciplined := by
  refine .call_bind (fun e he => ?_) fun r => ?_
  · cases e with
    | action _ _ => cases he
    | sessionUnavailable _ => rfl
    | documentNotFound _ => rfl
  · rcases r with (_ | _ | _) | found
    · exact .throw nofun
    · exact .pure false
    · exact .throw nofun
    · exact .pure found

theorem bestEffort (p : Primitive) : (bestEffort p).IsDisciplined := by
  refine .call_bind (fun e he => ?_) fun r => ?_
  · exact if_pos he
  · rcases r with e | found
    · show IsDisciplined (if e.isGone then _ else _)
      split
      · exact .throw nofun
      · exact .pure false
    · exact .pure found

theorem composes : Composes (fun _ => True) fun α (m : Typing α) => m.IsDisciplined where
  format _ := trivial
  pure := .pure
  throw he _ := .throw he
  bind := .bind
  revise _ hf := .bind .typingState fun s => .bind (.updateState _) fun _ => hf s
  typingState := .typingState
  updateState _ := .updateState _
  require _ := .require _
  tryRun _ := .tryRun _
  bestEffort _ := .bestEffort _

/-! ## Operations -/

variable (t : Typist σ)

theorem act (op : Operation) : (t.act op).IsDisciplined :=
  composes.act t (fun _ => trivial) .updateState op

theorem operation (op : Operation) : (t.operation op).IsDisciplined := by
  refine .bind .checkpoint fun _ => .bind .typingState fun before =>
    .tryCatch (.act t op) fun e s => ?_
  by_cases he : e.isGone
  · exact ⟨before, by simp [he]; rfl⟩
  · exact ⟨s, by simp [he]; rfl⟩

end Typing.IsDisciplined

/-! ## Losing the session -/

/-- An operation, with the state that it leaves when its session is lost. -/
theorem Typist.run_operation (t : Typist σ) (op : Operation) (s : TypingState) :
    (t.operation op).run.run s = .look fun cancelled =>
      if cancelled then .done (.error .cancelled, s)
      else ((t.act op).run.run s).bind fun r =>
        match r with
        | (.ok a, s') => .done (.ok a, s')
        | (.error e, s') => .done (.error e, if e.isGone then s else s') := by
  show Dialogue.look _ = _
  congr 1
  funext cancelled
  cases cancelled with
  | true => rfl
  | false =>
    show (tryCatch (t.act op) _ : Typing Unit).run.run s = _
    rw [Typing.run_tryCatch]
    simp only [Bool.false_eq_true, if_false]
    congr 1
    funext ⟨r, s'⟩
    rcases r with e | _
    · cases he : e.isGone <;> simp only [he] <;> rfl
    · rfl

/-- An operation that loses its session leaves the state as it was. -/
theorem Typist.state_of_operation_gone (t : Typist σ) (op : Operation) {s s' : TypingState}
    {e : Editor τ} {o o' : Outside τ} {error : TypingError}
    (h : ((t.operation op).run.run s).hold e o = ((.error error, s'), o')) (gone : error.isGone) :
    s' = s := by
  rw [run_operation, Dialogue.hold] at h
  split at h
  · cases h
    cases gone
  · rw [Dialogue.hold_bind] at h
    obtain ⟨⟨⟨e' | _, s''⟩, o''⟩, hr⟩ : ∃ r, ((t.act op).run.run s).hold e o = r := ⟨_, rfl⟩
    · rw [hr] at h
      cases h
      exact if_pos gone
    · rw [hr] at h
      cases h

end Scribe
