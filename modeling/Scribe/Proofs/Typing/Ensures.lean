import Scribe.Proofs.Typing.Discipline

set_option autoImplicit false

/-! # What typing ensures

A dialogue does not choose what it is answered, nor what a look sees. It ensures something when that
comes about however the other side conducts itself, and when it sends only what it is allowed to
send. An action of typing keeps an invariant when every call that it makes does. -/

namespace Scribe

variable {σ τ α β : Type}

/-! ## Dialogues -/

/-- What may happen in a dialogue about something of type `σ`. -/
structure Conduct (σ : Type) where
  /-- May the request be sent? -/
  allows : Request → σ → Prop
  /-- May a look see this? -/
  sees : Bool → Prop
  /-- May the request be answered so, with this left behind? -/
  answers : (r : Request) → σ → r.Answer → σ → Prop

namespace Dialogue

/-- Every request is allowed, and at the end `Q` holds, whatever happens. -/
def Ensures (C : Conduct σ) (Q : α → σ → Prop) : Dialogue α → σ → Prop
  | .done a, x => Q a x
  | .look next, x => ∀ b, C.sees b → (next b).Ensures C Q x
  | .ask r next, x => C.allows r x ∧ ∀ a x', C.answers r x a x' → (next a).Ensures C Q x'

namespace Ensures

variable {C : Conduct σ} {Q R : α → σ → Prop} {d : Dialogue α} {x : σ}

theorem mono (h : d.Ensures C Q x) (hQ : ∀ a x, Q a x → R a x) : d.Ensures C R x := by
  induction d generalizing x with
  | done a => exact hQ _ _ h
  | look next ih => exact fun b hb => ih b (h b hb)
  | ask r next ih => exact ⟨h.1, fun a x' ha => ih a (h.2 a x' ha)⟩

theorem bind {f : α → Dialogue β} {R : β → σ → Prop}
    (h : d.Ensures C (fun a => (f a).Ensures C R) x) : (d.bind f).Ensures C R x := by
  induction d generalizing x with
  | done a => exact h
  | look next ih => exact fun b hb => ih b (h b hb)
  | ask r next ih => exact ⟨h.1, fun a x' ha => ih a (h.2 a x' ha)⟩

/-- A dialogue that is held comes to what it ensures, when the editor and the token conduct
    themselves as they may; `v` is what the dialogue is about, and `J` is kept all along. -/
theorem hold {e : Editor τ} {v : τ → σ} {J : Outside τ → Prop}
    (hlook : ∀ o, J o → C.sees o.token.cancelled)
    (hask : ∀ o r, J o → C.allows r (v o.target) →
      C.answers r (v o.target) (o.answer e r).1 (v (o.answer e r).2.target) ∧
        J (o.answer e r).2)
    {o : Outside τ} (h : d.Ensures C Q (v o.target)) (ho : J o) :
    Q (d.hold e o).1 (v (d.hold e o).2.target) ∧ J (d.hold e o).2 := by
  induction d generalizing o with
  | done a => exact ⟨h, ho⟩
  | look next ih => exact ih _ (h _ (hlook o ho)) ho
  | ask r next ih =>
    obtain ⟨hanswer, hJ⟩ := hask o r ho h.1
    exact ih _ (h.2 _ _ hanswer) hJ

end Ensures

end Dialogue

/-! ## Actions -/

namespace Typing

/-- From `P`, an action comes to `Q` in every state of typing. -/
def Meets (C : Conduct σ) (P : σ → Prop) (m : Typing α) (Q : Except TypingError α → σ → Prop) :
    Prop := ∀ s x, P x → (m.run.run s).Ensures C (fun r => Q r.1) x

namespace Meets

variable {C : Conduct σ} {P P' : σ → Prop} {m : Typing α} {Q Q' : Except TypingError α → σ → Prop}

theorem pure {a : α} (h : ∀ x, P x → Q (.ok a) x) : Meets C P (pure a : Typing α) Q :=
  fun _ x hx => h x hx

theorem throw {e : TypingError} (h : ∀ x, P x → Q (.error e) x) :
    Meets C P (throw e : Typing α) Q := fun _ x hx => h x hx

theorem typingState {Q : Except TypingError TypingState → σ → Prop}
    (h : ∀ s x, P x → Q (.ok s) x) : Meets C P typingState Q := fun s x hx => h s x hx

theorem updateState {f : TypingState → TypingState} {Q : Except TypingError Unit → σ → Prop}
    (h : ∀ x, P x → Q (.ok ()) x) : Meets C P (updateState f) Q := fun _ x hx => h x hx

theorem weaken (h : Meets C P m Q) (hP : ∀ x, P' x → P x) (hQ : ∀ r x, Q r x → Q' r x) :
    Meets C P' m Q' := fun s x hx => (h s x (hP x hx)).mono fun r x => hQ r.1 x

theorem bind {f : α → Typing β} {R : Except TypingError β → σ → Prop} (hm : Meets C P m Q)
    (herror : ∀ e x, Q (.error e) x → R (.error e) x)
    (hf : ∀ a, Meets C (Q (.ok a)) (f a) R) : Meets C P (m >>= f) R := by
  intro s x hx
  rw [run_bind]
  refine ((hm s x hx).mono ?_).bind
  rintro ⟨e | a, s'⟩ x' h
  · exact herror e x' h
  · exact hf a s' x' h

/-! ## Calls -/

theorem call_bind {p : Primitive} {f : Except TargetError Bool → Typing α}
    (hallowed : ∀ x, P x → C.allows (.call p) x) (hstop : ∀ x, P x → Q (.error .cancelled) x)
    (hf : ∀ r, Meets C (fun x' => ∃ x, P x ∧ C.answers (.call p) x r x') (f r) Q) :
    Meets C P (call p >>= f) Q := by
  rintro s x hx (_ | _) -
  · exact ⟨hallowed x hx, fun r x' hr => hf r s x' ⟨x, hx, hr⟩⟩
  · exact hstop x hx

section

variable {p : Primitive} {command : Command} {Q : Except TypingError Bool → σ → Prop}

theorem require (hallowed : ∀ x, P x → C.allows (.call p) x)
    (hstop : ∀ x, P x → Q (.error .cancelled) x)
    (hok : ∀ x found x', P x → C.answers (.call p) x (.ok found) x' → Q (.ok found) x')
    (herror : ∀ x e x', P x → C.answers (.call p) x (.error e) x' →
      Q (.error (.target e)) x') : Meets C P (require p) Q := by
  refine call_bind hallowed hstop fun r => ?_
  rcases r with e | found
  · exact throw fun x' ⟨x, hx, h⟩ => herror x e x' hx h
  · exact pure fun x' ⟨x, hx, h⟩ => hok x found x' hx h

theorem discard_require {Q : Except TypingError Unit → σ → Prop}
    (hallowed : ∀ x, P x → C.allows (.call p) x) (hstop : ∀ x, P x → Q (.error .cancelled) x)
    (hok : ∀ x found x', P x → C.answers (.call p) x (.ok found) x' → Q (.ok ()) x')
    (herror : ∀ x e x', P x → C.answers (.call p) x (.error e) x' →
      Q (.error (.target e)) x') : Meets C P (discard (Typing.require p)) Q := by
  refine bind (Q := fun r => match r with
    | .ok _ => Q (.ok ())
    | .error e => Q (.error e)) (require hallowed hstop hok herror) (fun _ _ h => h) fun _ => ?_
  exact pure fun _ h => h

/-- A command that is refused counts as not done. -/
theorem tryRun (hallowed : ∀ x, P x → C.allows (.call (.run command)) x)
    (hstop : ∀ x, P x → Q (.error .cancelled) x)
    (hok : ∀ x found x', P x → C.answers (.call (.run command)) x (.ok found) x' →
      Q (.ok found) x')
    (herror : ∀ x e x', P x → C.answers (.call (.run command)) x (.error e) x' →
      Q (.ok false) x' ∧ Q (.error (.target e)) x') : Meets C P (tryRun command) Q := by
  refine call_bind hallowed hstop fun r => ?_
  rcases r with (_ | _ | _) | found
  · exact throw fun x' ⟨x, hx, h⟩ => (herror x _ x' hx h).2
  · exact pure fun x' ⟨x, hx, h⟩ => (herror x _ x' hx h).1
  · exact throw fun x' ⟨x, hx, h⟩ => (herror x _ x' hx h).2
  · exact pure fun x' ⟨x, hx, h⟩ => hok x found x' hx h

theorem bestEffort (hallowed : ∀ x, P x → C.allows (.call p) x)
    (hstop : ∀ x, P x → Q (.error .cancelled) x)
    (hok : ∀ x found x', P x → C.answers (.call p) x (.ok found) x' → Q (.ok found) x')
    (herror : ∀ x e x', P x → C.answers (.call p) x (.error e) x' →
      Q (.ok false) x' ∧ Q (.error (.target e)) x') : Meets C P (bestEffort p) Q := by
  refine call_bind hallowed hstop fun r => ?_
  rcases r with e | found
  · show Meets C _ (if e.isGone then _ else _) Q
    split
    · exact throw fun x' ⟨x, hx, h⟩ => (herror x e x' hx h).2
    · exact pure fun x' ⟨x, hx, h⟩ => (herror x e x' hx h).1
  · exact pure fun x' ⟨x, hx, h⟩ => hok x found x' hx h

end

end Meets

/-! ## Invariants -/

/-- An action that succeeds ends in `Q`, and one that fails in `E`. -/
def endsIn (Q : α → σ → Prop) (E : TypingError → σ → Prop) : Except TypingError α → σ → Prop
  | .ok a => Q a
  | .error e => E e

/-- An action keeps `I`; when it fails, it leaves at least `E`. -/
def Keeps (C : Conduct σ) (I : σ → Prop) (E : TypingError → σ → Prop) (m : Typing α) : Prop :=
  Meets C I m (endsIn (fun _ => I) E)

/-- A call is allowed as long as `I` holds, and keeps it whatever the answer. -/
structure Spares (C : Conduct σ) (I : σ → Prop) (p : Primitive) : Prop where
  allowed {x : σ} : I x → C.allows (.call p) x
  keeps {x x' : σ} {r : Except TargetError Bool} : I x → C.answers (.call p) x r x' → I x'

variable {C : Conduct σ} {I : σ → Prop} {E : TypingError → σ → Prop}

/-- Keeping an invariant composes. -/
theorem Keeps.composes (hE : ∀ e x, e.isGone = false → I x → E e x)
    (herror : ∀ p x e x', I x → C.answers (.call p) x (.error e) x' → I x' → E (.target e) x')
    (hformat : ∀ p : Primitive, p.isFormat → Spares C I p) :
    Composes (Spares C I) fun α (m : Typing α) => m.Keeps C I E where
  format h := hformat _ h
  pure _ := .pure fun _ hx => hx
  throw _ he := .throw fun x => hE _ x he
  bind hm hf := hm.bind (fun _ _ h => h) hf
  revise _ hf := .bind (Q := endsIn (fun _ => I) E) (.typingState fun _ _ hx => hx)
    (fun _ _ h => h) fun s => .bind (Q := endsIn (fun _ => I) E) (.updateState fun _ hx => hx)
      (fun _ _ h => h) fun _ => hf s
  typingState := .typingState fun _ _ hx => hx
  updateState _ := .updateState fun _ hx => hx
  require hp := .require (fun _ => hp.allowed) (fun x => hE _ x rfl) (fun _ _ _ => hp.keeps)
    fun _ _ _ hx h => herror _ _ _ _ hx h (hp.keeps hx h)
  tryRun hp := .tryRun (fun _ => hp.allowed) (fun x => hE _ x rfl) (fun _ _ _ => hp.keeps)
    fun _ _ _ hx h => ⟨hp.keeps hx h, herror _ _ _ _ hx h (hp.keeps hx h)⟩
  bestEffort hp := .bestEffort (fun _ => hp.allowed) (fun x => hE _ x rfl) (fun _ _ _ => hp.keeps)
    fun _ _ _ hx h => ⟨hp.keeps hx h, herror _ _ _ _ hx h (hp.keeps hx h)⟩

end Typing

end Scribe
