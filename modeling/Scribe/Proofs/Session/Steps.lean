import Scribe.Session
import Scribe.Proofs.Typing.Discipline

set_option autoImplicit false

/-! # Steps of a session

What a session does is carried out one action after another, and the steps of a plan one step after
another. `StepRun` says all that a step can do; a run that fails has typed all steps before the one
it failed at. -/

namespace Scribe

variable {σ α β : Type}

/-! ## Carrying out actions -/

namespace Session

/-- The turns that an action of a session takes. -/
def turns (e : Editor σ) (m : SessionAction α) (s : Session σ) : List Turn :=
  (m.run s.memory).turns e s.outside

variable (e : Editor σ) (s : Session σ)

theorem carryOut_bind (m : SessionAction α) (f : α → SessionAction β) :
    s.carryOut e (m >>= f) = (s.carryOut e m).2.carryOut e (f (s.carryOut e m).1) := by
  have hold_run : ((m >>= f).run s.memory).hold e s.outside =
      (((f ((m.run s.memory).hold e s.outside).1.1).run
        ((m.run s.memory).hold e s.outside).1.2).hold e ((m.run s.memory).hold e s.outside).2) :=
    Dialogue.hold_bind e _ _ _
  unfold carryOut
  rw [hold_run]
  rfl

theorem turns_bind (m : SessionAction α) (f : α → SessionAction β) :
    s.turns e (m >>= f) = s.turns e m ++ (s.carryOut e m).2.turns e (f (s.carryOut e m).1) :=
  Dialogue.turns_bind e _ _ _

@[simp] theorem carryOut_pure (a : α) : s.carryOut e (pure a) = (a, s) := rfl

theorem carryOut_looked :
    s.carryOut e (Dialogue.looked : SessionAction Bool) = (s.desk.token.cancelled, s) := rfl

/-- What becomes of the target is up to the requests. -/
theorem target_carryOut (m : SessionAction α) :
    (s.carryOut e m).2.desk.target = e.after (requestsOf (s.turns e m)) s.desk.target :=
  Dialogue.target_hold e (m.run s.memory) s.outside

end Session

namespace SessionAction

/-! ## Attaching -/

/-- What attaching makes of what a session remembers. -/
def attachedMemory (document : Option Text) (m : SessionMemory) : SessionMemory :=
  if document.isSome && document != m.document then { attached := true, document }
  else { m with attached := true }

theorem carryOut_attach (e : Editor σ) (document : Option Text) (s : Session σ) :
    s.carryOut e (attach document) =
      match e.connect document s.desk.target with
      | (.error error, x) =>
        (.error error, .ofMemory { s.memory with attached := false } ⟨x, s.desk.token⟩)
      | (.ok (), x) =>
        (.ok (), .ofMemory (attachedMemory document s.memory) ⟨x, s.desk.token⟩) := by
  obtain ⟨⟨r, x⟩, hr⟩ : ∃ r, e.connect document s.desk.target = r := ⟨_, rfl⟩
  have hasked : s.carryOut e (Dialogue.asked (.connect document) : SessionAction _) =
      (r, .ofMemory s.memory ⟨x, s.desk.token⟩) := by
    show ((e.connect document s.desk.target).1,
      Session.ofMemory s.memory ⟨(e.connect document s.desk.target).2, s.desk.token⟩) = _
    rw [hr]
  rw [attach, Session.carryOut_bind, hasked, hr]
  rcases r with error | _ <;> rfl

/-- A session that attached has the state that is left to it, and the document was there. -/
theorem state_of_attach_ok {e : Editor σ} {document : Option Text} {s s' : Session σ}
    (h : s.carryOut e (attach document) = (.ok (), s')) :
    s'.desk.state = (attachedMemory document s.memory).state ∧
      (e.connect document s.desk.target).1 = .ok () := by
  rw [carryOut_attach] at h
  rcases hconnect : e.connect document s.desk.target with ⟨_ | _, x⟩
  · rw [hconnect] at h
    cases h
  · rw [hconnect] at h
    cases h
    exact ⟨rfl, rfl⟩

theorem turns_attach (e : Editor σ) (document : Option Text) (s : Session σ) :
    s.turns e (attach document) =
      [.ask (.connect document) (e.connect document s.desk.target).1] := by
  rw [attach, Session.turns_bind]
  rcases (s.carryOut e (Dialogue.asked (.connect document) : SessionAction _)).1 with _ | _ <;> rfl

/-! ## Attempts -/

/-- Typing changes nothing that the session remembers but the state. -/
theorem run_typing (m : Typing α) (memory : SessionMemory) :
    (typing m).run memory = (m.run.run memory.state).bind fun r =>
      .done (r.1, { memory with state := r.2 }) :=
  Dialogue.bind_assoc _ _ _

theorem run_attempt_ok (t : Typist σ) (op : Operation) (memory : SessionMemory) :
    (attempt t (.ok op)).run memory = ((t.operation op).run.run memory.state).bind fun r =>
      .done (r.1.mapError .typing, { memory with state := r.2 }) := by
  show ((typing (t.operation op)).run memory).bind _ = _
  rw [run_typing, Dialogue.bind_assoc]
  rfl

theorem carryOut_attempt_ok (t : Typist σ) (e : Editor σ) (op : Operation) (s : Session σ) :
    s.carryOut e (attempt t (.ok op)) =
      match ((t.operation op).run.run s.desk.state).hold e s.outside with
      | ((r, state), o) => (r.mapError .typing, .ofMemory { s.memory with state } o) := by
  unfold Session.carryOut
  rw [run_attempt_ok, Dialogue.hold_bind]
  rfl

theorem turns_attempt_ok (t : Typist σ) (e : Editor σ) (op : Operation) (s : Session σ) :
    s.turns e (attempt t (.ok op)) = ((t.operation op).run.run s.desk.state).turns e s.outside := by
  unfold Session.turns
  rw [run_attempt_ok, Dialogue.turns_bind]
  exact List.append_nil _

/-- An attempt changes nothing that the session remembers but the state; if it loses the session,
    not even that. -/
theorem memory_attempt (t : Typist σ) (e : Editor σ) (step : Step) (s : Session σ) :
    ∃ state, (s.carryOut e (attempt t step)).2.memory = { s.memory with state } ∧
      ∀ error, (s.carryOut e (attempt t step)).1 = .error (.typing error) → error.isGone →
        state = s.desk.state := by
  cases step with
  | error e => exact ⟨s.desk.state, rfl, fun _ _ _ => rfl⟩
  | ok op =>
    rw [carryOut_attempt_ok]
    obtain ⟨⟨⟨r, state⟩, o⟩, hr⟩ :
      ∃ r, ((t.operation op).run.run s.desk.state).hold e s.outside = r := ⟨_, rfl⟩
    rw [hr]
    refine ⟨state, rfl, fun error herror gone => ?_⟩
    rcases r with error' | _
    · cases herror
      exact t.state_of_operation_gone op hr gone
    · cases herror

theorem memory_of_attempt_gone {t : Typist σ} {e : Editor σ} {step : Step} {s s' : Session σ}
    {error : TypingError} (h : s.carryOut e (attempt t step) = (.error (.typing error), s'))
    (gone : error.isGone) : s'.memory = s.memory := by
  obtain ⟨state, hmemory, hstate⟩ := memory_attempt t e step s
  rw [h] at hmemory hstate
  rw [hmemory, hstate error rfl gone]
  rfl

end SessionAction

/-! ## A step -/

namespace SessionAction

theorem halt_eq_cancelled_iff {index k : Nat} {step : Step} {e : StepError} :
    halt index step e = .cancelled k ↔ e = .typing .cancelled ∧ k = index := by
  rcases e with _ | (_ | _) | _ <;> simp [halt, eq_comm]

/-- What a step answers when its last attempt went as it did. -/
def closing (index : Nat) (step : Step) (again : Bool) :
    Except StepError Unit → Except RunError Bool
  | .ok () => .ok again
  | .error e => .error (halt index step e)

variable (t : Typist σ) (document : Option Text)

/-- All that a step can do, with its answer and the session behind it. -/
inductive StepRun (index : Nat) (step : Step) (s : Session σ) :
    Except RunError Bool → Session σ → Prop
  | once {r : Except StepError Unit} {s' : Session σ} :
    s.carryOut t.editor (attempt t step) = (r, s') → (∀ e, r = .error e → e.isGone = false) →
    StepRun index step s (closing index step false r) s'
  | unattached {e : TypingError} {a : TargetError} {s' s'' : Session σ} :
    s.carryOut t.editor (attempt t step) = (.error (.typing e), s') → e.isGone →
    s'.carryOut t.editor (attach document) = (.error a, s'') →
    StepRun index step s (.error (halt index step (.reattach e a))) s''
  | again {e : TypingError} {r : Except StepError Unit} {s' s'' s''' : Session σ} :
    s.carryOut t.editor (attempt t step) = (.error (.typing e), s') → e.isGone →
    s'.carryOut t.editor (attach document) = (.ok (), s'') →
    s''.carryOut t.editor (attempt t step) = (r, s''') →
    StepRun index step s (closing index step true r) s'''

theorem stepRun_typeStep (index : Nat) (step : Step) (s : Session σ) :
    StepRun t document index step s (s.carryOut t.editor (typeStep t document index step)).1
      (s.carryOut t.editor (typeStep t document index step)).2 := by
  unfold typeStep
  rw [Session.carryOut_bind]
  rcases h : s.carryOut t.editor (attempt t step) with ⟨r, s'⟩
  rcases r with (e | e | ⟨e, a⟩) | _
  · exact .once h fun _ h => by cases h; rfl
  · cases he : e.isGone with
    | false =>
      simp only [he]
      exact .once h fun _ h => by cases h; exact he
    | true =>
      simp only [he, if_true]
      rw [Session.carryOut_bind]
      rcases h' : s'.carryOut t.editor (attach document) with ⟨a | _, s''⟩
      · exact .unattached h he h'
      · simp only
        rw [Session.carryOut_bind]
        rcases h'' : s''.carryOut t.editor (attempt t step) with ⟨e' | _, s'''⟩
        · exact .again h he h' h''
        · exact .again h he h' h''
  · exact .once h fun _ h => by cases h; rfl
  · exact .once h nofun

variable {t document}

/-- What a step can do determines what it does. -/
theorem StepRun.carryOut_eq {index : Nat} {step : Step} {s s' : Session σ}
    {r : Except RunError Bool} (h : StepRun t document index step s r s') :
    s.carryOut t.editor (typeStep t document index step) = (r, s') := by
  unfold typeStep
  rw [Session.carryOut_bind]
  cases h with
  | @once r s' hattempt hgone =>
    rw [hattempt]
    rcases r with (e | e | ⟨e, a⟩) | _
    · rfl
    · have he : e.isGone = false := hgone _ rfl
      simp only [he]
      rfl
    · rfl
    · rfl
  | unattached hattempt he hattach =>
    rw [hattempt]
    simp only [he, if_true]
    rw [Session.carryOut_bind, hattach]
    rfl
  | @again e r _ _ _ hattempt he hattach hagain =>
    rw [hattempt]
    simp only [he, if_true]
    rw [Session.carryOut_bind, hattach]
    simp only
    rw [Session.carryOut_bind, hagain]
    rcases r with _ | _ <;> rfl

theorem carryOut_typeStep_once {index : Nat} {step : Step} {s s' : Session σ}
    (h : s.carryOut t.editor (attempt t step) = (.ok (), s')) :
    s.carryOut t.editor (typeStep t document index step) = (.ok false, s') :=
  StepRun.carryOut_eq (.once h nofun)

theorem carryOut_typeStep_again {index : Nat} {step : Step} {e : TypingError}
    {s s₁ s₂ s' : Session σ}
    (h : s.carryOut t.editor (attempt t step) = (.error (.typing e), s₁)) (he : e.isGone)
    (hattach : s₁.carryOut t.editor (attach document) = (.ok (), s₂))
    (hagain : s₂.carryOut t.editor (attempt t step) = (.ok (), s')) :
    s.carryOut t.editor (typeStep t document index step) = (.ok true, s') :=
  StepRun.carryOut_eq (.again h he hattach hagain)

/-- What a step that succeeds has done. -/
theorem StepRun.of_ok {index : Nat} {step : Step} {s s' : Session σ} {again : Bool}
    (h : StepRun t document index step s (.ok again) s') :
    (again = false ∧ s.carryOut t.editor (attempt t step) = (.ok (), s')) ∨
    (again = true ∧ ∃ e s₁ s₂, s.carryOut t.editor (attempt t step) = (.error (.typing e), s₁) ∧
      e.isGone ∧ s₁.carryOut t.editor (attach document) = (.ok (), s₂) ∧
      s₂.carryOut t.editor (attempt t step) = (.ok (), s')) := by
  generalize hr : Except.ok again = r at h
  cases h with
  | @once r _ hattempt _ =>
    cases r with
    | error _ => cases hr
    | ok _ =>
      cases hr
      exact .inl ⟨rfl, hattempt⟩
  | unattached _ _ _ => cases hr
  | @again e r s₁ s₂ _ hattempt he hattach hagain =>
    cases r with
    | error _ => cases hr
    | ok _ =>
      cases hr
      exact .inr ⟨rfl, e, s₁, s₂, hattempt, he, hattach, hagain⟩

/-- A step that is cancelled reports its own index. -/
theorem StepRun.index_eq {index k : Nat} {step : Step} {s s' : Session σ}
    {r : Except RunError Bool} (h : StepRun t document index step s r s')
    (hr : r = .error (.cancelled k)) : k = index := by
  have of_closing {again : Bool} {r : Except StepError Unit}
      (h : closing index step again r = .error (.cancelled k)) : k = index := by
    cases r with
    | ok => cases h
    | error e => exact (halt_eq_cancelled_iff.1 (Except.error.inj h)).2
  cases h with
  | once _ _ => exact of_closing hr
  | unattached _ _ _ => exact (halt_eq_cancelled_iff.1 (Except.error.inj hr)).2
  | again _ _ _ _ => exact of_closing hr

/-! ## Steps -/

theorem carryOut_typeSteps_cons (index : Nat) (reattached : Bool) (step : Step) (steps : List Step)
    (s : Session σ) :
    s.carryOut t.editor (typeSteps t document index reattached (step :: steps)) =
      match s.carryOut t.editor (typeStep t document index step) with
      | (.error e, s') => (.error e, s')
      | (.ok again, s') => s'.carryOut t.editor
          (typeSteps t document (index + 1) (reattached || again) steps) := by
  rw [typeSteps, Session.carryOut_bind]
  rcases s.carryOut t.editor (typeStep t document index step) with ⟨_ | _, s'⟩ <;> rfl

theorem carryOut_typeSteps_append (index : Nat) (reattached : Bool) (steps rest : List Step)
    (s : Session σ) :
    s.carryOut t.editor (typeSteps t document index reattached (steps ++ rest)) =
      match s.carryOut t.editor (typeSteps t document index reattached steps) with
      | (.error e, s') => (.error e, s')
      | (.ok again, s') => s'.carryOut t.editor
          (typeSteps t document (index + steps.length) again rest) := by
  induction steps generalizing index reattached s with
  | nil => rfl
  | cons step steps ih =>
    rw [List.cons_append, carryOut_typeSteps_cons, carryOut_typeSteps_cons]
    rcases s.carryOut t.editor (typeStep t document index step) with ⟨_ | again, s'⟩
    · rfl
    · rw [List.length_cons, Nat.add_comm steps.length, ← Nat.add_assoc]
      exact ih ..

/-- Whether steps before were typed after attaching again is reported, and makes no other
    difference. -/
theorem carryOut_typeSteps_reattached (index : Nat) (reattached : Bool) (steps : List Step)
    (s : Session σ) :
    s.carryOut t.editor (typeSteps t document index reattached steps) =
      match s.carryOut t.editor (typeSteps t document index false steps) with
      | (r, s') => (r.map (reattached || ·), s') := by
  induction steps generalizing index reattached s with
  | nil => simp [typeSteps, Except.map]
  | cons step steps ih =>
    rw [carryOut_typeSteps_cons, carryOut_typeSteps_cons]
    rcases s.carryOut t.editor (typeStep t document index step) with ⟨_ | again, s'⟩
    · rfl
    · simp only [Bool.false_or]
      rw [ih _ (reattached || again), ih _ again]
      rcases s'.carryOut t.editor (typeSteps t document (index + 1) false steps) with ⟨_ | _, s''⟩
      · rfl
      · simp [Except.map, Bool.or_assoc]

/-- Steps that end in an error have typed the steps before one that ended in it. -/
theorem carryOut_typeSteps_error {index : Nat} {reattached : Bool} {steps : List Step}
    {s s' : Session σ} {e : RunError}
    (h : s.carryOut t.editor (typeSteps t document index reattached steps) = (.error e, s')) :
    ∃ (k : Nat) (hk : k < steps.length) (again : Bool) (sₖ : Session σ),
      s.carryOut t.editor (typeSteps t document index reattached (steps.take k))
        = (.ok again, sₖ) ∧
      sₖ.carryOut t.editor (typeStep t document (index + k) steps[k]) = (.error e, s') := by
  induction steps generalizing index reattached s with
  | nil => cases congrArg Prod.fst h
  | cons step steps ih =>
    rw [carryOut_typeSteps_cons] at h
    rcases hstep : s.carryOut t.editor (typeStep t document index step) with ⟨e' | again, s₁⟩
    · rw [hstep] at h
      cases h
      exact ⟨0, Nat.zero_lt_succ _, reattached, s, rfl, hstep⟩
    · rw [hstep] at h
      obtain ⟨k, hk, again', sₖ, htake, hend⟩ := ih h
      refine ⟨k + 1, Nat.succ_lt_succ hk, again', sₖ, ?_, ?_⟩
      · rw [List.take_succ_cons, carryOut_typeSteps_cons, hstep]
        exact htake
      · rw [List.getElem_cons_succ, Nat.add_comm k 1, ← Nat.add_assoc]
        exact hend

/-! ## A plan -/

theorem carryOut_typePlan (normalized : Text) (plan : Plan) (s : Session σ) :
    s.carryOut t.editor (typePlan t normalized plan document) =
      if s.desk.token.cancelled then (.error (.cancelled 0), s)
      else match s.carryOut t.editor (ensureAttached document) with
        | (.error e, s') => (.error (.attach e), s')
        | (.ok (), s') =>
          match s'.carryOut t.editor (typeSteps t document 0 false plan.steps) with
          | (.error e, s'') => (.error e, s'')
          | (.ok reattached, s'') =>
            (.ok { tier := plan.tier, applied := plan.steps.length, reattached, normalized },
              s'') := by
  rw [typePlan, Session.carryOut_bind, Session.carryOut_looked]
  cases s.desk.token.cancelled with
  | true => rfl
  | false =>
    simp only [Bool.false_eq_true, if_false]
    rw [Session.carryOut_bind]
    rcases s.carryOut t.editor (ensureAttached document) with ⟨_ | _, s'⟩
    · rfl
    · simp only
      rw [Session.carryOut_bind]
      rcases s'.carryOut t.editor (typeSteps t document 0 false plan.steps) with ⟨_ | _, s''⟩ <;>
        rfl

theorem carryOut_typePlan_ok (normalized : Text) {plan : Plan} {s s₁ s' : Session σ} {again : Bool}
    (htoken : s.desk.token.cancelled = false)
    (hattach : s.carryOut t.editor (ensureAttached document) = (.ok (), s₁))
    (hsteps : s₁.carryOut t.editor (typeSteps t document 0 false plan.steps) = (.ok again, s')) :
    (s.carryOut t.editor (typePlan t normalized plan document)).1.isOk ∧
      (s.carryOut t.editor (typePlan t normalized plan document)).2 = s' := by
  rw [carryOut_typePlan, htoken, hattach]
  simp only [hsteps]
  exact ⟨rfl, rfl⟩

theorem carryOut_typePlan_of_isOk {normalized : Text} {plan : Plan} {s : Session σ}
    (h : (s.carryOut t.editor (typePlan t normalized plan document)).1.isOk) :
    ∃ s₁ again, s.carryOut t.editor (ensureAttached document) = (.ok (), s₁) ∧
      s₁.carryOut t.editor (typeSteps t document 0 false plan.steps) =
        (.ok again, (s.carryOut t.editor (typePlan t normalized plan document)).2) := by
  rw [carryOut_typePlan] at h ⊢
  cases hc : s.desk.token.cancelled with
  | true =>
    rw [hc] at h
    cases h
  | false =>
    simp only [hc, Bool.false_eq_true, if_false] at h ⊢
    rcases h₁ : s.carryOut t.editor (ensureAttached document) with ⟨_ | _, s₁⟩
    · rw [h₁] at h
      cases h
    · simp only [h₁] at h ⊢
      rcases h₂ : s₁.carryOut t.editor (typeSteps t document 0 false plan.steps)
        with ⟨_ | again, s₂⟩
      · rw [h₂] at h
        cases h
      · exact ⟨s₁, again, rfl, h₂⟩

end SessionAction

end Scribe
