import Scribe.Proofs.Session.Steps
import Scribe.Proofs.Typing.Discipline

set_option autoImplicit false

/-! # Cancelling a run

A script heeds its token: each call is sent right behind a look that saw no cancellation, and a look
that sees one ends the run as cancelled. Main statement: a controller that cancels when the `n`-th
call returns makes the first `n` calls of the run what they are without it. If the run looks at the
token once more, it ends there, with exactly the steps typed that it reports; otherwise it ends as
it does without the controller. -/

namespace Scribe

variable {σ α β : Type}

/-- A disciplined dialogue heeds its token; to be stopped is to be cancelled. -/
theorem Dialogue.Disciplined.heeds {d : Dialogue (Typed α)} (hd : d.Disciplined) :
    d.Heeds fun r => r.1 = .error .cancelled := by
  induction hd with
  | done h => exact .done h
  | look htrue _ ih => exact .look htrue rfl ih
  | call htrue hfalse _ _ ih => exact .call htrue rfl hfalse ih

namespace SessionAction

/-! ## Heeding actions -/

/-- An action of a session that heeds its token, whatever the session remembers. -/
def IsHeeding (Stopped : α → Prop) (m : SessionAction α) : Prop :=
  ∀ memory, (m.run memory).Heeds fun r => Stopped r.1

/-- A run that was cancelled. -/
def IsCancelled (r : Except RunError α) : Prop := ∃ k, r = .error (.cancelled k)

namespace IsHeeding

variable {Stopped : α → Prop} {Stopped' : β → Prop}

theorem pure {a : α} (h : ¬ Stopped a) : IsHeeding Stopped (pure a) := fun _ => .done h

/-- What the session remembers is read and changed without a turn. -/
theorem silent {a : SessionMemory → α} {f : SessionMemory → SessionMemory}
    (h : ∀ m, ¬ Stopped (a m)) :
    IsHeeding Stopped (fun m => .done (a m, f m) : SessionAction α) := fun m => .done (h m)

theorem asked {r : Request} (h : r.isCall = false) :
    IsHeeding (fun _ => False) (Dialogue.asked r : SessionAction r.Answer) :=
  fun _ => .ask h fun _ => .done nofun

/-- A dialogue that leaves alone what the session remembers. -/
theorem lift {d : Dialogue α} (hd : d.Heeds Stopped) : IsHeeding Stopped (d : SessionAction α) :=
  fun memory => hd.bind (fun a ha => ⟨(a, memory), rfl, ha⟩) fun _ ha => .done ha

/-- An action that is stopped ends the whole as stopped. -/
theorem bind {m : SessionAction α} {f : α → SessionAction β} (hm : m.IsHeeding Stopped)
    (stop : ∀ a, Stopped a → ∀ memory, ∃ b, (f a).run memory = .done b ∧ Stopped' b.1)
    (hf : ∀ a, ¬ Stopped a → (f a).IsHeeding Stopped') : (m >>= f).IsHeeding Stopped' :=
  fun memory => (hm memory).bind (fun r hr => stop r.1 hr r.2) fun r hr => hf r.1 hr r.2

/-- Behind an action that cannot be stopped. -/
theorem bind_unstopped {m : SessionAction α} {f : α → SessionAction β}
    (hm : m.IsHeeding fun _ => False) (hf : ∀ a, (f a).IsHeeding Stopped') :
    (m >>= f).IsHeeding Stopped' :=
  hm.bind (fun _ h => h.elim) fun a _ => hf a

end IsHeeding

/-! ## Attaching and typing -/

theorem isHeeding_attach (document : Option Text) :
    (attach document).IsHeeding fun _ => False := by
  refine .bind_unstopped (.asked rfl) fun r => ?_
  rcases r with e | _
  · exact .bind_unstopped (.silent fun _ => not_false) fun _ => .pure not_false
  · exact .bind_unstopped (.silent fun _ => not_false) fun _ => .pure not_false

theorem isHeeding_isHealthy (document : Option Text) :
    (isHealthy document).IsHeeding fun _ => False := by
  refine .bind_unstopped (.silent fun _ => not_false) fun memory => ?_
  split
  · refine .bind_unstopped (.asked rfl) fun r => ?_
    rcases r with e | name
    · exact .pure not_false
    · exact .pure not_false
  · exact .pure not_false

theorem isHeeding_ensureAttached (document : Option Text) :
    (ensureAttached document).IsHeeding fun _ => False := by
  refine .bind_unstopped (isHeeding_isHealthy document) fun healthy => ?_
  split
  · exact .pure not_false
  · exact isHeeding_attach document

theorem isHeeding_typing {m : Typing α} (hm : m.IsDisciplined) :
    (typing m).IsHeeding (· = .error .cancelled) := by
  refine .bind_unstopped (.silent fun _ => not_false) fun memory =>
    .bind (.lift (hm memory.state).heeds) (fun r hr _ => ⟨_, rfl, hr⟩) fun r hr => ?_
  exact .bind_unstopped (.silent fun _ => not_false) fun _ => .pure hr

/-! ## Steps and scripts -/

variable (t : Typist σ) (document : Option Text)

theorem isHeeding_attempt (step : Step) :
    (attempt t step).IsHeeding (· = .error (.typing .cancelled)) := by
  cases step with
  | error e => exact .pure (by simp)
  | ok op =>
    refine .bind (isHeeding_typing (.operation t op)) (fun r hr _ => ?_) fun r hr => .pure ?_
    · exact ⟨_, rfl, by rw [hr]; rfl⟩
    · intro h
      rcases r with e | _
      · exact hr (congrArg _ (StepError.typing.inj (Except.error.inj h)))
      · cases h

theorem isHeeding_typeStep (index : Nat) (step : Step) :
    (typeStep t document index step).IsHeeding IsCancelled := by
  have pure_halt {e : StepError} (he : e ≠ .typing .cancelled) :
      IsHeeding IsCancelled (pure (.error (halt index step e)) : SessionAction (Except _ Bool)) :=
    .pure fun ⟨k, h⟩ => he (halt_eq_cancelled_iff.1 (Except.error.inj h)).1
  have pure_ok (again : Bool) :
      IsHeeding IsCancelled (pure (.ok again) : SessionAction (Except RunError Bool)) :=
    .pure fun ⟨_, h⟩ => nomatch h
  refine .bind (isHeeding_attempt t step) (fun r hr _ => ?_) fun r hr => ?_
  · exact ⟨(.error (.cancelled index), _), by rw [hr]; rfl, index, rfl⟩
  · rcases r with (e | e | ⟨e, a⟩) | _
    · exact pure_halt nofun
    · simp only
      split
      · refine .bind_unstopped (isHeeding_attach document) fun r => ?_
        rcases r with a | _
        · exact pure_halt nofun
        · refine .bind (isHeeding_attempt t step) (fun r hr _ => ?_) fun r hr => ?_
          · exact ⟨(.error (.cancelled index), _), by rw [hr]; rfl, index, rfl⟩
          · rcases r with e | _
            · exact pure_halt fun h => hr (congrArg _ h)
            · exact pure_ok true
      · exact pure_halt fun h => hr (congrArg _ h)
    · exact pure_halt nofun
    · exact pure_ok false

theorem isHeeding_typeSteps (index : Nat) (reattached : Bool) (steps : List Step) :
    (typeSteps t document index reattached steps).IsHeeding IsCancelled := by
  induction steps generalizing index reattached with
  | nil => exact .pure fun ⟨_, h⟩ => nomatch h
  | cons step steps ih =>
    refine .bind (isHeeding_typeStep t document index step) ?_ fun r hr => ?_
    · rintro _ ⟨k, rfl⟩ memory
      exact ⟨_, rfl, k, rfl⟩
    · rcases r with e | again
      · exact .pure fun ⟨k, h⟩ => hr ⟨k, congrArg _ (Except.error.inj h)⟩
      · exact ih _ _

theorem isHeeding_typePlan (normalized : Text) (plan : Plan) :
    (typePlan t normalized plan document).IsHeeding IsCancelled := by
  intro memory
  refine .look rfl ⟨0, rfl⟩ ?_
  refine IsHeeding.bind_unstopped (isHeeding_ensureAttached document) (fun r => ?_) memory
  rcases r with e | _
  · exact .pure fun ⟨_, h⟩ => nomatch h
  · refine .bind (isHeeding_typeSteps t document 0 false plan.steps) ?_ fun r hr => ?_
    · rintro _ ⟨k, rfl⟩ memory
      exact ⟨_, rfl, k, rfl⟩
    · rcases r with e | reattached
      · exact .pure fun ⟨k, h⟩ => hr ⟨k, congrArg _ (Except.error.inj h)⟩
      · exact .pure fun ⟨_, h⟩ => nomatch h

theorem isHeeding_typeScript (repairs : Pipeline) (script : Text) :
    (typeScript t repairs script document).IsHeeding IsCancelled := by
  simp only [typeScript]
  split
  · exact .pure fun ⟨_, h⟩ => nomatch h
  · exact isHeeding_typePlan t document _ _

/-! ## Where a run ends -/

/-- A run of a plan is cancelled with exactly its first `k` steps typed: before it attached, or in
    the step behind them. -/
inductive CutAt (plan : Plan) (s : Session σ) : Nat → Session σ → Prop
  | start : s.desk.token.cancelled = true → CutAt plan s 0 s
  | step {k : Nat} {again : Bool} {s₁ sₖ s' : Session σ} (hk : k < plan.steps.length) :
    s.carryOut t.editor (ensureAttached document) = (.ok (), s₁) →
    s₁.carryOut t.editor (typeSteps t document 0 false (plan.steps.take k)) = (.ok again, sₖ) →
    sₖ.carryOut t.editor (typeStep t document k plan.steps[k]) = (.error (.cancelled k), s') →
    CutAt plan s k s'

theorem cutAt_of_typePlan {normalized : Text} {plan : Plan} {s s' : Session σ} {k : Nat}
    (h : s.carryOut t.editor (typePlan t normalized plan document) = (.error (.cancelled k), s')) :
    CutAt t document plan s k s' := by
  rw [carryOut_typePlan] at h
  split at h
  · next hc =>
    cases h
    exact .start hc
  · rcases h₁ : s.carryOut t.editor (ensureAttached document) with ⟨_ | _, s₁⟩
    · simp [h₁] at h
    · rw [h₁] at h
      rcases h₂ : s₁.carryOut t.editor (typeSteps t document 0 false plan.steps) with ⟨e | _, s₂⟩
      · simp only [h₂, Prod.mk.injEq, Except.error.injEq] at h
        obtain ⟨rfl, rfl⟩ := h
        obtain ⟨j, hj, again, sⱼ, htake, hend⟩ := carryOut_typeSteps_error h₂
        have hkj : k = 0 + j := by
          have := stepRun_typeStep t document (0 + j) plan.steps[j] sⱼ
          rw [hend] at this
          exact this.index_eq rfl
        rw [Nat.zero_add] at hkj hend
        subst hkj
        exact .step hj h₁ htake hend
      · simp [h₂] at h

end SessionAction

/-! ## Cancelling behind a call -/

/-- A run of a script, as it went. -/
structure Run (σ : Type) where
  turns : List Turn
  outcome : Except RunError RunReport
  /-- The session behind the run. -/
  session : Session σ

/-- Without (`whole`) and with (`cut`) a controller that cancels when the `n`-th call returns, a run
    that starts with `x` goes the same way until it is cut off. -/
structure CutBehind (e : Editor σ) (x : σ) (n : Nat) (whole cut : Run σ) : Prop where
  /-- The calls up to the `n`-th one are made, with the same answers. -/
  calls : callsOf cut.turns = (callsOf whole.turns).take n
  /-- Nothing else is asked for than before. -/
  requests : requestsOf cut.turns <+: requestsOf whole.turns
  /-- What the target is, before and after, is up to the requests. -/
  target : whole.session.desk.target = e.after (requestsOf whole.turns) x ∧
    cut.session.desk.target = e.after (requestsOf cut.turns) x
  /-- Without a look behind the call, the run ends as before. -/
  unnoticed : (∀ turn ∈ Turn.behindCalls n whole.turns, turn.isLook = false) →
    cut.outcome = whole.outcome ∧ cut.session.memory = whole.session.memory
  /-- A look behind the call ends the run as cancelled. -/
  noticed : (∃ turn ∈ Turn.behindCalls n whole.turns, turn.isLook = true) →
    ∃ k, cut.outcome = .error (.cancelled k)

namespace Session

/-- The session with another token. -/
def withToken (s : Session σ) (token : Token) : Session σ :=
  { s with desk := { s.desk with token } }

variable (t : Typist σ) (repairs : Pipeline) (script : Text) (document : Option Text)

/-- The run of a script in a session. -/
def observe (s : Session σ) : Run σ where
  turns := s.turns t.editor (SessionAction.typeScript t repairs script document)
  outcome := (s.run t repairs script document).1
  session := (s.run t repairs script document).2

/-- A run is cancelled only where its plan was cut. -/
theorem cutAt_of_run {s : Session σ} {k : Nat}
    (h : (s.run t repairs script document).1 = .error (.cancelled k)) :
    ∃ plan, Plan.ofScript (repairs.run script) = .ok plan ∧
      SessionAction.CutAt t document plan s k (s.run t repairs script document).2 := by
  revert h
  simp only [run, SessionAction.typeScript]
  split
  · nofun
  · next plan hplan =>
    exact fun h => ⟨plan, hplan, SessionAction.cutAt_of_typePlan t document (Prod.ext h rfl)⟩

/-- A controller that cancels when the `n`-th call returns cuts a run off behind that call. -/
theorem run_cutBehind (s : Session σ) (n : Nat) :
    let whole := (s.withToken {}).observe t repairs script document
    let cut := (s.withToken (Token.arm {} (.afterCalls n))).observe t repairs script document
    CutBehind t.editor s.desk.target n whole cut ∧
    ∀ k, cut.outcome = .error (.cancelled k) →
      ∃ plan, Plan.ofScript (repairs.run script) = .ok plan ∧
        SessionAction.CutAt t document plan (s.withToken (Token.arm {} (.afterCalls n))) k
          cut.session := by
  have hcut := (SessionAction.isHeeding_typeScript t document repairs script s.memory).cutsOff
    t.editor (o := ⟨s.desk.target, {}⟩) ⟨rfl, rfl⟩ n
  refine ⟨⟨hcut.callsOf_eq, hcut.requestsOf_prefix, ⟨target_carryOut .., target_carryOut ..⟩,
    fun h => ?_, hcut.stopped⟩, fun k h => cutAt_of_run t repairs script document h⟩
  have hresult := hcut.result_eq h
  exact ⟨(congrArg (·.1) hresult :), (congrArg (·.2) hresult :)⟩

end Session

end Scribe
