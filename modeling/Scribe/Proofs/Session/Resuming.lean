import Scribe.Proofs.Document.Faults
import Scribe.Proofs.Session.Steps

set_option autoImplicit false

/-! # Resuming a run

A document in memory that dies in the middle of a run comes back, as its calls left it, when the
session attaches again; the operation that was lost is then typed from its start. Main statement: a
run that reports success although its document died types every step, and only what the calls of the
lost attempt had done to the document is there beside it. If they had left the buffer as it was, the
run ends with the same text and the same state as without the fault. -/

namespace Scribe

variable {α : Type}

/-! ## Sessions on a document in memory -/

namespace Session

/-- The session without a cancellation, and with another fault in its document, or with none. -/
def facing (s : Session Document) (fault : Option Fault) : Session Document :=
  { s with desk := { s.desk with target := { s.desk.target with fault }, token := {} } }

/-- The session whose document dies after so many further calls. -/
def dying (s : Session Document) (n : Nat) : Session Document :=
  s.withTarget (s.desk.target.dying n)

/-- The document is calm, and nobody cancels. -/
structure IsCalm (s : Session Document) : Prop where
  target : s.desk.target.IsCalm
  token : s.desk.token = {}

/-- The same is remembered, and the documents are alike. -/
structure Alike (s s' : Session Document) : Prop where
  target : s.desk.target.Alike s'.desk.target
  token : s.desk.token = {}
  token' : s'.desk.token = {}
  memory : s.memory = s'.memory

variable {s s' : Session Document}

theorem Alike.refl (h : s.IsCalm) : s.Alike s := ⟨.refl h.target, h.token, h.token, rfl⟩

/-- An action goes the same way in alike sessions, and leaves them alike. -/
theorem Alike.carryOut (h : s.Alike s') (m : SessionAction α) :
    (s.carryOut (Document.editor {}) m).1 = (s'.carryOut (Document.editor {}) m).1 ∧
      (s.carryOut (Document.editor {}) m).2.Alike (s'.carryOut (Document.editor {}) m).2 := by
  have hs : s.outside = ⟨s.desk.target, {}⟩ := by rw [← h.token]; rfl
  have hs' : s'.outside = ⟨s'.desk.target, {}⟩ := by rw [← h.token']; rfl
  obtain ⟨hresult, htarget⟩ := h.target.hold (m.run s'.memory)
  have htoken (x : Document) : ((m.run s'.memory).hold (Document.editor {}) ⟨x, {}⟩).2.token = {} :=
    Dialogue.token_hold _ _ ⟨rfl, rfl⟩
  simp only [Session.carryOut, h.memory, hs, hs']
  exact ⟨congrArg (·.1) hresult, htarget, htoken _, htoken _, congrArg (·.2) hresult⟩

theorem IsCalm.carryOut (h : s.IsCalm) (m : SessionAction α) :
    (s.carryOut (Document.editor {}) m).2.IsCalm :=
  have h' := ((Alike.refl h).carryOut m).2
  ⟨h'.target.calm_left, h'.token⟩

end Session

namespace SessionAction

variable (settings : Settings) (convert : Text → Nat → Text)

/-! ## An attempt -/

/-- The document in the middle of an attempt, when so many of its requests were answered. -/
def midAttempt (step : Step) (m : Nat) (s : Session Document) : Document :=
  (Document.editor {}).after ((requestsOf (s.turns (Document.editor {})
    (attempt (Document.typist {} settings convert) step))).take m) s.desk.target

/-- The number of requests of an attempt. -/
def attemptLength (step : Step) (s : Session Document) : Nat :=
  (requestsOf (s.turns (Document.editor {})
    (attempt (Document.typist {} settings convert) step))).length

/-- An attempt in a session whose document dies either goes as in a calm one, or it is lost in the
    middle. -/
theorem attempt_dying {s : Session Document} (h : s.IsCalm) (step : Step) (n : Nat) :
    let e := Document.editor {}
    let m := attempt (Document.typist {} settings convert) step
    (attemptLength settings convert step s ≤ n ∧ (s.dying n).carryOut e m =
      ((s.carryOut e m).1, (s.carryOut e m).2.dying (n - attemptLength settings convert step s))) ∨
    (n < attemptLength settings convert step s ∧ (s.dying n).carryOut e m =
      (.error (.typing (.target .gone)),
        s.withTarget (midAttempt settings convert step n s).dead)) := by
  obtain ⟨⟨target, token, state⟩, attached, document⟩ := s
  obtain rfl : token = {} := h.token
  have htarget : target.IsCalm := h.target
  cases step with
  | error e => exact .inl ⟨Nat.zero_le n, rfl⟩
  | ok op =>
    have hd := Typing.IsDisciplined.operation (Document.typist {} settings convert) op state
    have state_dying : (Session.dying ⟨⟨target, {}, state⟩, attached, document⟩ n).desk.state =
      state := rfl
    have outside_dying : (Session.dying ⟨⟨target, {}, state⟩, attached, document⟩ n).outside =
      ⟨target.dying n, {}⟩ := rfl
    simp only [attemptLength, midAttempt, carryOut_attempt_ok, turns_attempt_ok, state_dying,
      outside_dying]
    rcases hd.hold_dying {} htarget n with ⟨hlen, hrun⟩ | ⟨hlen, state', hrun⟩
    · exact .inl ⟨hlen, by rw [hrun]; rfl⟩
    · obtain rfl := Typist.state_of_operation_gone _ op hrun rfl
      exact .inr ⟨hlen, by rw [hrun]; rfl⟩

/-! ## A step -/

/-- The session at a further attempt of a step: the document is as the requests before the `m`-th
    one of the lost attempt left it, and was attached to once more. -/
def resumed (step : Step) (m : Nat) (s : Session Document) : Session Document :=
  let doc := midAttempt settings convert step m s
  s.withTarget { doc with attachments := doc.attachments + 1 }

/-- A session is attached, and what it is asked to attach to is what it remembers. -/
structure IsOn (document : Option Text) (s : Session Document) : Prop where
  attached : s.attached = true
  document : document = none ∨ s.document = document

variable {document : Option Text} {s s' : Session Document}

theorem IsOn.attempt (h : IsOn document s) (t : Typist Document) (step : Step) :
    IsOn document (s.carryOut t.editor (attempt t step)).2 := by
  obtain ⟨state, hmemory, -⟩ := memory_attempt t t.editor step s
  have hattached := congrArg SessionMemory.attached hmemory
  have hdocument := congrArg SessionMemory.document hmemory
  exact ⟨hattached.trans h.attached, h.document.imp_right hdocument.trans⟩

/-- Attaching takes a fault out of the document. -/
theorem carryOut_attach_dying (document : Option Text) (s : Session Document) (n : Nat) :
    (s.dying n).carryOut (Document.editor {}) (attach document) =
      s.carryOut (Document.editor {}) (attach document) := by
  rw [carryOut_attach, carryOut_attach]
  rfl

/-- Attaching again brings a dead document back, and keeps the state. -/
theorem carryOut_attach_dead {doc : Document} (hdoc : doc.IsCalm) (h : IsOn document s)
    (hrun : (s.withTarget doc.dead).carryOut (Document.editor {}) (attach document) =
      (.ok (), s')) :
    s' = s.withTarget { doc with attachments := doc.attachments + 1 } := by
  have hmemory : attachedMemory document s.memory = s.memory := by
    obtain ⟨desk, attached, remembered⟩ := s
    obtain rfl : attached = true := h.attached
    rcases h.document with rfl | hd
    · rfl
    · obtain rfl : remembered = document := hd
      simp [attachedMemory, Session.memory]
  have hrevive : doc.dead.revive = doc := by
    obtain ⟨_, _, _, _, _, _, _, _, _⟩ := doc
    obtain ⟨rfl, rfl⟩ := hdoc
    rfl
  have hconnect : (Document.editor {}).connect document (s.withTarget doc.dead).desk.target = _ :=
    Document.connect_eq document doc.dead
  rw [hrevive] at hconnect
  rw [carryOut_attach] at hrun
  cases hname : document.filter (· != doc.dead.name) with
  | some name =>
    rw [hconnect, hname] at hrun
    cases hrun
  | none =>
    rw [hconnect, hname] at hrun
    cases hrun
    exact congrArg (Session.ofMemory · ⟨_, s.desk.token⟩) hmemory

theorem typeStep_dying (h : s.IsCalm) (hon : IsOn document s) {index n : Nat} {step : Step}
    {again : Bool} (hrun : (s.dying n).carryOut (Document.editor {})
      (typeStep (Document.typist {} settings convert) document index step) = (.ok again, s')) :
    let t := Document.typist {} settings convert
    (∃ n' s₁, s.carryOut t.editor (typeStep t document index step) = (.ok again, s₁) ∧
      s' = s₁.dying n' ∧ IsOn document s₁) ∨
    s.carryOut t.editor (typeStep t document index step) = (.ok again, s') ∨
    (again = true ∧ n < attemptLength settings convert step s ∧
      (resumed settings convert step n s).carryOut t.editor (attempt t step) = (.ok (), s')) := by
  intro t
  have hstep := stepRun_typeStep t document index step (s.dying n)
  rw [hrun] at hstep
  -- the step succeeded at once, or at the second attempt; the fault may have struck in the first
  rcases hstep.of_ok with ⟨rfl, hattempt⟩ | ⟨rfl, e, s₁, s₂, hattempt, he, hattach, hagain⟩
  · rcases attempt_dying settings convert h step n with ⟨_, hdying⟩ | ⟨_, hlost⟩
    · obtain ⟨hok, hs'⟩ := Prod.mk.inj (hattempt.symm.trans hdying)
      have hcalm : s.carryOut t.editor (attempt t step) = (.ok (), _) := Prod.ext hok.symm rfl
      exact .inl ⟨_, _, carryOut_typeStep_once hcalm, hs', hon.attempt t step⟩
    · cases congrArg Prod.fst (hattempt.symm.trans hlost)
  · rcases attempt_dying settings convert h step n with ⟨_, hdying⟩ | ⟨hlen, hlost⟩
    · -- the attempt is lost in a calm document too, and attaching takes the fault out
      obtain ⟨herror, hs₁⟩ := Prod.mk.inj (hattempt.symm.trans hdying)
      have hcalm : s.carryOut t.editor (attempt t step) = (.error (.typing e), _) :=
        Prod.ext herror.symm rfl
      rw [hs₁, carryOut_attach_dying] at hattach
      exact .inr (.inl (carryOut_typeStep_again hcalm he hattach hagain))
    · obtain ⟨-, rfl⟩ := Prod.mk.inj (hattempt.symm.trans hlost)
      have hmid : (midAttempt settings convert step n s).IsCalm := h.target.after _
      rw [carryOut_attach_dead hmid hon hattach] at hagain
      exact .inr (.inr ⟨rfl, hlen, hagain⟩)

/-! ## Steps -/

/-- Steps that were typed to their end, from `s` to `s'`, although the `k`-th of them was
    interrupted when `m` of its requests had been answered: the steps before it were typed as if
    nothing happened, and then, on the document as it was left, that step from its start and the
    rest. -/
structure Interrupted (document : Option Text) (index : Nat) (reattached : Bool) (steps : List Step)
    (s s' : Session Document) (k m : Nat) (step : Step) (before : Session Document) : Prop where
  isStep : steps[k]? = some step
  typed : ∃ again, s.carryOut (Document.editor {}) (typeSteps (Document.typist {} settings convert)
    document index reattached (steps.take k)) = (.ok again, before)
  interrupted : m < attemptLength settings convert step before
  resumes : ∃ again, (resumed settings convert step m before).carryOut (Document.editor {})
    (typeSteps (Document.typist {} settings convert) document (index + k) true (steps.drop k)) =
      (.ok again, s')

/-- The same text stands in the documents, with the same cursor, and typing goes on in the same
    state. -/
structure SameEnd (s s' : Session Document) : Prop where
  buffer : s.desk.target.buffer = s'.desk.target.buffer
  state : s.desk.state = s'.desk.state

/-- A step that is typed as if nothing happened may come first. -/
theorem Interrupted.cons {index k m : Nat} {reattached again : Bool} {steps : List Step}
    {first step : Step} {s₁ before : Session Document}
    (hfirst : s.carryOut (Document.typist {} settings convert).editor
      (typeStep (Document.typist {} settings convert) document index first) = (.ok again, s₁))
    (hk : Interrupted settings convert document (index + 1) (reattached || again) steps s₁ s' k m
      step before) :
    Interrupted settings convert document index reattached (first :: steps) s s' (k + 1) m step
      before where
  isStep := hk.isStep
  typed := by
    obtain ⟨last, htyped⟩ := hk.typed
    refine ⟨last, (carryOut_typeSteps_cons (t := Document.typist {} settings convert) ..).trans ?_⟩
    rw [hfirst]
    exact htyped
  interrupted := hk.interrupted
  resumes := by
    have hindex : index + (k + 1) = index + 1 + k := by omega
    rw [hindex]
    exact hk.resumes

theorem typeSteps_dying (h : s.IsCalm) (hon : IsOn document s) {index n : Nat}
    {reattached again : Bool} {steps : List Step}
    (hrun : (s.dying n).carryOut (Document.editor {})
      (typeSteps (Document.typist {} settings convert) document index reattached steps) =
      (.ok again, s')) :
    let t := Document.typist {} settings convert
    (∃ s₁, s.carryOut t.editor (typeSteps t document index reattached steps) = (.ok again, s₁) ∧
      SameEnd s' s₁) ∨
    ∃ k m step before,
      Interrupted settings convert document index reattached steps s s' k m step before := by
  intro t
  induction steps generalizing s n index reattached with
  | nil =>
    cases hrun
    exact .inl ⟨s, rfl, rfl, rfl⟩
  | cons step steps ih =>
    rw [carryOut_typeSteps_cons (t := t)] at hrun
    rcases hstep : (s.dying n).carryOut t.editor (typeStep t document index step) with ⟨_ | a, s₀⟩
    · rw [hstep] at hrun
      cases hrun
    rw [hstep] at hrun
    rcases typeStep_dying settings convert h hon hstep with
      ⟨n', s₁, hcalm, rfl, hon₁⟩ | hcalm | ⟨rfl, hlen, hagain⟩
    · have h₁ : s₁.IsCalm := by
        have := h.carryOut (typeStep t document index step)
        rwa [hcalm] at this
      rcases ih h₁ hon₁ hrun with ⟨s₂, hrest, hend⟩ | ⟨k, m, step', before, hk⟩
      · refine .inl ⟨s₂, ?_, hend⟩
        rw [carryOut_typeSteps_cons, hcalm]
        exact hrest
      · exact .inr ⟨k + 1, m, step', before, hk.cons settings convert hcalm⟩
    · refine .inl ⟨s', ?_, rfl, rfl⟩
      rw [carryOut_typeSteps_cons, hcalm]
      exact hrun
    · -- the second attempt is a first one on the document as the lost one left it
      refine .inr ⟨0, n, step, s, rfl, ⟨_, rfl⟩, hlen, again, ?_⟩
      have hfirst : (resumed settings convert step n s).carryOut t.editor
        (typeStep t document index step) = (.ok false, s₀) := carryOut_typeStep_once hagain
      simp only [Bool.or_true] at hrun
      show (resumed settings convert step n s).carryOut t.editor
        (typeSteps t document index true (step :: steps)) = _
      rw [carryOut_typeSteps_cons, hfirst]
      exact hrun

/-- An interruption that left the buffer as it was makes no difference in the end. -/
theorem Interrupted.sameEnd (h : s.IsCalm) {index k m : Nat} {reattached : Bool} {steps : List Step}
    {step : Step} {before : Session Document}
    (hk : Interrupted settings convert document index reattached steps s s' k m step before)
    (hbuffer : (midAttempt settings convert step m before).buffer = before.desk.target.buffer) :
    let t := Document.typist {} settings convert
    ∃ again s₁,
      s.carryOut t.editor (typeSteps t document index reattached steps) = (.ok again, s₁) ∧
      SameEnd s' s₁ := by
  intro t
  obtain ⟨again, htyped⟩ := hk.typed
  obtain ⟨again', hresumes⟩ := hk.resumes
  have hbefore : before.IsCalm := by
    have := h.carryOut (typeSteps t document index reattached (steps.take k))
    rwa [htyped] at this
  -- the buffer is the same, and no call changes the name or the fragments
  have halike : (resumed settings convert step m before).Alike before := by
    obtain ⟨hfragments, hname⟩ := hbefore.target.after_frame ((requestsOf _).take m)
    have hmid : (midAttempt settings convert step m before).IsCalm := hbefore.target.after _
    exact ⟨⟨⟨hmid.fault, hmid.disconnected⟩, hbefore.target, hbuffer, hfragments, hname⟩,
      hbefore.token, hbefore.token, rfl⟩
  obtain ⟨hanswer, hend⟩ := halike.carryOut (typeSteps t document (index + k) true (steps.drop k))
  rw [hresumes] at hanswer hend
  have hlength : (steps.take k).length = k := by
    obtain ⟨hlt, -⟩ := List.getElem?_eq_some_iff.1 hk.isStep
    exact List.length_take_of_le (Nat.le_of_lt hlt)
  have hall : s.carryOut t.editor (typeSteps t document index reattached
      (steps.take k ++ steps.drop k)) = _ := carryOut_typeSteps_append ..
  have hagain : before.carryOut t.editor (typeSteps t document (index + k) again (steps.drop k))
    = _ := carryOut_typeSteps_reattached ..
  rw [List.take_append_drop, htyped, hlength] at hall
  simp only at hall
  rw [carryOut_typeSteps_reattached (t := t)] at hanswer hend
  rcases hrest : before.carryOut t.editor
    (typeSteps t document (index + k) false (steps.drop k)) with ⟨_ | last, s₁⟩
  · rw [hrest] at hanswer
    cases hanswer
  · rw [hagain, hrest] at hall
    rw [hrest] at hend
    exact ⟨_, s₁, hall, hend.target.buffer, congrArg SessionMemory.state hend.memory⟩

/-! ## Attaching at the start -/

theorem carryOut_isHealthy (document : Option Text) (s : Session Document) :
    s.carryOut (Document.editor {}) (isHealthy document) =
      (s.attached && !s.desk.target.disconnected &&
        (document.isNone || document == some s.desk.target.name), s) := by
  obtain ⟨⟨⟨name, _, _, _, _, _, _, disconnected, _⟩, _, _⟩, attached, _⟩ := s
  cases attached <;> cases disconnected <;> rfl

/-- A session stays attached to a document that lives, whatever is planted in it, and attaching to
    one takes out what is planted in it. -/
theorem carryOut_ensureAttached_facing (document : Option Text) (s : Session Document) :
    ((∀ fault, (s.facing fault).carryOut (Document.editor {}) (ensureAttached document) =
        (.ok (), s.facing fault)) ∧
      s.attached = true ∧ s.desk.target.disconnected = false) ∨
    ∀ fault, (s.facing fault).carryOut (Document.editor {}) (ensureAttached document) =
      (s.facing none).carryOut (Document.editor {}) (ensureAttached document) := by
  have hensure (fault : Option Fault) :
      (s.facing fault).carryOut (Document.editor {}) (ensureAttached document) =
        if s.attached && !s.desk.target.disconnected &&
          (document.isNone || document == some s.desk.target.name) then (.ok (), s.facing fault)
        else (s.facing none).carryOut (Document.editor {}) (attach document) := by
    have hattach : (s.facing fault).carryOut (Document.editor {}) (attach document) =
        (s.facing none).carryOut (Document.editor {}) (attach document) := by
      rw [carryOut_attach, carryOut_attach]
      rfl
    rw [← hattach, ensureAttached, Session.carryOut_bind, carryOut_isHealthy]
    show (s.facing fault).carryOut (Document.editor {})
      (if s.attached && !s.desk.target.disconnected &&
        (document.isNone || document == some s.desk.target.name) then pure (.ok ())
      else attach document) = _
    split <;> rfl
  by_cases hhealthy : (s.attached && !s.desk.target.disconnected &&
    (document.isNone || document == some s.desk.target.name)) = true
  · refine .inl ⟨fun fault => (hensure fault).trans (if_pos hhealthy), ?_⟩
    simp only [Bool.and_eq_true, Bool.not_eq_true'] at hhealthy
    exact hhealthy.1
  · exact .inr fun fault => by rw [hensure, hensure, if_neg hhealthy, if_neg hhealthy]

end SessionAction

/-! ## Runs -/

namespace Session

/-- The run `lossy` ends as the run `whole` does, which reports success. -/
structure EndsAs (lossy whole : Except RunError RunReport × Session Document) : Prop where
  ok : whole.1.isOk
  sameEnd : SessionAction.SameEnd lossy.2 whole.2

/-- How a run in a session ends whose document dies after `n` further calls. -/
inductive Recovers (settings : Settings) (convert : Text → Nat → Text) (repairs : Pipeline)
    (script : Text) (document : Option Text) (s : Session Document) (n : Nat) : Prop
  /-- It ends as without the fault. -/
  | unharmed :
    EndsAs
      ((s.facing (some ⟨.disconnect, n⟩)).run (Document.typist {} settings convert) repairs script
        document)
      ((s.facing none).run (Document.typist {} settings convert) repairs script document) →
    Recovers settings convert repairs script document s n
  /-- One step was interrupted. It ends as without the fault if the interrupted attempt had left the
      buffer as it was. -/
  | interrupted {plan : Plan} {attached before : Session Document} {k m : Nat} {step : Step} :
    Plan.ofScript (repairs.run script) = .ok plan →
    (s.facing none).carryOut (Document.editor {}) (SessionAction.ensureAttached document) =
      (.ok (), attached) →
    SessionAction.Interrupted settings convert document 0 false plan.steps attached
      ((s.facing (some ⟨.disconnect, n⟩)).run (Document.typist {} settings convert) repairs script
        document).2 k m step before →
    ((SessionAction.midAttempt settings convert step m before).buffer =
        before.desk.target.buffer →
      EndsAs ((s.facing (some ⟨.disconnect, n⟩)).run (Document.typist {} settings convert) repairs
          script document)
        ((s.facing none).run (Document.typist {} settings convert) repairs script document)) →
    Recovers settings convert repairs script document s n

/-- A run that reports success although its document died has typed every step. What the calls of
    an interrupted step had done to the document remains in it, and nothing else is lost or
    repeated. -/
theorem recovers_of_isOk (settings : Settings) (convert : Text → Nat → Text) (repairs : Pipeline)
    (script : Text) (document : Option Text) (s : Session Document) (n : Nat)
    (hon : document = none ∨ ((s.facing none).carryOut (Document.editor {})
      (SessionAction.ensureAttached document)).2.document = document)
    (hok : ((s.facing (some ⟨.disconnect, n⟩)).run (Document.typist {} settings convert) repairs
      script document).1.isOk) :
    Recovers settings convert repairs script document s n := by
  let t := Document.typist {} settings convert
  cases hplan : Plan.ofScript (repairs.run script) with
  | error failure =>
    simp only [run, SessionAction.typeScript, hplan] at hok
    cases hok
  | ok plan =>
    have hrun (fault : Option Fault) : (s.facing fault).run t repairs script document =
        (s.facing fault).carryOut t.editor
          (SessionAction.typePlan t (repairs.run script) plan document) := by
      simp only [run, SessionAction.typeScript, hplan]
    have hends {s₁ s₂ : Session Document} {again : Bool}
        (hattach : (s.facing none).carryOut t.editor (SessionAction.ensureAttached document) =
          (.ok (), s₁))
        (hsteps : s₁.carryOut t.editor (SessionAction.typeSteps t document 0 false plan.steps) =
          (.ok again, s₂))
        {lossy : Except RunError RunReport × Session Document}
        (hend : SessionAction.SameEnd lossy.2 s₂) :
        EndsAs lossy ((s.facing none).run t repairs script document) := by
      obtain ⟨hwhole, rfl⟩ :=
        SessionAction.carryOut_typePlan_ok (repairs.run script) rfl hattach hsteps
      rw [hrun]
      exact ⟨hwhole, hend⟩
    rw [hrun] at hok
    obtain ⟨s₁, again, hattach, hsteps⟩ := SessionAction.carryOut_typePlan_of_isOk hok
    rw [← hrun] at hsteps
    rcases SessionAction.carryOut_ensureAttached_facing document s with
      ⟨hhealthy, hatt, hlives⟩ | hsame
    · obtain rfl : s.facing _ = s₁ := congrArg Prod.snd ((hhealthy _).symm.trans hattach)
      have hcalm : (s.facing none).IsCalm := ⟨⟨rfl, hlives⟩, rfl⟩
      rw [hhealthy] at hon
      rcases SessionAction.typeSteps_dying settings convert hcalm ⟨hatt, hon⟩ hsteps with
        ⟨s₂, htyped, hend⟩ | ⟨k, m, step, before, hk⟩
      · exact .unharmed (hends (hhealthy none) htyped hend)
      · refine .interrupted hplan (hhealthy none) hk fun hbuffer => ?_
        obtain ⟨_, s₂, htyped, hend⟩ := hk.sameEnd settings convert hcalm hbuffer
        exact hends (hhealthy none) htyped hend
    · -- the session had to attach first, which took the fault out
      exact .unharmed (hends ((hsame _).symm.trans hattach) hsteps ⟨rfl, rfl⟩)

/-- A session on a fresh document. -/
def onFreshDocument : Session Document :=
  { desk := { target := .withStandardFragments "doc.hwp".toList }, attached := true }

theorem recovers_paragraph :
    ((onFreshDocument.facing (some ⟨.disconnect, 1⟩)).run
      (Document.typist {} {} fun latex _ => latex) .full "insert_paragraph()".toList none).1.isOk ∧
    Recovers {} (fun latex _ => latex) .full "insert_paragraph()".toList none onFreshDocument 1 :=
  have hok : ((onFreshDocument.facing (some ⟨.disconnect, 1⟩)).run
      (Document.typist {} {} fun latex _ => latex) .full "insert_paragraph()".toList none).1.isOk :=
    by decide +kernel
  ⟨hok, recovers_of_isOk {} _ .full _ none onFreshDocument 1 (.inl rfl) hok⟩

/-- A paragraph that is interrupted behind its break has two breaks in the end. -/
theorem run_paragraph_interrupted :
    ((onFreshDocument.facing (some ⟨.disconnect, 1⟩)).run
      (Document.typist {} {} fun latex _ => latex) .full "insert_paragraph()".toList none).1.isOk ∧
    ((onFreshDocument.facing (some ⟨.disconnect, 1⟩)).run
      (Document.typist {} {} fun latex _ => latex) .full
        "insert_paragraph()".toList none).2.desk.target.buffer.text = "\n\n ".toList ∧
    ((onFreshDocument.facing none).run
      (Document.typist {} {} fun latex _ => latex) .full
        "insert_paragraph()".toList none).2.desk.target.buffer.text = "\n ".toList := by
  decide +kernel

end Session

end Scribe
