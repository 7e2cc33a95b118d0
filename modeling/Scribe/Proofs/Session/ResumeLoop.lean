import Mathlib.Data.List.Perm.Subperm
import Scribe.Proofs.Session.Steps

set_option autoImplicit false

/-! # The resume loop

The steps of a plan are attempted one after another. When an attempt loses the document, the session
attaches again and a new iteration resumes at the step that was lost, unless that step is the one
where it attached last. `Resumes` says this of all runs that come to an end, without a bound on
their iterations. Main statement: whatever the editor answers, every run comes to an end in one way
only, after at most one iteration more than there are steps; no step is attempted more than twice,
and none before the one that was resumed. -/

namespace Scribe

variable {σ : Type}

/-! ## The loop -/

/-- What happens in the resume loop. -/
inductive LoopEvent where
  /-- An iteration begins at a step. -/
  | enter (index : Nat)
  | attempt (index : Nat) (result : Except StepError Unit)
  /-- The session attaches again for a step. -/
  | reattach (index : Nat) (answer : Except TargetError Unit)

namespace LoopEvent

/-- The step that an event is about. -/
def index : LoopEvent → Nat
  | .enter index | .attempt index _ | .reattach index _ => index

/-- Does an iteration begin? -/
def isEnter : LoopEvent → Bool
  | .enter _ => true
  | _ => false

/-- Is a step attempted? -/
def attempts (k : Nat) : LoopEvent → Bool
  | .attempt index _ => index == k
  | _ => false

/-- The step for which the session attaches again. -/
def reattached? : LoopEvent → Option Nat
  | .reattach index _ => some index
  | _ => none

end LoopEvent

namespace SessionAction

variable (t : Typist σ) (document : Option Text) (steps : List Step)

/-- How the loop goes on at a step, given the step for which it attached last: what happens, and the
    answer and the session in the end. -/
inductive Resumes :
    Nat → Option Nat → Session σ → List LoopEvent → Except RunError Bool → Session σ → Prop
  | finish {index : Nat} {last : Option Nat} {s : Session σ} :
    steps[index]? = none → Resumes index last s [] (.ok last.isSome) s
  | pass {index : Nat} {last : Option Nat} {step : Step} {s s' s'' : Session σ}
      {events : List LoopEvent} {r : Except RunError Bool} :
    steps[index]? = some step → s.carryOut t.editor (attempt t step) = (.ok (), s') →
    Resumes (index + 1) last s' events r s'' →
    Resumes index last s (.attempt index (.ok ()) :: events) r s''
  | fail {index : Nat} {last : Option Nat} {step : Step} {s s' : Session σ} {e : StepError} :
    steps[index]? = some step → s.carryOut t.editor (attempt t step) = (.error e, s') →
    (e.isGone → last = some index) →
    Resumes index last s [.attempt index (.error e)] (.error (halt index step e)) s'
  | strand {index : Nat} {last : Option Nat} {step : Step} {s s' s'' : Session σ} {e : TypingError}
      {a : TargetError} :
    steps[index]? = some step → s.carryOut t.editor (attempt t step) = (.error (.typing e), s') →
    e.isGone → last ≠ some index → s'.carryOut t.editor (attach document) = (.error a, s'') →
    Resumes index last s [.attempt index (.error (.typing e)), .reattach index (.error a)]
      (.error (halt index step (.reattach e a))) s''
  | resume {index : Nat} {last : Option Nat} {step : Step} {s s' s'' s''' : Session σ}
      {e : TypingError} {events : List LoopEvent} {r : Except RunError Bool} :
    steps[index]? = some step → s.carryOut t.editor (attempt t step) = (.error (.typing e), s') →
    e.isGone → last ≠ some index → s'.carryOut t.editor (attach document) = (.ok (), s'') →
    Resumes index (some index) s'' events r s''' →
    Resumes index last s (.attempt index (.error (.typing e)) :: .reattach index (.ok ()) ::
      .enter index :: events) r s'''

variable {t document steps}

theorem halt_of_isGone {index : Nat} {step : Step} {e : StepError} (he : e.isGone) :
    halt index step e = .operationFailed (stepVerb step) index e := by
  rcases e with _ | (_ | _) | _ <;> first | rfl | cases he

/-! ## The loop ends in one way -/

/-- Steps that are typed from an index on are typed by the loop. -/
theorem exists_resumes (index : Nat) (last : Option Nat) (hlast : ∀ k ∈ last, k < index)
    (s : Session σ) :
    ∃ events, Resumes t document steps index last s events
      (s.carryOut t.editor (typeSteps t document index last.isSome (steps.drop index))).1
      (s.carryOut t.editor (typeSteps t document index last.isSome (steps.drop index))).2 := by
  generalize hrest : steps.drop index = rest
  induction rest generalizing index last s with
  | nil => exact ⟨[], .finish (List.getElem?_eq_none (List.drop_eq_nil_iff.1 hrest))⟩
  | cons step rest ih =>
    have hstep : steps[index]? = some step := by
      rw [← List.head?_drop, hrest]
      rfl
    have hnext : steps.drop (index + 1) = rest := by
      rw [← List.tail_drop, hrest]
      rfl
    have hne : last ≠ some index := fun h => absurd (hlast index h) (Nat.lt_irrefl _)
    rw [carryOut_typeSteps_cons]
    have hrun := stepRun_typeStep t document index step s
    generalize s.carryOut t.editor (typeStep t document index step) = answer at hrun
    obtain ⟨r, s'⟩ := answer
    -- Each way in which a step can end is a rule of the loop.
    cases hrun with
    | @once r _ hattempt hgone =>
      rcases r with e | _
      · exact ⟨_, .fail hstep hattempt fun h => absurd h (by simp [hgone e rfl])⟩
      · obtain ⟨events, h⟩ := ih (index + 1) last
          (fun k hk => Nat.lt_succ_of_lt (hlast k hk)) s' hnext
        simp only [Bool.or_false]
        exact ⟨_, .pass hstep hattempt h⟩
    | unattached hattempt he hattach => exact ⟨_, .strand hstep hattempt he hne hattach⟩
    | @again e r _ _ _ hattempt he hattach hagain =>
      rcases r with e' | _
      · exact ⟨_, .resume hstep hattempt he hne hattach (.fail hstep hagain fun _ => rfl)⟩
      · obtain ⟨events, h⟩ := ih (index + 1) (some index) (by simp) s' hnext
        simp only [Bool.or_true]
        exact ⟨_, .resume hstep hattempt he hne hattach (.pass hstep hagain h)⟩

namespace Resumes

variable {index : Nat} {last : Option Nat} {step : Step} {s s' s₁ s₂ : Session σ}
  {events events' : List LoopEvent} {r r' : Except RunError Bool}

theorem of_finish (h : Resumes t document steps index last s events r s')
    (hnone : steps[index]? = none) : events = [] ∧ r = .ok last.isSome ∧ s' = s := by
  cases h with
  | finish _ => exact ⟨rfl, rfl, rfl⟩
  | pass hstep _ _ | fail hstep _ _ | strand hstep _ _ _ _ | resume hstep _ _ _ _ _ =>
    rw [hnone] at hstep
    cases hstep

theorem of_pass (h : Resumes t document steps index last s events r s')
    (hstep : steps[index]? = some step)
    (hattempt : s.carryOut t.editor (attempt t step) = (.ok (), s₁)) :
    ∃ events', events = .attempt index (.ok ()) :: events' ∧
      Resumes t document steps (index + 1) last s₁ events' r s' := by
  cases h with
  | finish hnone => simp [hstep] at hnone
  | pass hstep' hattempt' h =>
    obtain rfl := Option.some.inj (hstep.symm.trans hstep')
    obtain ⟨-, rfl⟩ := Prod.mk.inj (hattempt.symm.trans hattempt')
    exact ⟨_, rfl, h⟩
  | fail hstep' hattempt' _ | strand hstep' hattempt' _ _ _ | resume hstep' hattempt' _ _ _ _ =>
    obtain rfl := Option.some.inj (hstep.symm.trans hstep')
    cases (Prod.mk.inj (hattempt.symm.trans hattempt')).1

theorem of_fail {e : StepError} (h : Resumes t document steps index last s events r s')
    (hstep : steps[index]? = some step)
    (hattempt : s.carryOut t.editor (attempt t step) = (.error e, s₁))
    (hgone : e.isGone → last = some index) :
    events = [.attempt index (.error e)] ∧ r = .error (halt index step e) ∧ s' = s₁ := by
  cases h with
  | finish hnone => simp [hstep] at hnone
  | pass hstep' hattempt' _ =>
    obtain rfl := Option.some.inj (hstep.symm.trans hstep')
    cases (Prod.mk.inj (hattempt.symm.trans hattempt')).1
  | fail hstep' hattempt' _ =>
    obtain rfl := Option.some.inj (hstep.symm.trans hstep')
    obtain ⟨herror, rfl⟩ := Prod.mk.inj (hattempt.symm.trans hattempt')
    obtain rfl := Except.error.inj herror
    exact ⟨rfl, rfl, rfl⟩
  | strand hstep' hattempt' he hne _ | resume hstep' hattempt' he hne _ _ =>
    obtain rfl := Option.some.inj (hstep.symm.trans hstep')
    obtain rfl := Except.error.inj (Prod.mk.inj (hattempt.symm.trans hattempt')).1
    exact absurd (hgone he) hne

theorem of_lost {e : TypingError} (h : Resumes t document steps index last s events r s')
    (hstep : steps[index]? = some step)
    (hattempt : s.carryOut t.editor (attempt t step) = (.error (.typing e), s₁))
    (he : e.isGone) (hne : last ≠ some index) :
    (∃ a, s₁.carryOut t.editor (attach document) = (.error a, s') ∧
      events = [.attempt index (.error (.typing e)), .reattach index (.error a)] ∧
      r = .error (halt index step (.reattach e a))) ∨
    ∃ s₂ events', s₁.carryOut t.editor (attach document) = (.ok (), s₂) ∧
      events = .attempt index (.error (.typing e)) :: .reattach index (.ok ()) :: .enter index ::
        events' ∧ Resumes t document steps index (some index) s₂ events' r s' := by
  cases h with
  | finish hnone => simp [hstep] at hnone
  | pass hstep' hattempt' _ =>
    obtain rfl := Option.some.inj (hstep.symm.trans hstep')
    cases (Prod.mk.inj (hattempt.symm.trans hattempt')).1
  | fail hstep' hattempt' hgone =>
    obtain rfl := Option.some.inj (hstep.symm.trans hstep')
    obtain rfl := Except.error.inj (Prod.mk.inj (hattempt.symm.trans hattempt')).1
    exact absurd (hgone he) hne
  | strand hstep' hattempt' _ _ hattach =>
    obtain rfl := Option.some.inj (hstep.symm.trans hstep')
    obtain ⟨herror, rfl⟩ := Prod.mk.inj (hattempt.symm.trans hattempt')
    obtain rfl := StepError.typing.inj (Except.error.inj herror)
    exact .inl ⟨_, hattach, rfl, rfl⟩
  | resume hstep' hattempt' _ _ hattach h =>
    obtain rfl := Option.some.inj (hstep.symm.trans hstep')
    obtain ⟨herror, rfl⟩ := Prod.mk.inj (hattempt.symm.trans hattempt')
    obtain rfl := StepError.typing.inj (Except.error.inj herror)
    exact .inr ⟨_, _, hattach, rfl, h⟩

/-- The loop has no choice. -/
theorem unique (h : Resumes t document steps index last s events r s₁)
    (h' : Resumes t document steps index last s events' r' s₂) :
    events' = events ∧ r' = r ∧ s₂ = s₁ := by
  induction h generalizing events' r' s₂ with
  | finish hnone => exact h'.of_finish hnone
  | pass hstep hattempt _ ih =>
    obtain ⟨_, rfl, hnext⟩ := h'.of_pass hstep hattempt
    obtain ⟨rfl, rfl, rfl⟩ := ih hnext
    exact ⟨rfl, rfl, rfl⟩
  | fail hstep hattempt hgone => exact h'.of_fail hstep hattempt hgone
  | strand hstep hattempt he hne hattach =>
    rcases h'.of_lost hstep hattempt he hne with ⟨_, hattach', rfl, rfl⟩ | ⟨_, _, hattach', -⟩
    · obtain ⟨herror, rfl⟩ := Prod.mk.inj (hattach.symm.trans hattach')
      obtain rfl := Except.error.inj herror
      exact ⟨rfl, rfl, rfl⟩
    · cases (Prod.mk.inj (hattach.symm.trans hattach')).1
  | resume hstep hattempt he hne hattach _ ih =>
    rcases h'.of_lost hstep hattempt he hne with ⟨_, hattach', -⟩ | ⟨_, _, hattach', rfl, hnext⟩
    · cases (Prod.mk.inj (hattach.symm.trans hattach')).1
    · obtain ⟨-, rfl⟩ := Prod.mk.inj (hattach.symm.trans hattach')
      obtain ⟨rfl, rfl, rfl⟩ := ih hnext
      exact ⟨rfl, rfl, rfl⟩

/-! ## What the loop touches -/

/-- Nothing happens at a step before the one that the loop goes on at. -/
theorem le_index (h : Resumes t document steps index last s events r s') :
    ∀ event ∈ events, index ≤ event.index := by
  induction h with
  | finish _ => simp
  | pass _ _ _ ih =>
    simp only [List.forall_mem_cons]
    exact ⟨Nat.le_refl _, fun event hevent => Nat.le_of_succ_le (ih event hevent)⟩
  | fail _ _ _ | strand _ _ _ _ _ => simp [LoopEvent.index]
  | resume _ _ _ _ _ _ ih =>
    simp only [List.forall_mem_cons]
    exact ⟨Nat.le_refl _, Nat.le_refl _, Nat.le_refl _, ih⟩

/-- What follows on attaching again is the loop as it goes on at that step, if it goes on. -/
theorem of_reattach {front back : List LoopEvent} {k : Nat} {answer : Except TargetError Unit}
    (h : Resumes t document steps index last s events r s')
    (hevents : events = front ++ .reattach k answer :: back) :
    (∃ a, answer = .error a ∧ back = []) ∨
    (answer = .ok () ∧ ∃ s'' events', back = .enter k :: events' ∧
      Resumes t document steps k (some k) s'' events' r s') := by
  -- The attachment is the one of the rule at hand, or lies in the events that follow it.
  induction h generalizing front with
  | finish _ => simp at hevents
  | pass _ _ _ ih =>
    rcases front with _ | ⟨_, front⟩
    · simp at hevents
    · exact ih (List.cons.inj hevents).2
  | fail _ _ _ =>
    rcases front with _ | ⟨_, front⟩ <;> simp at hevents
  | strand _ _ _ _ _ =>
    rcases front with _ | ⟨_, _ | ⟨_, front⟩⟩
    · simp at hevents
    · simp only [List.cons_append, List.nil_append, List.cons.injEq, LoopEvent.reattach.injEq]
        at hevents
      obtain ⟨-, ⟨-, rfl⟩, rfl⟩ := hevents
      exact .inl ⟨_, rfl, rfl⟩
    · simp at hevents
  | resume _ _ _ _ _ hnext ih =>
    rcases front with _ | ⟨_, _ | ⟨_, _ | ⟨_, front⟩⟩⟩
    · simp at hevents
    · simp only [List.cons_append, List.nil_append, List.cons.injEq, LoopEvent.reattach.injEq]
        at hevents
      obtain ⟨-, ⟨rfl, rfl⟩, rfl⟩ := hevents
      exact .inr ⟨rfl, _, _, rfl, hnext⟩
    · simp at hevents
    · simp only [List.cons_append, List.cons.injEq] at hevents
      exact ih hevents.2.2.2

/-! ## How often a step is attempted -/

theorem countP_attempts_of_lt {k : Nat} (h : Resumes t document steps index last s events r s')
    (hk : k < index) : events.countP (LoopEvent.attempts k) = 0 := by
  rw [List.countP_eq_zero]
  intro event hevent hattempts
  have hle := h.le_index event hevent
  cases event with
  | attempt i _ => exact absurd hle (Nat.not_le.2 ((beq_iff_eq.1 hattempts) ▸ hk))
  | enter _ | reattach _ _ => cases hattempts

/-- A step for which the session attached last is attempted once more. -/
theorem countP_attempts_last (h : Resumes t document steps index (some index) s events r s') :
    events.countP (LoopEvent.attempts index) ≤ 1 := by
  cases h with
  | finish _ => simp
  | pass _ _ hnext =>
    rw [List.countP_cons, hnext.countP_attempts_of_lt (Nat.lt_succ_self _)]
    simp [LoopEvent.attempts]
  | fail _ _ _ => simp [LoopEvent.attempts]
  | strand _ _ _ hne _ | resume _ _ _ hne _ _ => exact absurd rfl hne

theorem countP_attempts_le (h : Resumes t document steps index last s events r s') (k : Nat) :
    events.countP (LoopEvent.attempts k) ≤ 2 := by
  induction h with
  | finish _ => simp
  | @pass index _ _ _ _ _ _ _ _ _ hnext ih =>
    rw [List.countP_cons]
    by_cases hk : k = index
    · subst hk
      rw [hnext.countP_attempts_of_lt (Nat.lt_succ_self _)]
      simp [LoopEvent.attempts]
    · simpa [LoopEvent.attempts, Ne.symm hk] using ih
  | fail _ _ _ | strand _ _ _ _ _ =>
    simp only [List.countP_cons, LoopEvent.attempts, List.countP_nil, Bool.false_eq_true, if_false]
    grind
  | @resume index _ _ _ _ _ _ _ _ _ _ _ _ _ _ hnext ih =>
    simp only [List.countP_cons, LoopEvent.attempts, Bool.false_eq_true, if_false, Nat.add_zero]
    by_cases hk : k = index
    · subst hk
      have := hnext.countP_attempts_last
      simp
      omega
    · simpa [Ne.symm hk] using ih

/-! ## Where the session attaches again -/

/-- The session attaches again behind the step for which it attached last. -/
theorem last_lt_reattached (h : Resumes t document steps index last s events r s')
    (hlast : ∀ l ∈ last, l ≤ index) :
    ∀ k ∈ events.filterMap LoopEvent.reattached?, ∀ l ∈ last, l < k := by
  induction h with
  | finish _ => simp
  | fail _ _ _ => simp [LoopEvent.reattached?]
  | pass _ _ _ ih =>
    simp only [List.filterMap_cons, LoopEvent.reattached?]
    exact ih fun l hl => Nat.le_succ_of_le (hlast l hl)
  | strand _ _ _ hne _ =>
    simp only [List.filterMap_cons, LoopEvent.reattached?, List.filterMap_nil,
      List.mem_singleton, forall_eq]
    exact fun l hl => Nat.lt_of_le_of_ne (hlast l hl) fun h => hne (h ▸ hl)
  | resume _ _ _ hne _ _ ih =>
    simp only [List.filterMap_cons, LoopEvent.reattached?, List.forall_mem_cons]
    have hlt := fun l hl => Nat.lt_of_le_of_ne (hlast l hl) fun h => hne (h ▸ hl)
    exact ⟨hlt, fun k hk l hl =>
      Nat.lt_trans (hlt l hl) (ih (fun _ h => Nat.le_of_eq (Option.mem_some.1 h).symm) k hk _ rfl)⟩

theorem pairwise_reattached (h : Resumes t document steps index last s events r s') :
    (events.filterMap LoopEvent.reattached?).Pairwise (· < ·) := by
  induction h with
  | finish _ | fail _ _ _ => exact .nil
  | strand _ _ _ _ _ => exact List.pairwise_singleton _ _
  | pass _ _ _ ih => exact ih
  | resume _ _ _ _ _ hnext ih =>
    simp only [List.filterMap_cons, LoopEvent.reattached?, List.pairwise_cons]
    exact ⟨fun k hk => hnext.last_lt_reattached
      (fun _ h => Nat.le_of_eq (Option.mem_some.1 h).symm) k hk _ rfl, ih⟩

theorem reattached_lt_length (h : Resumes t document steps index last s events r s') :
    ∀ k ∈ events.filterMap LoopEvent.reattached?, k < steps.length := by
  induction h with
  | finish _ => simp
  | fail _ _ _ => simp [LoopEvent.reattached?]
  | pass _ _ _ ih => exact ih
  | strand hstep _ _ _ _ =>
    simpa [LoopEvent.reattached?] using (List.getElem?_eq_some_iff.1 hstep).1
  | resume hstep _ _ _ _ _ ih =>
    simp only [List.filterMap_cons, LoopEvent.reattached?, List.forall_mem_cons]
    exact ⟨(List.getElem?_eq_some_iff.1 hstep).1, ih⟩

/-- An iteration follows on attaching again, and only there. -/
theorem countP_isEnter_le_reattached (h : Resumes t document steps index last s events r s') :
    events.countP LoopEvent.isEnter ≤ (events.filterMap LoopEvent.reattached?).length := by
  induction h with
  | finish _ | fail _ _ _ | strand _ _ _ _ _ => simp [LoopEvent.isEnter]
  | pass _ _ _ ih => exact ih
  | resume _ _ _ _ _ _ ih =>
    simp only [List.countP_cons, LoopEvent.isEnter, List.filterMap_cons, LoopEvent.reattached?,
      List.length_cons, Bool.false_eq_true, if_false, if_true, Nat.add_zero]
    exact Nat.succ_le_succ ih

/-- The steps for which the session attaches again increase, so that they bound the iterations. -/
theorem countP_isEnter_le (h : Resumes t document steps index last s events r s') :
    events.countP LoopEvent.isEnter ≤ steps.length := by
  have hnodup : (events.filterMap LoopEvent.reattached?).Nodup :=
    h.pairwise_reattached.imp Nat.ne_of_lt
  have hrange : events.filterMap LoopEvent.reattached? ⊆ List.range steps.length :=
    fun k hk => List.mem_range.2 (h.reattached_lt_length k hk)
  calc events.countP LoopEvent.isEnter
      ≤ (events.filterMap LoopEvent.reattached?).length := h.countP_isEnter_le_reattached
    _ ≤ (List.range steps.length).length := (List.subperm_of_subset hnodup hrange).length_le
    _ = steps.length := List.length_range

/-! ## The second loss -/

/-- A step that loses the document again, behind attaching for it, ends the run. -/
theorem of_lost_again {e : StepError}
    (h : Resumes t document steps index (some index) s events r s')
    (hevent : .attempt index (.error e) ∈ events) (he : e.isGone) :
    ∃ step, steps[index]? = some step ∧
      r = .error (.operationFailed (stepVerb step) index e) := by
  cases h with
  | finish _ => simp at hevent
  | pass _ _ hnext =>
    simp only [List.mem_cons, LoopEvent.attempt.injEq, reduceCtorEq, and_false, false_or] at hevent
    exact absurd (hnext.le_index _ hevent) (Nat.not_succ_le_self _)
  | fail hstep _ _ =>
    obtain rfl : _ = _ := by simpa using hevent
    exact ⟨_, hstep, by rw [halt_of_isGone he]⟩
  | strand _ _ _ hne _ | resume _ _ _ hne _ _ => exact absurd rfl hne

end Resumes

/-! ## Runs -/

/-- What a run keeps to whose events and answer are these. -/
structure IsOrderly {α : Type} (steps : List Step) (events : List LoopEvent)
    (r : Except RunError α) : Prop where
  attempts_le : ∀ k, events.countP (LoopEvent.attempts k) ≤ 2
  reattached_lt : (events.filterMap LoopEvent.reattached?).Pairwise (· < ·)
  onward : ∀ front k answer back, events = front ++ .reattach k answer :: back →
    ∀ event ∈ back, k ≤ event.index
  iterations_le : events.countP LoopEvent.isEnter ≤ steps.length + 1
  lost_again : ∀ front k back e, events = front ++ .reattach k (.ok ()) :: back →
    .attempt k (.error e) ∈ back → e.isGone →
    ∃ step, steps[k]? = some step ∧ r = .error (.operationFailed (stepVerb step) k e)

theorem IsOrderly.nil {α : Type} (steps : List Step) (r : Except RunError α) :
    IsOrderly steps [] r where
  attempts_le := by simp
  reattached_lt := .nil
  onward := by simp
  iterations_le := Nat.zero_le _
  lost_again := by simp

theorem Resumes.isOrderly {α : Type} {s s' : Session σ} {events : List LoopEvent}
    {r : Except RunError Bool} (h : Resumes t document steps 0 none s events r s')
    (f : Bool → α) : IsOrderly steps (.enter 0 :: events) (r.map f) where
  attempts_le k := by simpa [LoopEvent.attempts] using h.countP_attempts_le k
  reattached_lt := h.pairwise_reattached
  onward front k answer back hevents := by
    rcases front with _ | ⟨_, front⟩
    · simp at hevents
    · rcases h.of_reattach (List.cons.inj hevents).2 with
        ⟨_, -, rfl⟩ | ⟨-, _, _, rfl, hnext⟩
      · simp
      · exact List.forall_mem_cons.2 ⟨Nat.le_refl _, hnext.le_index⟩
  iterations_le := by
    rw [List.countP_cons_of_pos rfl]
    exact Nat.succ_le_succ h.countP_isEnter_le
  lost_again front k back e hevents hlost he := by
    rcases front with _ | ⟨_, front⟩
    · simp at hevents
    · rcases h.of_reattach (List.cons.inj hevents).2 with
        ⟨_, hanswer, -⟩ | ⟨-, _, _, rfl, hnext⟩
      · cases hanswer
      · obtain ⟨step, hstep, rfl⟩ := hnext.of_lost_again (by simpa using hlost) he
        exact ⟨step, hstep, rfl⟩

variable (t) in
/-- How a plan is typed: what happens, and the answer and the session in the end. -/
inductive RunGoes (normalized : Text) (plan : Plan) (document : Option Text) (s : Session σ) :
    List LoopEvent → Except RunError RunReport → Session σ → Prop
  | cancelled : s.desk.token.cancelled →
    RunGoes normalized plan document s [] (.error (.cancelled 0)) s
  | unattached {e : TargetError} {s' : Session σ} : s.desk.token.cancelled = false →
    s.carryOut t.editor (ensureAttached document) = (.error e, s') →
    RunGoes normalized plan document s [] (.error (.attach e)) s'
  | looped {s' s'' : Session σ} {events : List LoopEvent} {r : Except RunError Bool} :
    s.desk.token.cancelled = false →
    s.carryOut t.editor (ensureAttached document) = (.ok (), s') →
    Resumes t document plan.steps 0 none s' events r s'' →
    RunGoes normalized plan document s (.enter 0 :: events)
      (r.map fun reattached =>
        { tier := plan.tier, applied := plan.steps.length, reattached, normalized }) s''

namespace RunGoes

variable {normalized : Text} {plan : Plan} {s s₁ s₂ : Session σ} {events events' : List LoopEvent}
  {r r' : Except RunError RunReport}

theorem isOrderly (h : RunGoes t normalized plan document s events r s₁) :
    IsOrderly plan.steps events r := by
  cases h with
  | cancelled _ | unattached _ _ => exact .nil _ _
  | looped _ _ hloop => exact hloop.isOrderly _

theorem unique (h : RunGoes t normalized plan document s events r s₁)
    (h' : RunGoes t normalized plan document s events' r' s₂) :
    events' = events ∧ r' = r ∧ s₂ = s₁ := by
  cases h with
  | cancelled htoken =>
    cases h' with
    | cancelled _ => exact ⟨rfl, rfl, rfl⟩
    | unattached htoken' _ | looped htoken' _ _ => simp [htoken] at htoken'
  | unattached htoken hattach =>
    cases h' with
    | cancelled htoken' => simp [htoken] at htoken'
    | unattached _ hattach' =>
      obtain ⟨herror, rfl⟩ := Prod.mk.inj (hattach.symm.trans hattach')
      obtain rfl := Except.error.inj herror
      exact ⟨rfl, rfl, rfl⟩
    | looped _ hattach' _ => cases (Prod.mk.inj (hattach.symm.trans hattach')).1
  | looped htoken hattach hloop =>
    cases h' with
    | cancelled htoken' => simp [htoken] at htoken'
    | unattached _ hattach' => cases (Prod.mk.inj (hattach.symm.trans hattach')).1
    | looped _ hattach' hloop' =>
      obtain ⟨-, rfl⟩ := Prod.mk.inj (hattach.symm.trans hattach')
      obtain ⟨rfl, rfl, rfl⟩ := hloop.unique hloop'
      exact ⟨rfl, rfl, rfl⟩

end RunGoes

/-- Typing a plan goes the way of the resume loop. -/
theorem exists_runGoes (normalized : Text) (plan : Plan) (document : Option Text) (s : Session σ) :
    ∃ events, RunGoes t normalized plan document s events
      (s.carryOut t.editor (typePlan t normalized plan document)).1
      (s.carryOut t.editor (typePlan t normalized plan document)).2 := by
  rw [carryOut_typePlan]
  cases htoken : s.desk.token.cancelled with
  | true => exact ⟨[], .cancelled htoken⟩
  | false =>
    rw [if_neg Bool.false_ne_true]
    rcases hattach : s.carryOut t.editor (ensureAttached document) with ⟨e | _, s'⟩
    · exact ⟨[], .unattached htoken hattach⟩
    · obtain ⟨events, hloop⟩ : ∃ events, Resumes t document plan.steps 0 none s' events _ _ :=
        exists_resumes 0 none nofun s'
      refine ⟨.enter 0 :: events, ?_⟩
      have h : RunGoes t normalized plan document s (.enter 0 :: events) _ _ :=
        .looped htoken hattach hloop
      simp only [List.drop_zero, Option.isSome_none] at h ⊢
      rcases hsteps : s'.carryOut t.editor (typeSteps t document 0 false plan.steps)
        with ⟨_ | _, s''⟩ <;>
      · rw [hsteps] at h
        exact h

end SessionAction

namespace Session

/-- A script that can be read is typed by the resume loop, which comes to an end in one way,
    whatever the target and its connection answer: it attempts no step more than twice, the steps
    for which it attaches again increase, it never goes back before one of them, it takes at most
    one iteration more than there are steps, and a second loss at a step is a failure of that
    step. -/
theorem run_resumes_in_order (t : Typist σ) (repairs : Pipeline) (script : Text)
    (document : Option Text) (s : Session σ) :
    (∃ failure, Plan.ofScript (repairs.run script) = .error failure ∧
      s.run t repairs script document = (.error (.unparseable failure), s)) ∨
    ∃ plan events, Plan.ofScript (repairs.run script) = .ok plan ∧
      SessionAction.RunGoes t (repairs.run script) plan document s events
        (s.run t repairs script document).1 (s.run t repairs script document).2 ∧
      (∀ events' r s', SessionAction.RunGoes t (repairs.run script) plan document s events' r s' →
        events' = events ∧ s.run t repairs script document = (r, s')) ∧
      SessionAction.IsOrderly plan.steps events (s.run t repairs script document).1 := by
  cases hplan : Plan.ofScript (repairs.run script) with
  | error failure =>
    simp only [run, SessionAction.typeScript, hplan]
    exact .inl ⟨failure, rfl, rfl⟩
  | ok plan =>
    simp only [run, SessionAction.typeScript, hplan]
    obtain ⟨events, h⟩ := SessionAction.exists_runGoes (t := t) (repairs.run script) plan document s
    refine .inr ⟨plan, events, rfl, h, fun events' r s' h' => ?_, h.isOrderly⟩
    obtain ⟨rfl, rfl, rfl⟩ := h.unique h'
    exact ⟨rfl, rfl⟩

end Session

end Scribe
