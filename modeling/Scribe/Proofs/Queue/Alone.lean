import Scribe.Proofs.Queue.Steps
import Scribe.Proofs.Typing.Dialogue

set_option autoImplicit false

/-! # The worker alone

When nobody else moves, the worker serves its queue as `TypingQueue.drain` does; a submission and a
cancellation that are not interrupted are those of `TypingQueue`. -/

namespace Scribe

variable {σ : Type} (t : Typist σ) (repairs : Pipeline)

/-- The event of a deed. -/
def Deed.event? : Deed → Option TypingEvent
  | .emitted _ event => some event
  | _ => none

/-- The events that were emitted, in order. -/
def eventsOf (log : List Deed) : List TypingEvent := log.filterMap Deed.event?

@[simp] theorem eventsOf_append (log log' : List Deed) :
    eventsOf (log ++ log') = eventsOf log ++ eventsOf log' := List.filterMap_append

@[simp] theorem eventsOf_emitted (n : Nat) (event : TypingEvent) :
    eventsOf [.emitted n event] = [event] := rfl

@[simp] theorem eventsOf_turned (n : Nat) (turn : Turn) : eventsOf [.turned n turn] = [] := rfl

namespace World

/-- The queue of the worker. -/
def queue (w : World σ) : TypingQueue σ := ⟨w.session, w.waiting.map (·.toQueued)⟩

/-- A submission that is not interrupted. -/
theorem queue_submit (w : World σ) (request : TypingRequest) :
    (w.play t repairs [.submit request, .enqueue w.issued]).queue = w.queue.submit request := by
  simp [play, move, submit, enqueue, queue, session, TypingQueue.submit, Session.ofMemory]

/-- A cancellation that is not interrupted. -/
theorem queue_cancel (w : World σ) :
    (w.play t repairs [.cancel, .trip w.begun]).queue = w.queue.cancel := by
  simp [play, move, cancel, trip, queue, session, TypingQueue.cancel, TypingQueue.updateToken,
    Session.ofMemory, Token.cancel]

/-- The worker makes some steps alone, and emits events. -/
def Alone (w : World σ) (events : List TypingEvent) (w' : World σ) : Prop :=
  ∃ n, w.play t repairs (.replicate n .work) = w' ∧ eventsOf w'.log = eventsOf w.log ++ events

variable {t repairs}

theorem Alone.refl (w : World σ) : Alone t repairs w [] w := ⟨0, rfl, (List.append_nil _).symm⟩

theorem Alone.trans {w w' w'' : World σ} {es es' : List TypingEvent} (h : Alone t repairs w es w')
    (h' : Alone t repairs w' es' w'') : Alone t repairs w (es ++ es') w'' := by
  obtain ⟨n, rfl, hes⟩ := h
  obtain ⟨m, rfl, hes'⟩ := h'
  refine ⟨n + m, ?_, by rw [hes', hes, List.append_assoc]⟩
  rw [← List.replicate_append_replicate, play, List.foldl_append]
  rfl

theorem Alone.work {w : World σ} {es : List TypingEvent}
    (h : eventsOf (w.work t repairs).log = eventsOf w.log ++ es) :
    Alone t repairs w es (w.work t repairs) := ⟨1, rfl, h⟩

/-- What the worker holds its dialogues with. -/
def outside (w : World σ) : Outside σ := ⟨w.target, w.token⟩

variable (t repairs) in
/-- The worker holds a dialogue to its end. -/
theorem exists_alone_of_typing {q : Ticket}
    (d : Dialogue (Except RunError RunReport × SessionMemory)) {w : World σ}
    (hphase : w.phase = .typing q d) (htoken : w.token.IsFree) :
    ∃ w', Alone t repairs w [.ofRun q.request.index (d.hold t.editor w.outside).1.1] w' ∧
      w'.phase = .idle ∧ w'.waiting = w.waiting ∧
      w'.session = .ofMemory (d.hold t.editor w.outside).1.2 (d.hold t.editor w.outside).2 := by
  -- Each turn of the dialogue is one step of the worker, and no step takes a waiting ticket.
  induction d generalizing w with
  | done r =>
    refine ⟨w.work t repairs, .work ?_, ?_⟩
    · simp [World.work, hphase, Dialogue.hold]
    · simp only [World.work, hphase]
      exact ⟨trivial, trivial, rfl⟩
  | look next ih =>
    have hphase' : (w.work t repairs).phase = .typing q (next w.token.cancelled) := by
      simp only [World.work, hphase]
    have houtside : (w.work t repairs).outside = w.outside := by
      simp only [World.work, hphase, outside]
    have hsteps : Alone t repairs w [] (w.work t repairs) := .work (by simp [World.work, hphase])
    have htoken' : (w.work t repairs).token = w.token := congrArg Outside.token houtside
    have hwaiting : (w.work t repairs).waiting = w.waiting := by simp only [World.work, hphase]
    obtain ⟨w', hrest, hw'⟩ := ih _ hphase' (htoken' ▸ htoken)
    rw [houtside] at hrest hw'
    exact ⟨w', hsteps.trans hrest, hwaiting ▸ hw'⟩
  | ask r next ih =>
    have hphase' : (w.work t repairs).phase = .typing q (next (t.editor.answer r w.target).1) := by
      simp only [World.work, hphase]
    have houtside : (w.work t repairs).outside = (w.outside.answer t.editor r).2 := by
      simp only [World.work, hphase, outside, Outside.answer, htoken.answered]
    have hsteps : Alone t repairs w [] (w.work t repairs) := .work (by simp [World.work, hphase])
    have htoken' : (w.work t repairs).token = w.token := by simp only [World.work, hphase]
    have hwaiting : (w.work t repairs).waiting = w.waiting := by simp only [World.work, hphase]
    obtain ⟨w', hrest, hw'⟩ := ih _ hphase' (htoken' ▸ htoken)
    rw [houtside] at hrest hw'
    exact ⟨w', hsteps.trans hrest, hwaiting ▸ hw'⟩

/-- The worker serves the front of its queue. -/
theorem exists_alone_of_serve {w : World σ} {q : Ticket} {waiting : List Ticket}
    (hphase : w.phase = .idle) (hwaiting : w.waiting = q :: waiting)
    (htoken : w.token.trigger = none) :
    ∃ w', Alone t repairs w (TypingQueue.serve t repairs q.toQueued w.session).1 w' ∧
      w'.phase = .idle ∧ w'.waiting = waiting ∧ w'.token.trigger = none ∧
      w'.session = (TypingQueue.serve t repairs q.toQueued w.session).2 := by
  by_cases hepoch : q.epoch = w.token.epoch
  · have hserve : TypingQueue.serve t repairs q.toQueued w.session =
        let r := (TypingQueue.updateToken .reset w.session).run t repairs q.request.script
          q.request.document
        ([.started q.request.index, .ofRun q.request.index r.1], r.2) :=
      if_pos hepoch
    -- taken, compared, cleared, compared once more, begun
    have hbegun : w.play t repairs (.replicate 5 .work) =
        { w with
          phase := .typing q ((SessionAction.typeScript t repairs q.request.script
            q.request.document).run w.memory)
          waiting
          token := w.token.reset
          log := w.log ++ [.emitted q.number (.started q.request.index)] } := by
      simp [play, move, World.work, hphase, hwaiting, hepoch, Token.reset, List.replicate]
    rw [hserve]
    obtain ⟨w₁, hw₁⟩ : ∃ w₁, w.play t repairs (.replicate 5 .work) = w₁ := ⟨_, rfl⟩
    have hsteps : Alone t repairs w [.started q.request.index] w₁ :=
      ⟨5, hw₁, by rw [← hw₁, hbegun]; simp⟩
    rw [hbegun] at hw₁
    have hfree : w₁.token.IsFree := hw₁ ▸ ⟨rfl, htoken⟩
    obtain ⟨w', hrest, hphase', hwaiting', hsession⟩ :=
      exists_alone_of_typing t repairs (q := q) _ (by rw [← hw₁]) hfree
    have htoken' : w'.token = w₁.token :=
      (congrArg (·.desk.token) hsession).trans (Dialogue.token_hold t.editor _ hfree)
    subst hw₁
    exact ⟨w', hsteps.trans hrest, hphase', hwaiting', htoken'.symm ▸ htoken, hsession⟩
  · have hserve : TypingQueue.serve t repairs q.toQueued w.session =
        ([.cancelled q.request.index 0], w.session) := if_neg hepoch
    have hdismissed : w.play t repairs (.replicate 3 .work) =
        { w with
          phase := .idle
          waiting
          log := w.log ++ [.emitted q.number (.cancelled q.request.index 0)] } := by
      simp [play, move, World.work, hphase, hwaiting, hepoch, List.replicate]
    rw [hserve]
    exact ⟨_, ⟨3, hdismissed, by simp⟩, rfl, rfl, htoken, rfl⟩

/-- The worker serves its whole queue. -/
theorem exists_alone_of_drain {w : World σ} (hphase : w.phase = .idle)
    (htoken : w.token.trigger = none) :
    ∃ w', Alone t repairs w (w.queue.drain t repairs).1 w' ∧ w'.phase = .idle ∧
      w'.queue = (w.queue.drain t repairs).2 := by
  obtain ⟨waiting, hwaiting⟩ : ∃ waiting, w.waiting = waiting := ⟨_, rfl⟩
  have hdrain : w.queue.drain t repairs =
      ((TypingQueue.serveAll t repairs (waiting.map (·.toQueued)) w.session).1,
        ⟨(TypingQueue.serveAll t repairs (waiting.map (·.toQueued)) w.session).2, []⟩) := by
    rw [← hwaiting]
    rfl
  rw [hdrain]
  clear hdrain
  -- the induction is on the queue; each request is served on the session that the last one left
  induction waiting generalizing w with
  | nil => exact ⟨w, .refl w, hphase, by simp [queue, hwaiting, TypingQueue.serveAll]⟩
  | cons q waiting ih =>
    obtain ⟨w₁, hserve, hphase₁, hwaiting₁, htoken₁, hsession₁⟩ :=
      exists_alone_of_serve hphase hwaiting htoken
    obtain ⟨w', hrest, hphase', hqueue⟩ := ih hphase₁ htoken₁ hwaiting₁
    rw [hsession₁] at hrest hqueue
    exact ⟨w', hserve.trans hrest, hphase', hqueue⟩

end World

end Scribe
