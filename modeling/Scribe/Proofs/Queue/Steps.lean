import Scribe.Queue.Worker

set_option autoImplicit false

/-! # Steps of the worker and its users

`World.Step` says all that a move can do, with one constructor for each atomic step. From it, what
every run keeps: each submission has a number of its own and is in one place only, and requests are
reported in the order in which they were entered. -/

namespace Scribe

variable {σ : Type} {t : Typist σ} {repairs : Pipeline}

/-! ## Phases -/

namespace Phase

theorem eq_idle_or_service (p : Phase) : p = .idle ∨ ∃ q, p.tickets = [q] := by
  cases p <;> simp

theorem tickets_eq_of_mem {p : Phase} {q : Ticket} (h : q ∈ p.tickets) : p.tickets = [q] := by
  rcases p.eq_idle_or_service with rfl | ⟨q', hq'⟩
  · cases h
  · rw [hq', List.mem_singleton] at h
    rw [hq', h]

end Phase

/-! ## All that can be done -/

namespace World

/-- All that a move can do to a world. -/
inductive Step (t : Typist σ) (repairs : Pipeline) (w : World σ) : World σ → Prop
  | submit (request : TypingRequest) : Step t repairs w (w.submit request)
  | enqueue {q : Ticket} : q ∈ w.submitting →
    Step t repairs w { w with
      waiting := w.waiting ++ [q]
      submitting := w.submitting.filter (·.number != q.number)
      log := w.log ++ [.enqueued q.number] }
  | bump : Step t repairs w w.cancel
  | trip {c : Nat} : c ∈ w.cancelling →
    Step t repairs w { w with
      token := w.token.trip
      cancelling := w.cancelling.filter (· != c)
      log := w.log ++ [.tripped c] }
  | take {q : Ticket} {waiting : List Ticket} : w.phase = .idle → w.waiting = q :: waiting →
    Step t repairs w { w with phase := .taken q, waiting }
  | accept {q : Ticket} : w.phase = .taken q → q.epoch = w.token.epoch →
    Step t repairs w { w with phase := .admitted q }
  | clear {q : Ticket} : w.phase = .admitted q →
    Step t repairs w { w with phase := .cleared q, token := w.token.reset }
  | grant {q : Ticket} : w.phase = .cleared q → q.epoch = w.token.epoch →
    Step t repairs w { w with phase := .granted q }
  | refuse {q : Ticket} : w.phase = .taken q ∨ w.phase = .cleared q → q.epoch ≠ w.token.epoch →
    Step t repairs w { w with phase := .refused q }
  | dismiss {q : Ticket} : w.phase = .refused q →
    Step t repairs w { w with
      phase := .idle
      log := w.log ++ [.emitted q.number (.cancelled q.request.index 0)] }
  | begin {q : Ticket} : w.phase = .granted q →
    Step t repairs w { w with
      phase := .typing q
        ((SessionAction.typeScript t repairs q.request.script q.request.document).run w.memory)
      log := w.log ++ [.emitted q.number (.started q.request.index)] }
  | look {q : Ticket} {next : Bool → Dialogue (Except RunError RunReport × SessionMemory)} :
    w.phase = .typing q (.look next) →
    Step t repairs w { w with
      phase := .typing q (next w.token.cancelled)
      log := w.log ++ [.turned q.number (.look w.token.cancelled)] }
  | ask {q : Ticket} {r : Request}
      {next : r.Answer → Dialogue (Except RunError RunReport × SessionMemory)} :
    w.phase = .typing q (.ask r next) →
    Step t repairs w { w with
      phase := .typing q (next (t.editor.answer r w.target).1)
      target := (t.editor.answer r w.target).2
      log := w.log ++ [.turned q.number (.ask r (t.editor.answer r w.target).1)] }
  | finish {q : Ticket} {result : Except RunError RunReport} {memory : SessionMemory} :
    w.phase = .typing q (.done (result, memory)) →
    Step t repairs w { w with
      phase := .idle
      memory
      log := w.log ++ [.emitted q.number (.ofRun q.request.index result)] }

theorem work_eq_or_step (w : World σ) :
    w.work t repairs = w ∨ Step t repairs w (w.work t repairs) := by
  unfold work
  split
  · next hidle =>
    split
    · exact .inl rfl
    · next hwaiting => exact .inr (.take hidle hwaiting)
  · next q htaken =>
    split
    · next heq => exact .inr (.accept htaken heq)
    · next hne => exact .inr (.refuse (.inl htaken) hne)
  · next hadmitted => exact .inr (.clear hadmitted)
  · next q hcleared =>
    split
    · next heq => exact .inr (.grant hcleared heq)
    · next hne => exact .inr (.refuse (.inr hcleared) hne)
  · next hrefused => exact .inr (.dismiss hrefused)
  · next hgranted => exact .inr (.begin hgranted)
  · next hdone => exact .inr (.finish hdone)
  · next hlook => exact .inr (.look hlook)
  · next hask => exact .inr (.ask hask)

theorem move_eq_or_step (w : World σ) (m : Move) :
    w.move t repairs m = w ∨ Step t repairs w (w.move t repairs m) := by
  cases m with
  | submit request => exact .inr (.submit request)
  | enqueue number =>
    simp only [move, enqueue]
    split
    · exact .inl rfl
    · next q hq =>
      have hnumber : q.number = number := by simpa using List.find?_some hq
      subst hnumber
      exact .inr (.enqueue (List.mem_of_find?_eq_some hq))
  | cancel => exact .inr .bump
  | trip c =>
    simp only [move, trip]
    split
    · next hc => exact .inr (.trip hc)
    · exact .inl rfl
  | work => exact w.work_eq_or_step

private theorem kept_move {P : World σ → Prop}
    (step : ∀ w w', Step t repairs w w' → P w → P w') {w : World σ} (h : P w) (m : Move) :
    P (w.move t repairs m) := by
  rcases w.move_eq_or_step m with heq | hstep
  · rw [heq]
    exact h
  · exact step _ _ hstep h

/-- What every step keeps, every run keeps. -/
theorem play_induction {P : World σ → Prop}
    (step : ∀ w w', Step t repairs w w' → P w → P w') {w : World σ} (h : P w)
    (moves : List Move) : P (w.play t repairs moves) := by
  induction moves generalizing w with
  | nil => exact h
  | cons m moves ih =>
    exact ih (kept_move step h m)

/-- What every step keeps holds all along a schedule. -/
theorem along_induction {P : World σ → Prop}
    (step : ∀ w w', Step t repairs w w' → P w → P w') {w : World σ} (h : P w)
    (schedule : Nat → Move) (n : Nat) : P (w.along t repairs schedule n) := by
  induction n with
  | zero => exact h
  | succ n ih => exact kept_move step ih _

end World

/-! ## What a log says -/

namespace Deed

/-- The request that was entered. -/
@[simp] def entry? : Deed → Option Nat
  | .enqueued n => some n
  | _ => none

/-- The request that was reported for good. -/
@[simp] def report? : Deed → Option Nat
  | .emitted n event => if event.isTerminal then some n else none
  | _ => none

/-- Did the worker do it for a request? -/
def serves (n : Nat) : Deed → Bool
  | .turned m _ | .emitted m _ => m == n
  | _ => false

end Deed

/-- The requests that were entered, in order. -/
def entered (log : List Deed) : List Nat := log.filterMap Deed.entry?

/-- The requests that were reported for good, in order. -/
def reported (log : List Deed) : List Nat := log.filterMap Deed.report?

/-- What the worker did for a request. -/
def serviceOf (n : Nat) (log : List Deed) : List Deed := log.filter (Deed.serves n)

@[simp] theorem entered_append (log log' : List Deed) :
    entered (log ++ log') = entered log ++ entered log' := List.filterMap_append

@[simp] theorem entered_single (d : Deed) : entered [d] = d.entry?.toList := by
  cases d <;> rfl

@[simp] theorem reported_append (log log' : List Deed) :
    reported (log ++ log') = reported log ++ reported log' := List.filterMap_append

@[simp] theorem reported_single (d : Deed) : reported [d] = d.report?.toList := by
  rcases d with _ | _ | _ | _ | _ | ⟨n, event⟩
  case emitted => cases h : event.isTerminal <;> simp [reported, h]
  all_goals rfl

@[simp] theorem TypingEvent.isTerminal_ofRun (index : Nat) (r : Except RunError RunReport) :
    (TypingEvent.ofRun index r).isTerminal = true := by
  rcases r with (_ | _ | _ | _) | _ <;> rfl

/-! ## Bookkeeping -/

namespace World

/-- The requests that were entered and not reported yet, in order. -/
def queued (w : World σ) : List Ticket := w.phase.tickets ++ w.waiting

/-- A step does at most one deed. -/
theorem Step.log_eq {w w' : World σ} (h : Step t repairs w w') :
    w'.log = w.log ∨ ∃ d, w'.log = w.log ++ [d] := by
  cases h <;> first | exact .inl rfl | exact .inr ⟨_, rfl⟩

theorem Step.mem_log {w w' : World σ} (h : Step t repairs w w') {d : Deed} (hd : d ∈ w'.log) :
    d ∈ w.log ∨ w'.log = w.log ++ [d] := by
  rcases h.log_eq with hlog | ⟨d', hlog⟩
  · exact .inl (hlog ▸ hd)
  · rcases List.mem_append.1 (hlog ▸ hd) with hd | hd
    · exact .inl hd
    · exact .inr (List.mem_singleton.1 hd ▸ hlog)

theorem Step.of_submitted {w w' : World σ} (h : Step t repairs w w') {n : Nat} {r : TypingRequest}
    (hlog : w'.log = w.log ++ [.submitted n r]) : n = w.issued ∧ w' = w.submit r := by
  cases h with
  | submit r' =>
    simp only [World.submit, List.append_cancel_left_eq, List.cons.injEq, Deed.submitted.injEq,
      and_true] at hlog
    obtain ⟨rfl, rfl⟩ := hlog
    exact ⟨rfl, rfl⟩
  | _ => simp [cancel] at hlog

/-- The submissions that are under way, wherever they are. -/
def tickets (w : World σ) : List Ticket := w.queued ++ w.submitting

theorem mem_tickets_of_phase {w : World σ} {q : Ticket} (h : q ∈ w.phase.tickets) :
    q ∈ w.tickets :=
  List.mem_append_left _ (List.mem_append_left _ h)

/-- A submission is new, or was under way before. -/
theorem Step.mem_tickets {w w' : World σ} (h : Step t repairs w w') {q : Ticket}
    (hq : q ∈ w'.tickets) :
    q ∈ w.tickets ∨ ∃ r, w' = w.submit r ∧
      q = { request := r, epoch := w.token.epoch, number := w.issued } := by
  simp only [tickets, World.queued, List.mem_append] at hq ⊢
  cases h with
  | submit r =>
    rcases hq with hq | hq
    · exact .inl (.inl hq)
    · rcases List.mem_cons.1 hq with rfl | hq
      · exact .inr ⟨r, rfl, rfl⟩
      · exact .inl (.inr hq)
  | @enqueue q' hq' =>
    rcases hq with (hq | hq) | hq
    · exact .inl (.inl (.inl hq))
    · rcases List.mem_append.1 hq with hq | hq
      · exact .inl (.inl (.inr hq))
      · exact .inl (.inr (List.mem_singleton.1 hq ▸ hq'))
    · exact .inl (.inr (List.mem_filter.1 hq |>.1))
  | take hidle hwaiting =>
    rw [hwaiting]
    simpa [hidle] using Or.inl hq
  | refuse hphase _ =>
    rcases hphase with hphase | hphase <;> exact .inl (by simpa [hphase] using hq)
  | bump => exact .inl hq
  | trip _ => exact .inl hq
  | accept htaken _ => exact .inl (by simpa [htaken] using hq)
  | clear hadmitted => exact .inl (by simpa [hadmitted] using hq)
  | grant hcleared _ => exact .inl (by simpa [hcleared] using hq)
  | begin hgranted => exact .inl (by simpa [hgranted] using hq)
  | look htyping => exact .inl (by simpa [htyping] using hq)
  | ask htyping => exact .inl (by simpa [htyping] using hq)
  | dismiss hrefused => exact .inl (.imp_left .inr (by simpa using hq))
  | finish hdone => exact .inl (.imp_left .inr (by simpa using hq))

/-- A new epoch is begun by a cancellation only. -/
theorem Step.epoch_eq {w w' : World σ} (h : Step t repairs w w') :
    w'.token.epoch = w.token.epoch ∨ w' = w.cancel := by
  cases h with
  | bump => exact .inr rfl
  | _ => exact .inl rfl

theorem Step.epoch_le {w w' : World σ} (h : Step t repairs w w') :
    w.token.epoch ≤ w'.token.epoch := by
  rcases h.epoch_eq with heq | rfl
  · exact Nat.le_of_eq heq.symm
  · exact Nat.le_succ _

/-- The books of a world agree. -/
structure Numbered (w : World σ) : Prop where
  /-- Requests are reported in the order in which they were entered. -/
  queue : entered w.log = reported w.log ++ w.queued.map (·.number)
  nodup : (entered w.log ++ w.submitting.map (·.number)).Nodup
  issued : ∀ n ∈ entered w.log ++ w.submitting.map (·.number), n < w.issued
  submitted : ∀ n r, .submitted n r ∈ w.log → n < w.issued

namespace Numbered

variable {w w' : World σ} (hw : w.Numbered)
include hw

/-- The worker changes the books only where it reports requests, from the front of the queue. -/
theorem report (done : List Ticket) (queued : w.queued = done ++ w'.queued)
    (reports : reported w'.log = reported w.log ++ done.map (·.number))
    (entries : entered w'.log = entered w.log)
    (submissions : ∀ n r, .submitted n r ∈ w'.log → .submitted n r ∈ w.log)
    (submitting : w'.submitting = w.submitting) (issued : w'.issued = w.issued) :
    w'.Numbered := by
  constructor
  · rw [entries, hw.queue, reports, queued, List.map_append, List.append_assoc]
  · rw [entries, submitting]
    exact hw.nodup
  · rw [entries, submitting, issued]
    exact hw.issued
  · rw [issued]
    intro n r h
    exact hw.submitted n r (submissions n r h)

/-- A step that neither enters nor reports a request. -/
theorem quiet (queued : w'.queued = w.queued) (reports : reported w'.log = reported w.log)
    (entries : entered w'.log = entered w.log)
    (submissions : ∀ n r, .submitted n r ∈ w'.log → .submitted n r ∈ w.log)
    (submitting : w'.submitting = w.submitting) (issued : w'.issued = w.issued) :
    w'.Numbered :=
  hw.report [] queued.symm (by simpa using reports) entries submissions submitting issued

theorem submit (r : TypingRequest) : (w.submit r).Numbered := by
  -- the number is new to the books
  have fresh : w.issued ∉ entered w.log ++ w.submitting.map (·.number) := fun h =>
    Nat.lt_irrefl _ (hw.issued _ h)
  constructor
  · simpa [World.submit, World.queued] using hw.queue
  · simpa [World.submit] using List.perm_middle.nodup_iff.2 (List.nodup_cons.2 ⟨fresh, hw.nodup⟩)
  · intro n hn
    have hn : n = w.issued ∨ n ∈ entered w.log ++ w.submitting.map (·.number) := by
      simp only [World.submit, entered_append, entered_single, Deed.entry?, Option.toList_none,
        List.append_nil, List.map_cons, List.mem_append, List.mem_cons] at hn ⊢
      exact or_left_comm.1 hn
    rcases hn with rfl | hn
    · exact Nat.lt_succ_self _
    · exact Nat.lt_succ_of_lt (hw.issued n hn)
  · intro n r' h
    rcases List.mem_append.1 h with h | h
    · exact Nat.lt_succ_of_lt (hw.submitted n r' h)
    · cases List.mem_singleton.1 h
      exact Nat.lt_succ_self _

theorem enqueue {q : Ticket} (hq : q ∈ w.submitting) :
    Numbered { w with
      waiting := w.waiting ++ [q]
      submitting := w.submitting.filter (·.number != q.number)
      log := w.log ++ [.enqueued q.number] } := by
  have hrest : ((w.submitting.filter (·.number != q.number)).map (·.number)).Sublist
      (w.submitting.map (·.number)) := List.filter_sublist.map _
  have fresh : q.number ∉ entered w.log := fun h =>
    (List.nodup_append.1 hw.nodup).2.2 _ h _ (List.mem_map_of_mem hq) rfl
  constructor
  · simp [hw.queue, World.queued]
  · simp only [entered_append, entered_single, Deed.entry?, Option.toList_some, List.append_assoc,
      List.singleton_append]
    refine List.perm_middle.nodup_iff.2 (List.nodup_cons.2 ⟨?_, ?_⟩)
    · simp [fresh]
    · exact hw.nodup.sublist (hrest.append_left _)
  · intro n hn
    refine hw.issued n ?_
    simp only [entered_append, entered_single, Deed.entry?, Option.toList_some, List.append_assoc,
      List.mem_append, List.mem_singleton] at hn ⊢
    rcases hn with hn | rfl | hn
    · exact .inl hn
    · exact .inr (List.mem_map_of_mem hq)
    · exact .inr (hrest.subset hn)
  · simpa using hw.submitted

theorem number_lt {q : Ticket} (hq : q ∈ w.tickets) : q.number < w.issued := by
  refine hw.issued _ ?_
  rw [hw.queue, List.append_assoc, ← List.map_append]
  exact List.mem_append_right _ (List.mem_map_of_mem hq)

/-- Requests are reported in the order in which they were entered, each at most once. -/
theorem reported_prefix : reported w.log <+: entered w.log ∧ (entered w.log).Nodup :=
  ⟨⟨_, hw.queue.symm⟩, (List.nodup_append.1 hw.nodup).1⟩

/-- A request in the queue is not reported yet. -/
theorem not_mem_reported {q : Ticket} (hq : q ∈ w.queued) : q.number ∉ reported w.log := by
  have h := (List.nodup_append.1 hw.nodup).1
  rw [hw.queue] at h
  intro hr
  exact (List.nodup_append.1 h).2.2 _ hr _ (List.mem_map_of_mem hq) rfl

end Numbered

theorem Step.numbered {w w' : World σ} (h : Step t repairs w w') (hw : w.Numbered) :
    w'.Numbered := by
  cases h with
  | submit r => exact hw.submit r
  | enqueue hq => exact hw.enqueue hq
  | bump => apply hw.quiet <;> simp [cancel, World.queued]
  | trip _ => apply hw.quiet <;> simp [World.queued]
  | take hidle hwaiting => apply hw.quiet <;> simp [World.queued, hidle, hwaiting]
  | accept htaken _ => apply hw.quiet <;> simp [World.queued, htaken]
  | clear hadmitted => apply hw.quiet <;> simp [World.queued, hadmitted]
  | grant hcleared _ => apply hw.quiet <;> simp [World.queued, hcleared]
  | refuse hphase _ =>
    rcases hphase with hphase | hphase <;> apply hw.quiet <;> simp [World.queued, hphase]
  | @dismiss q hrefused =>
    apply hw.report [q] <;> simp [World.queued, hrefused, TypingEvent.isTerminal]
  | begin hgranted => apply hw.quiet <;> simp [World.queued, hgranted, TypingEvent.isTerminal]
  | look htyping => apply hw.quiet <;> simp [World.queued, htyping]
  | ask htyping => apply hw.quiet <;> simp [World.queued, htyping]
  | @finish q _ _ hdone => apply hw.report [q] <;> simp [World.queued, hdone]

/-- The books agree with the submissions that are under way. -/
structure Sound (w : World σ) : Prop extends w.Numbered where
  /-- A submission has one request. -/
  request : ∀ q ∈ w.tickets, ∀ r, .submitted q.number r ∈ w.log → r = q.request
  epoch : ∀ q ∈ w.tickets, q.epoch ≤ w.token.epoch

theorem Step.sound {w w' : World σ} (h : Step t repairs w w') (hw : w.Sound) : w'.Sound where
  toNumbered := h.numbered hw.toNumbered
  request := by
    intro q hq r hr
    rcases h.mem_tickets hq with hold | ⟨r', rfl, rfl⟩
    · rcases h.mem_log hr with hr | hlog
      · exact hw.request q hold r hr
      · have hnumber := (h.of_submitted hlog).1
        exact absurd (hnumber ▸ hw.number_lt hold) (Nat.lt_irrefl _)
    · rcases List.mem_append.1 hr with hr | hr
      · exact absurd (hw.submitted _ _ hr) (Nat.lt_irrefl _)
      · cases List.mem_singleton.1 hr
        rfl
  epoch := by
    intro q hq
    rcases h.mem_tickets hq with hold | ⟨r, rfl, rfl⟩
    · exact Nat.le_trans (hw.epoch q hold) h.epoch_le
    · exact Nat.le_refl _

theorem sound_start (s : Session σ) : (start s).Sound where
  toNumbered := by constructor <;> simp [start, World.queued, entered, reported]
  request := by simp [start, tickets, World.queued]
  epoch := by simp [start, tickets, World.queued]

end World

end Scribe
