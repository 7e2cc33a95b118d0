import Scribe.Proofs.Queue.Service
import Scribe.Proofs.Session.Cancellation

set_option autoImplicit false

/-! # Cancellations and requests

A request whose epoch was read before a cancellation began is overtaken when the cancellation has
returned: it is never granted any more, or it is being typed with the flag set, so no look of its
dialogue goes unheeded. A request that was submitted while no cancellation was on its way is not
cancelled unless another one begins. -/

namespace Scribe

variable {σ : Type} {t : Typist σ} {repairs : Pipeline}

/-- A cancellation began behind the submission of a request, and has returned. -/
def Overtaken (n : Nat) (past : List Deed) : Prop :=
  ∃ r c, [.submitted n r, .bumped c, .tripped c].Sublist past

theorem Overtaken.mono {n : Nat} {past log : List Deed} (h : Overtaken n past)
    (hsub : past.Sublist log) : Overtaken n log := by
  obtain ⟨r, c, h⟩ := h
  exact ⟨r, c, h.trans hsub⟩

/-- The request that was granted, or is being typed. -/
@[simp] def Phase.begun? : Phase → Option Ticket
  | .granted q | .typing q _ => some q
  | _ => none

theorem Phase.mem_tickets_of_begun? {p : Phase} {q : Ticket} (h : p.begun? = some q) :
    q ∈ p.tickets := by
  cases p <;> simp_all

/-! ## Growing logs -/

/-- What comes in a given order in a log that grew by one deed. -/
theorem sublist_concat {l log : List Deed} {a d : Deed} (h : (l ++ [a]).Sublist (log ++ [d])) :
    (l ++ [a]).Sublist log ∨ (l.Sublist log ∧ a = d) := by
  rw [← List.reverse_sublist] at h
  simp only [List.reverse_append, List.reverse_singleton, List.singleton_append] at h
  cases h with
  | cons _ h => exact .inl (by rwa [← List.reverse_sublist, List.reverse_append])
  | cons_cons _ h => exact .inr ⟨List.reverse_sublist.1 h, rfl⟩

/-- A point in a log that grew by one deed is the end of it, or was a point before. -/
theorem append_eq_concat {log past future : List Deed} {d : Deed}
    (h : log ++ [d] = past ++ future) :
    future = [] ∨ ∃ before, future = before ++ [d] ∧ log = past ++ before := by
  rcases List.eq_nil_or_concat future with rfl | ⟨before, d', rfl⟩
  · exact .inl rfl
  · rw [List.concat_eq_append, ← List.append_assoc] at h
    obtain ⟨hlog, hd⟩ := List.append_singleton_inj.1 h
    exact .inr ⟨before, by rw [List.concat_eq_append, hd], hlog⟩

namespace World

/-! ## Overtaken requests -/

/-- No cancellation is overlooked. -/
structure Heeded (w : World σ) : Prop where
  stale : ∀ n r c, [.submitted n r, .bumped c].Sublist w.log →
    ∀ q ∈ w.tickets, q.number = n → q.epoch < w.token.epoch
  doomed : ∀ n, Overtaken n w.log → ∀ q, w.phase.begun? = some q → q.number = n →
    w.token.cancelled = true
  stopped : ∀ past future n, w.log = past ++ future → Overtaken n past →
    .turned n (.look false) ∉ future

/-- What comes in a given order in a log came so before, or the step did the last of it. -/
theorem Step.sublist_log {w w' : World σ} (h : Step t repairs w w') {l : List Deed} {a : Deed}
    (hsub : (l ++ [a]).Sublist w'.log) : (l ++ [a]).Sublist w.log ∨ w'.log = w.log ++ [a] := by
  rcases h.log_eq with hlog | ⟨d, hlog⟩
  · exact .inl (hlog ▸ hsub)
  · rcases sublist_concat (hlog ▸ hsub) with hsub | ⟨-, rfl⟩
    · exact .inl hsub
    · exact .inr hlog

theorem Step.of_bumped {w w' : World σ} (h : Step t repairs w w') {c : Nat}
    (hlog : w'.log = w.log ++ [.bumped c]) : w' = w.cancel := by
  cases h with
  | bump => rfl
  | _ => simp [World.submit] at hlog

theorem Step.of_tripped {w w' : World σ} (h : Step t repairs w w') {c : Nat}
    (hlog : w'.log = w.log ++ [.tripped c]) : w'.token.cancelled = true := by
  cases h with
  | trip _ => rfl
  | _ => simp [World.submit, cancel] at hlog

theorem Step.of_look {w w' : World σ} (h : Step t repairs w w') {n : Nat} {seen : Bool}
    (hlog : w'.log = w.log ++ [.turned n (.look seen)]) :
    ∃ q next, w.phase = .typing q (.look next) ∧ q.number = n ∧ seen = w.token.cancelled := by
  cases h with
  | @look q next htyping =>
    simp only [List.append_cancel_left_eq, List.cons.injEq, Deed.turned.injEq, Turn.look.injEq,
      and_true] at hlog
    exact ⟨q, next, htyping, hlog.1, hlog.2.symm⟩
  | _ => simp [World.submit, cancel] at hlog

/-- A request is granted when its epoch is the current one; from then on the flag is not cleared. -/
theorem Step.of_begun {w w' : World σ} (h : Step t repairs w w') {q : Ticket}
    (hq : w'.phase.begun? = some q) :
    (w.phase.begun? = some q ∧ (w.token.cancelled = true → w'.token.cancelled = true)) ∨
    (w.phase = .cleared q ∧ q.epoch = w.token.epoch) := by
  cases h with
  | grant hcleared heq =>
    cases hq
    exact .inr ⟨hcleared, heq⟩
  | begin hgranted =>
    cases hq
    exact .inl ⟨by rw [hgranted]; rfl, id⟩
  | look htyping =>
    cases hq
    exact .inl ⟨by rw [htyping]; rfl, id⟩
  | ask htyping =>
    cases hq
    exact .inl ⟨by rw [htyping]; rfl, id⟩
  | submit _ => exact .inl ⟨hq, id⟩
  | enqueue _ => exact .inl ⟨hq, id⟩
  | bump => exact .inl ⟨hq, id⟩
  | trip _ => exact .inl ⟨hq, fun _ => rfl⟩
  | _ => cases hq

/-- A request that was submitted before a cancellation began has an older epoch. -/
theorem Step.stale {w w' : World σ} (h : Step t repairs w w') (hw : w.Sound) (hh : w.Heeded)
    {n : Nat} {r : TypingRequest} {c : Nat}
    (hsub : [.submitted n r, .bumped c].Sublist w'.log) {q : Ticket} (hq : q ∈ w'.tickets)
    (hn : q.number = n) : q.epoch < w'.token.epoch := by
  rcases h.sublist_log (l := [.submitted n r]) hsub with hsub | hlog
  · rcases h.mem_tickets hq with hold | ⟨_, -, rfl⟩
    · exact Nat.lt_of_lt_of_le (hh.stale n r c hsub q hold hn) h.epoch_le
    · have := hw.submitted n r (hsub.subset List.mem_cons_self)
      exact absurd (hn ▸ this) (Nat.lt_irrefl _)
  · -- the step began the cancellation: whatever is under way has at most the epoch from before
    obtain rfl := h.of_bumped hlog
    exact Nat.lt_succ_of_le (hw.epoch q hq)

theorem Step.doomed {w w' : World σ} (h : Step t repairs w w') (hh : w.Heeded) {n : Nat}
    (hover : Overtaken n w'.log) {q : Ticket} (hq : w'.phase.begun? = some q) (hn : q.number = n) :
    w'.token.cancelled = true := by
  obtain ⟨r, c, hsub⟩ := hover
  rcases h.sublist_log (l := [.submitted n r, .bumped c]) hsub with hsub | hlog
  · rcases h.of_begun hq with ⟨hbegun, hkept⟩ | ⟨hcleared, hepoch⟩
    · exact hkept (hh.doomed n ⟨r, c, hsub⟩ q hbegun hn)
    · -- the second comparison keeps a stale request from being granted behind the clearing
      have hstale : [.submitted n r, .bumped c].Sublist w.log := .trans (by simp) hsub
      have hq : q ∈ w.tickets := mem_tickets_of_phase (by simp [hcleared])
      exact absurd hepoch (Nat.ne_of_lt (hh.stale n r c hstale q hq hn))
  · exact h.of_tripped hlog

theorem Step.stopped {w w' : World σ} (h : Step t repairs w w') (hh : w.Heeded)
    {past future : List Deed} {n : Nat} (hlog : w'.log = past ++ future)
    (hover : Overtaken n past) : .turned n (.look false) ∉ future := by
  rcases h.log_eq with heq | ⟨d, heq⟩
  · exact hh.stopped past future n (heq ▸ hlog) hover
  · rcases append_eq_concat (heq ▸ hlog) with rfl | ⟨before, rfl, hpast⟩
    · exact List.not_mem_nil
    · intro hmem
      rcases List.mem_append.1 hmem with hmem | hmem
      · exact hh.stopped past before n hpast hover hmem
      · -- the step is the look itself
        obtain ⟨q, next, htyping, hn, hseen⟩ :=
          h.of_look (heq.trans (by rw [List.mem_singleton.1 hmem]))
        have hover : Overtaken n w.log := hover.mono (hpast ▸ List.sublist_append_left _ _)
        have := hh.doomed n hover q (by rw [htyping]; rfl) hn
        exact Bool.noConfusion (hseen.trans this)

theorem Step.heeded {w w' : World σ} (h : Step t repairs w w') (hw : w.Sound) (hh : w.Heeded) :
    w'.Heeded :=
  ⟨fun _ _ _ hsub _ hq hn => h.stale hw hh hsub hq hn,
    fun _ hover _ hq hn => h.doomed hh hover hq hn,
    fun _ _ _ hlog hover => h.stopped hh hlog hover⟩

end World

/-! ## Runs that were cancelled -/

theorem TypingEvent.isCancelled_of_ofRun {index index' k : Nat} {r : Except RunError RunReport}
    (h : ofRun index r = .cancelled index' k) : SessionAction.IsCancelled r := by
  rcases r with (_ | _ | k' | _) | _
  case error.cancelled => exact ⟨k', rfl⟩
  all_goals cases h

/-- A run is cancelled exactly when a look of its dialogue saw a cancellation. -/
theorem isCancelled_iff_look {request : TypingRequest} {memory memory' : SessionMemory} {x x' : σ}
    {ts : List Turn} {result : Except RunError RunReport}
    (h : ((SessionAction.typeScript t repairs request.script request.document).run memory).Passes
      t.editor x ts (.done (result, memory')) x') :
    SessionAction.IsCancelled result ↔ .look true ∈ ts :=
  (SessionAction.isHeeding_typeScript t request.document repairs request.script
    memory).stopped_iff h

/-- A request that was not reported as cancelled saw no cancellation. -/
theorem Served.look_not_mem {n : Nat} {request : TypingRequest} {service : List Deed}
    (h : Served t repairs n request service) {event : TypingEvent}
    (hmem : .emitted n event ∈ service) (hterminal : event.isTerminal)
    (hevent : ∀ index k, event ≠ .cancelled index k) :
    .turned n (.look true) ∉ service := by
  cases h with
  | refused =>
    simp only [List.mem_singleton, Deed.emitted.injEq, true_and] at hmem
    exact absurd hmem (hevent _ _)
  | @typed _ _ _ _ ts result hway =>
    have hevent' : event = .ofRun request.index result := by
      simp only [List.mem_cons, List.mem_append, List.mem_map, Deed.emitted.injEq, true_and,
        reduceCtorEq, and_false, exists_false, List.not_mem_nil, or_false, false_or] at hmem
      rcases hmem with rfl | hmem
      · cases hterminal
      · exact hmem
    intro hlook
    have hlook : .look true ∈ ts := by simpa using hlook
    obtain ⟨k, rfl⟩ := (isCancelled_iff_look hway).2 hlook
    exact hevent _ _ hevent'

theorem mem_serviceOf {n : Nat} {d : Deed} {log : List Deed} (h : d.serves n = true) :
    d ∈ serviceOf n log ↔ d ∈ log := by
  simp [serviceOf, h]

namespace World

/-! ## Undisturbed requests -/

/-- The cancellations that are yet to set the flag are those that began and did not return. -/
structure Tallied (w : World σ) : Prop where
  bumped : ∀ c ∈ w.cancelling, .bumped c ∈ w.log
  tripped : ∀ c ∈ w.cancelling, .tripped c ∉ w.log
  begun : ∀ c, .bumped c ∈ w.log ∨ .tripped c ∈ w.log → c < w.begun

theorem Step.tallied {w w' : World σ} (h : Step t repairs w w') (hw : w.Tallied) : w'.Tallied := by
  obtain ⟨bumped, tripped, begun⟩ := hw
  cases h with
  | bump =>
    constructor
    · intro c hc
      rcases List.mem_cons.1 hc with rfl | hc
      · simp [cancel]
      · simp [cancel, bumped c hc]
    · intro c hc
      rcases List.mem_cons.1 hc with rfl | hc
      · simpa [cancel] using fun h => Nat.lt_irrefl _ (begun _ (.inr h))
      · simpa [cancel] using tripped c hc
    · intro c hc
      simp only [cancel, List.mem_append, List.mem_singleton, Deed.bumped.injEq, reduceCtorEq,
        or_false] at hc ⊢
      rcases hc with (hc | rfl) | hc
      · exact Nat.lt_succ_of_lt (begun c (.inl hc))
      · exact Nat.lt_succ_self _
      · exact Nat.lt_succ_of_lt (begun c (.inr hc))
  | @trip c₀ hc₀ =>
    constructor
    · intro c hc
      simpa using bumped c (List.mem_filter.1 hc).1
    · intro c hc
      simp only [List.mem_filter, bne_iff_ne, ne_eq] at hc
      simpa [hc.2] using tripped c hc.1
    · intro c hc
      simp only [List.mem_append, List.mem_singleton, Deed.tripped.injEq, reduceCtorEq,
        or_false] at hc
      rcases hc with hc | hc | rfl
      · exact begun c (.inl hc)
      · exact begun c (.inr hc)
      · exact begun c (.inl (bumped c hc₀))
  | _ => exact ⟨by simpa [World.submit] using bumped, by simpa [World.submit] using tripped,
      by simpa [World.submit] using begun⟩

/-- No cancellation is on its way to a request. -/
structure Undisturbed (w : World σ) (n : Nat) : Prop where
  cancelling : w.cancelling = []
  epoch : ∀ q ∈ w.tickets, q.number = n → q.epoch = w.token.epoch
  refused : ∀ q, w.phase = .refused q → q.number ≠ n
  token : ∀ q, w.phase = .cleared q ∨ w.phase.begun? = some q → q.number = n →
    w.token.cancelled = false
  unseen : .turned n (.look true) ∉ w.log
  uncancelled : ∀ index k, .emitted n (.cancelled index k) ∉ w.log

/-- The flag is set by a cancellation that is on its way. -/
theorem Step.of_cancelled {w w' : World σ} (h : Step t repairs w w')
    (hc : w'.token.cancelled = true) : w.token.cancelled = true ∨ w.cancelling ≠ [] := by
  cases h with
  | trip hmem => exact .inr (List.ne_nil_of_mem hmem)
  | clear _ => cases hc
  | _ => exact .inl hc

theorem Step.of_cleared {w w' : World σ} (h : Step t repairs w w') {q : Ticket}
    (hq : w'.phase = .cleared q) : w.phase = .cleared q ∨ w'.token.cancelled = false := by
  cases h with
  | submit _ => exact .inl hq
  | enqueue _ => exact .inl hq
  | bump => exact .inl hq
  | trip _ => exact .inl hq
  | clear _ => exact .inr rfl
  | _ => cases hq

/-- A request is refused when its epoch is another than the current one. -/
theorem Step.of_refused {w w' : World σ} (h : Step t repairs w w') {q : Ticket}
    (hq : w'.phase = .refused q) :
    w.phase = .refused q ∨ (q ∈ w.tickets ∧ q.epoch ≠ w.token.epoch) := by
  cases h with
  | submit _ => exact .inl hq
  | enqueue _ => exact .inl hq
  | bump => exact .inl hq
  | trip _ => exact .inl hq
  | refuse hphase hne =>
    cases hq
    refine .inr ⟨mem_tickets_of_phase ?_, hne⟩
    rcases hphase with hphase | hphase <;> simp [hphase]
  | _ => cases hq

/-- A request is reported as cancelled when it was refused, or its run was cancelled. -/
theorem Step.of_emitted_cancelled {w w' : World σ} (h : Step t repairs w w') {n index k : Nat}
    (hlog : w'.log = w.log ++ [.emitted n (.cancelled index k)]) :
    (∃ q, w.phase = .refused q ∧ q.number = n) ∨
    ∃ q result memory, w.phase = .typing q (.done (result, memory)) ∧ q.number = n ∧
      SessionAction.IsCancelled result := by
  cases h with
  | dismiss hrefused =>
    simp only [List.append_cancel_left_eq, List.cons.injEq, Deed.emitted.injEq, and_true] at hlog
    exact .inl ⟨_, hrefused, hlog.1⟩
  | finish hdone =>
    simp only [List.append_cancel_left_eq, List.cons.injEq, Deed.emitted.injEq, and_true] at hlog
    exact .inr ⟨_, _, _, hdone, hlog.1, TypingEvent.isCancelled_of_ofRun hlog.2⟩
  | _ => simp [World.submit, cancel] at hlog

section

variable {w w' : World σ} {n : Nat}

theorem Undisturbed.token_step (hu : w.Undisturbed n) (h : Step t repairs w w') {q : Ticket}
    (hq : w'.phase = .cleared q ∨ w'.phase.begun? = some q) (hqn : q.number = n) :
    w'.token.cancelled = false := by
  cases hc : w'.token.cancelled with
  | false => rfl
  | true =>
    rcases h.of_cancelled hc with hset | hne
    · have hbefore : w.phase = .cleared q ∨ w.phase.begun? = some q := by
        rcases hq with hq | hq
        · rcases h.of_cleared hq with hq | hfalse
          · exact .inl hq
          · exact Bool.noConfusion (hc.symm.trans hfalse)
        · rcases h.of_begun hq with ⟨hq, -⟩ | ⟨hq, -⟩
          · exact .inr hq
          · exact .inl hq
      exact hset.symm.trans (hu.token q hbefore hqn)
    · exact absurd hu.cancelling hne

theorem Undisturbed.unseen_step (hu : w.Undisturbed n) (h : Step t repairs w w') :
    .turned n (.look true) ∉ w'.log := by
  intro hmem
  rcases h.mem_log hmem with hmem | hlog
  · exact hu.unseen hmem
  · obtain ⟨q, next, htyping, hqn, hseen⟩ := h.of_look hlog
    have := hu.token q (.inr (by rw [htyping]; rfl)) hqn
    exact Bool.noConfusion (hseen.trans this)

theorem Undisturbed.uncancelled_step (hu : w.Undisturbed n) (h : Step t repairs w w')
    (ha : w.Accounts t repairs) (index k : Nat) : .emitted n (.cancelled index k) ∉ w'.log := by
  intro hmem
  rcases h.mem_log hmem with hmem | hlog
  · exact hu.uncancelled index k hmem
  · rcases h.of_emitted_cancelled hlog with ⟨q, hrefused, hqn⟩ | ⟨q, result, memory, hdone, rfl, hr⟩
    · exact hu.refused q hrefused hqn
    · obtain ⟨_, _, ts, hservice, hway⟩ := ha.typing q _ hdone
      have hlook := (isCancelled_iff_look hway).1 hr
      refine hu.unseen ((mem_serviceOf (n := q.number) (beq_self_eq_true _)).1 ?_)
      rw [hservice]
      exact List.mem_cons_of_mem _ (List.mem_map_of_mem hlook)

/-- A request stays undisturbed until a cancellation begins. -/
theorem Step.undisturbed (h : Step t repairs w w') (ha : w.Accounts t repairs)
    (hn : n < w.issued) (hu : w.Undisturbed n) (hbump : ∀ c, w'.log ≠ w.log ++ [.bumped c]) :
    w'.Undisturbed n where
  cancelling := by
    cases h with
    | bump => exact absurd rfl (hbump _)
    | trip _ => simp [hu.cancelling]
    | _ => exact hu.cancelling
  epoch := by
    intro q hq hqn
    rcases h.mem_tickets hq with hq | ⟨_, rfl, rfl⟩
    · rcases h.epoch_eq with heq | rfl
      · exact (hu.epoch q hq hqn).trans heq.symm
      · exact absurd rfl (hbump _)
    · exact absurd (hqn ▸ hn) (Nat.lt_irrefl _)
  refused := by
    intro q hq hqn
    rcases h.of_refused hq with hq | ⟨hmem, hne⟩
    · exact hu.refused q hq hqn
    · exact hne (hu.epoch q hmem hqn)
  token := fun _ hq hqn => hu.token_step h hq hqn
  unseen := hu.unseen_step h
  uncancelled := hu.uncancelled_step h ha

end

/-- A request that is submitted while no cancellation is on its way is undisturbed. -/
theorem Tallied.undisturbed_submit {w : World σ} (htallied : w.Tallied) (hw : w.Sound)
    (ha : w.Accounts t repairs) (hpast : ∀ c, .bumped c ∈ w.log → .tripped c ∈ w.log)
    (r : TypingRequest) : (w.submit r).Undisturbed w.issued := by
  have hnew {q : Ticket} (hq : q ∈ w.tickets) : q.number ≠ w.issued :=
    Nat.ne_of_lt (hw.number_lt hq)
  have hstep : Step t repairs w (w.submit r) := .submit r
  have hservice : serviceOf w.issued w.log = [] := by
    refine ha.untouched _ (fun h => ?_) fun q d htyping => hnew ?_
    · have := hw.issued _ (List.mem_append_left _ (hw.reported_prefix.1.subset h))
      exact Nat.lt_irrefl _ this
    · exact mem_tickets_of_phase (by rw [htyping]; exact List.mem_singleton_self q)
  have hlog {d : Deed} (hd : d.serves w.issued = true) : d ∉ w.log := by
    rw [← mem_serviceOf hd, hservice]
    exact List.not_mem_nil
  constructor
  · refine List.eq_nil_iff_forall_not_mem.2 fun c hc => ?_
    exact htallied.tripped c hc (hpast c (htallied.bumped c hc))
  · intro q hq hn
    rcases hstep.mem_tickets hq with hq | ⟨_, -, rfl⟩
    · exact absurd hn (hnew hq)
    · rfl
  · intro q (hq : w.phase = _)
    exact hnew (mem_tickets_of_phase (by rw [hq]; exact List.mem_singleton_self q))
  · intro q (hq : w.phase = _ ∨ w.phase.begun? = _) hn
    refine absurd hn (hnew (mem_tickets_of_phase ?_))
    rcases hq with hq | hq
    · rw [hq]
      exact List.mem_singleton_self q
    · exact Phase.mem_tickets_of_begun? hq
  · simpa [World.submit] using hlog (beq_self_eq_true _)
  · intro index k
    simpa [World.submit] using hlog (beq_self_eq_true _)

/-- Requests that are submitted while no cancellation is on its way are spared until one begins. -/
def Spares (w : World σ) : Prop :=
  ∀ past future n r, w.log = past ++ .submitted n r :: future →
    (∀ c, .bumped c ∈ past → .tripped c ∈ past) → (∀ c, .bumped c ∉ future) → w.Undisturbed n

theorem Step.spares {w w' : World σ} (h : Step t repairs w w') (hw : w.Sound)
    (ha : w.Accounts t repairs) (htallied : w.Tallied) (hs : w.Spares) : w'.Spares := by
  intro past future n r hlog hpast hfuture
  rcases h.log_eq with heq | ⟨d, heq⟩
  · rw [heq] at hlog
    have hn : n < w.issued := hw.submitted n r (by rw [hlog]; simp)
    refine h.undisturbed ha hn (hs past future n r hlog hpast hfuture) fun c hc => ?_
    simp [heq] at hc
  · rcases append_eq_concat (heq ▸ hlog) with hnil | ⟨before, hbefore, hold⟩
    · cases hnil
    · cases before with
      | nil =>
        -- the step is the submission
        obtain ⟨hd, rfl⟩ := List.cons.inj hbefore
        obtain ⟨rfl, rfl⟩ := h.of_submitted (heq.trans (by rw [hd]))
        rw [List.append_nil] at hold
        exact htallied.undisturbed_submit hw ha (hold ▸ hpast) r
      | cons d' before =>
        simp only [List.cons_append, List.cons.injEq] at hbefore
        obtain ⟨rfl, rfl⟩ := hbefore
        have hn : n < w.issued := hw.submitted n r (by rw [hold]; simp)
        have hbefore : ∀ c, .bumped c ∉ before := fun c hc => hfuture c (List.mem_append_left _ hc)
        refine h.undisturbed ha hn (hs past before n r hold hpast hbefore) fun c hc => ?_
        rw [heq] at hc
        have hd : d = .bumped c := (List.append_singleton_inj.1 hc).2
        exact hfuture c (by simp [hd])

end World

end Scribe
