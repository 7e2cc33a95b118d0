import Scribe.Proofs.Queue.Steps
import Scribe.Proofs.Typing.Dialogue

set_option autoImplicit false

/-! # What is done for a request

A request that is reported for good was either refused, or it was started and its script was typed
to the end that is reported; the turns in between are those of its own dialogue. Nothing was done
for any other request, but for the one that is being typed. -/

namespace Scribe

variable {σ : Type} (t : Typist σ) (repairs : Pipeline)

/-- All that the worker did for a request that it reported for good. -/
inductive Served (n : Nat) (request : TypingRequest) : List Deed → Prop
  | refused : Served n request [.emitted n (.cancelled request.index 0)]
  /-- The dialogue of the script was held from some target and memory to its end. -/
  | typed {memory memory' : SessionMemory} {x x' : σ} {ts : List Turn}
      {result : Except RunError RunReport} :
    ((SessionAction.typeScript t repairs request.script request.document).run memory).Passes
      t.editor x ts (.done (result, memory')) x' →
    Served n request (.emitted n (.started request.index) ::
      (ts.map (.turned n) ++ [.emitted n (.ofRun request.index result)]))

/-- All that the worker did for a request whose script is being typed. -/
def UnderWay (q : Ticket) (d : Dialogue (Except RunError RunReport × SessionMemory)) (x : σ)
    (service : List Deed) : Prop :=
  ∃ (memory : SessionMemory) (x₀ : σ) (ts : List Turn),
    service = .emitted q.number (.started q.request.index) :: ts.map (.turned q.number) ∧
    ((SessionAction.typeScript t repairs q.request.script q.request.document).run memory).Passes
      t.editor x₀ ts d x

/-! ## The service in a log -/

theorem serviceOf_append (n : Nat) (log log' : List Deed) :
    serviceOf n (log ++ log') = serviceOf n log ++ serviceOf n log' := List.filter_append ..

theorem serviceOf_other {n : Nat} {d : Deed} (h : d.serves n = false) (log : List Deed) :
    serviceOf n (log ++ [d]) = serviceOf n log := by
  rw [serviceOf_append]
  simp [serviceOf, h]

theorem serviceOf_own {n : Nat} {d : Deed} (h : d.serves n = true) (log : List Deed) :
    serviceOf n (log ++ [d]) = serviceOf n log ++ [d] := by
  rw [serviceOf_append]
  simp [serviceOf, h]

namespace World

/-- The worker has accounted for all that it did. -/
structure Accounts (w : World σ) : Prop where
  typing : ∀ q d, w.phase = .typing q d →
    UnderWay t repairs q d w.target (serviceOf q.number w.log)
  served : ∀ n ∈ reported w.log, ∀ r, .submitted n r ∈ w.log →
    Served t repairs n r (serviceOf n w.log)
  untouched : ∀ n, n ∉ reported w.log → (∀ q d, w.phase = .typing q d → q.number ≠ n) →
    serviceOf n w.log = []

variable {t repairs}

/-- A step by which nothing is done for any request. -/
theorem Accounts.quiet {w w' : World σ} (ha : w.Accounts t repairs)
    (service : ∀ n, serviceOf n w'.log = serviceOf n w.log)
    (reports : reported w'.log = reported w.log)
    (submissions : ∀ n ∈ reported w.log, ∀ r, .submitted n r ∈ w'.log → .submitted n r ∈ w.log)
    (typing : ∀ q d, w'.phase = .typing q d ↔ w.phase = .typing q d)
    (target : w'.target = w.target) : w'.Accounts t repairs := by
  constructor
  · intro q d h
    rw [service, target]
    exact ha.typing q d ((typing q d).1 h)
  · intro n hn r hr
    rw [reports] at hn
    rw [service]
    exact ha.served n hn r (submissions n hn r hr)
  · intro n hn h
    rw [reports] at hn
    rw [service]
    exact ha.untouched n hn fun q d hq => h q d ((typing q d).2 hq)

/-- A step that is done for the request in service. -/
structure Serves (w w' : World σ) (q : Ticket) (deed : Deed) : Prop where
  log : w'.log = w.log ++ [deed]
  serves : ∀ n, deed.serves n = (q.number == n)
  service : w.phase.tickets = [q]

namespace Serves

variable {w w' : World σ} {q : Ticket} {deed : Deed}

theorem queued (h : Serves w w' q deed) : q ∈ w.queued := by
  rw [World.queued, h.service]
  exact List.mem_cons_self

/-- No other request is being typed. -/
theorem alone (h : Serves w w' q deed) {q' : Ticket}
    {d : Dialogue (Except RunError RunReport × SessionMemory)} (hq' : w.phase = .typing q' d) :
    q' = q := by
  have := h.service
  rw [hq'] at this
  exact List.head_eq_of_cons_eq this

theorem serviceOf_self (h : Serves w w' q deed) :
    serviceOf q.number w'.log = serviceOf q.number w.log ++ [deed] := by
  rw [h.log]
  exact serviceOf_own (by rw [h.serves]; exact beq_self_eq_true _) _

theorem serviceOf_ne (h : Serves w w' q deed) {n : Nat} (hn : q.number ≠ n) :
    serviceOf n w'.log = serviceOf n w.log := by
  rw [h.log]
  exact serviceOf_other (by rw [h.serves]; exact beq_false_of_ne hn) _

theorem submitted (h : Serves w w' q deed) {n : Nat} {r : TypingRequest}
    (hr : .submitted n r ∈ w'.log) : .submitted n r ∈ w.log := by
  rw [h.log] at hr
  rcases List.mem_append.1 hr with hr | hr
  · exact hr
  · have := h.serves q.number
    rw [← List.mem_singleton.1 hr, beq_self_eq_true] at this
    cases this

/-- What was reported before is not about the request in service. -/
theorem served (h : Serves w w' q deed) (hw : w.Sound) (ha : w.Accounts t repairs) {n : Nat}
    (hn : n ∈ reported w.log) {r : TypingRequest} (hr : .submitted n r ∈ w'.log) :
    Served t repairs n r (serviceOf n w'.log) := by
  rw [h.serviceOf_ne fun hq => hw.not_mem_reported h.queued (hq ▸ hn)]
  exact ha.served n hn r (h.submitted hr)

/-- The dialogue of a script begins or takes a turn. -/
theorem accounts_turn (h : Serves w w' q deed) (hw : w.Sound) (ha : w.Accounts t repairs)
    {d : Dialogue (Except RunError RunReport × SessionMemory)} (phase : w'.phase = .typing q d)
    (report : deed.report? = none)
    (way : UnderWay t repairs q d w'.target (serviceOf q.number w.log ++ [deed])) :
    w'.Accounts t repairs := by
  have reports : reported w'.log = reported w.log := by
    rw [h.log, reported_append, reported_single, report, Option.toList_none, List.append_nil]
  constructor
  · intro q' d' h'
    cases phase.symm.trans h'
    rw [h.serviceOf_self]
    exact way
  · intro n hn r hr
    exact h.served hw ha (reports ▸ hn) hr
  · intro n hn hne
    rw [h.serviceOf_ne (hne q d phase)]
    refine ha.untouched n (reports ▸ hn) fun q' d' hq' => ?_
    rw [h.alone hq']
    exact hne q d phase

/-- The request is reported for good. -/
theorem accounts_report (h : Serves w w' q deed) (hw : w.Sound) (ha : w.Accounts t repairs)
    (phase : w'.phase = .idle) (report : deed.report? = some q.number)
    (service : Served t repairs q.number q.request (serviceOf q.number w.log ++ [deed])) :
    w'.Accounts t repairs := by
  have reports : reported w'.log = reported w.log ++ [q.number] := by
    rw [h.log, reported_append, reported_single, report, Option.toList_some]
  constructor
  · intro q' d' h'
    cases phase.symm.trans h'
  · intro n hn r hr
    rw [reports] at hn
    rcases List.mem_append.1 hn with hn | hn
    · exact h.served hw ha hn hr
    · cases List.mem_singleton.1 hn
      rw [h.serviceOf_self, hw.request q (List.mem_append_left _ h.queued) r (h.submitted hr)]
      exact service
  · intro n hn _
    rw [reports, List.mem_append, List.mem_singleton, not_or] at hn
    rw [h.serviceOf_ne (Ne.symm hn.2)]
    refine ha.untouched n hn.1 fun q' d' hq' => ?_
    rw [h.alone hq']
    exact Ne.symm hn.2

end Serves

/-- Before its script is begun, nothing was done for the request in service. -/
theorem Accounts.serviceOf_eq_nil {w : World σ} (ha : w.Accounts t repairs) (hw : w.Sound)
    {q : Ticket} (hq : w.phase.tickets = [q]) (h : ∀ q' d, w.phase ≠ .typing q' d) :
    serviceOf q.number w.log = [] := by
  have hmem : q ∈ w.queued := by
    rw [World.queued, hq]
    exact List.mem_cons_self
  exact ha.untouched _ (hw.not_mem_reported hmem) fun q' d h' => absurd h' (h q' d)

theorem Step.accounts {w w' : World σ} (h : Step t repairs w w') (hw : w.Sound)
    (ha : w.Accounts t repairs) : w'.Accounts t repairs := by
  -- a step between two phases before the script is begun
  have same_log {w' : World σ} (log : w'.log = w.log)
      (typing : ∀ q d, w'.phase = .typing q d ↔ w.phase = .typing q d)
      (target : w'.target = w.target) : w'.Accounts t repairs :=
    ha.quiet (by simp [log]) (by rw [log]) (by simp [log]) typing target
  cases h with
  | submit r =>
    refine ha.quiet (fun n => serviceOf_other rfl _) (by simp [World.submit]) ?_ (fun _ _ => .rfl)
      rfl
    intro n hn r' h
    -- a number that was reported is not given to a new submission
    have : n < w.issued := hw.issued n (List.mem_append_left _ (hw.reported_prefix.1.subset hn))
    rcases List.mem_append.1 h with h | h
    · exact h
    · cases List.mem_singleton.1 h
      exact absurd this (Nat.lt_irrefl _)
  | enqueue hq =>
    exact ha.quiet (fun n => serviceOf_other rfl _) (by simp) (by simp) (fun _ _ => .rfl) rfl
  | bump =>
    exact ha.quiet (fun n => serviceOf_other rfl _) (by simp [cancel]) (by simp [cancel])
      (fun _ _ => .rfl) rfl
  | trip hc =>
    exact ha.quiet (fun n => serviceOf_other rfl _) (by simp) (by simp) (fun _ _ => .rfl) rfl
  | take hidle hwaiting => exact same_log rfl (by simp [hidle]) rfl
  | accept htaken _ => exact same_log rfl (by simp [htaken]) rfl
  | clear hadmitted => exact same_log rfl (by simp [hadmitted]) rfl
  | grant hcleared _ => exact same_log rfl (by simp [hcleared]) rfl
  | refuse hphase _ =>
    rcases hphase with hphase | hphase <;> exact same_log rfl (by simp [hphase]) rfl
  | @dismiss q hrefused =>
    have hq : w.phase.tickets = [q] := by rw [hrefused]; rfl
    refine Serves.accounts_report ⟨rfl, fun _ => rfl, hq⟩ hw ha rfl rfl ?_
    rw [ha.serviceOf_eq_nil hw hq (by simp [hrefused])]
    exact .refused
  | @begin q hgranted =>
    have hq : w.phase.tickets = [q] := by rw [hgranted]; rfl
    refine Serves.accounts_turn ⟨rfl, fun _ => rfl, hq⟩ hw ha rfl rfl ?_
    rw [ha.serviceOf_eq_nil hw hq (by simp [hgranted])]
    exact ⟨w.memory, w.target, [], rfl, .start⟩
  | @look q next htyping =>
    obtain ⟨memory, x, ts, hservice, hway⟩ := ha.typing q _ htyping
    refine Serves.accounts_turn ⟨rfl, fun _ => rfl, by rw [htyping]; rfl⟩ hw ha rfl rfl ?_
    exact ⟨memory, x, _, by simp [hservice], .look _ hway⟩
  | @ask q r next htyping =>
    obtain ⟨memory, x, ts, hservice, hway⟩ := ha.typing q _ htyping
    refine Serves.accounts_turn ⟨rfl, fun _ => rfl, by rw [htyping]; rfl⟩ hw ha rfl rfl ?_
    exact ⟨memory, x, _, by simp [hservice], .ask hway⟩
  | @finish q result memory hdone =>
    obtain ⟨memory, x, ts, hservice, hway⟩ := ha.typing q _ hdone
    refine Serves.accounts_report ⟨rfl, fun _ => rfl, by rw [hdone]; rfl⟩ hw ha rfl (by simp) ?_
    rw [hservice]
    exact .typed hway

theorem accounts_start (s : Session σ) : (start s).Accounts t repairs :=
  ⟨nofun, fun _ h => absurd h List.not_mem_nil, fun _ _ _ => rfl⟩

end World

end Scribe
