import Scribe.Proofs.Queue.Steps

set_option autoImplicit false

/-! # Every request is reported

The worker is fair when it goes on making steps, whatever the others do in between. Then every
request that was entered is reported for good some day: a dialogue is a finite tree, and nobody but
the worker takes requests from the front of the queue. -/

namespace Scribe

variable {σ : Type} {t : Typist σ} {repairs : Pipeline}

/-- The worker makes steps again and again. -/
def IsFair (schedule : Nat → Move) : Prop := ∀ n, ∃ m, n ≤ m ∧ schedule m = .work

/-- Wherever a run is in `P`, it comes to `Q` then or later. -/
def LeadsTo (run : Nat → World σ) (P Q : World σ → Prop) : Prop :=
  ∀ n, P (run n) → ∃ m, n ≤ m ∧ Q (run m)

namespace LeadsTo

variable {run : Nat → World σ} {P Q R : World σ → Prop}

theorem trans (h : LeadsTo run P Q) (h' : LeadsTo run Q R) : LeadsTo run P R := by
  intro n hP
  obtain ⟨m, hnm, hQ⟩ := h n hP
  obtain ⟨k, hmk, hR⟩ := h' m hQ
  exact ⟨k, Nat.le_trans hnm hmk, hR⟩

theorem mono (h : LeadsTo run P Q) (hQ : ∀ w, Q w → R w) : LeadsTo run P R := by
  intro n hP
  obtain ⟨m, hnm, hm⟩ := h n hP
  exact ⟨m, hnm, hQ _ hm⟩

theorem or (h : LeadsTo run P R) (h' : LeadsTo run Q R) :
    LeadsTo run (fun w => P w ∨ Q w) R := by
  intro n hPQ
  rcases hPQ with hP | hQ
  · exact h n hP
  · exact h' n hQ

theorem of_exists {ι : Type} {P : ι → World σ → Prop} (h : ∀ i, LeadsTo run (P i) R) :
    LeadsTo run (fun w => ∃ i, P i w) R :=
  fun n ⟨i, hP⟩ => h i n hP

/-- What the others keep and a step of the worker turns into `Q` leads to `Q` in a fair run. -/
theorem of_work {w : World σ} {schedule : Nat → Move} (fair : IsFair schedule)
    (kept : ∀ w m, m ≠ .work → P w → P (w.move t repairs m))
    (work : ∀ w, P w → Q (w.work t repairs)) : LeadsTo (w.along t repairs schedule) P Q := by
  intro n hP
  obtain ⟨m, hnm, hm⟩ := fair n
  obtain ⟨k, rfl⟩ := Nat.exists_eq_add_of_le hnm
  -- the induction is on how far off the next step of the worker is
  induction k generalizing n with
  | zero =>
    refine ⟨n + 1, Nat.le_succ n, ?_⟩
    rw [World.along, show schedule n = .work from hm]
    exact work _ hP
  | succ k ih =>
    by_cases hn : schedule n = .work
    · refine ⟨n + 1, Nat.le_succ n, ?_⟩
      rw [World.along, hn]
      exact work _ hP
    · obtain ⟨m, hnm, hQ⟩ := ih (n + 1) (kept _ _ hn hP) (by omega)
        (by rw [← hm]; congr 1; omega)
      exact ⟨m, by omega, hQ⟩

end LeadsTo

namespace World

/-- The worker is somewhere, and requests wait in order. -/
def At (p : Phase) (ahead : List Ticket) (w : World σ) : Prop := w.phase = p ∧ ahead <+: w.waiting

/-- Nobody but the worker moves it, or takes requests from the front of the queue. -/
theorem At.move {p : Phase} {ahead : List Ticket} {w : World σ} (h : At p ahead w) {m : Move}
    (hm : m ≠ .work) : At p ahead (w.move t repairs m) := by
  cases m with
  | submit request => exact h
  | enqueue number =>
    simp only [World.move, enqueue]
    split
    · exact h
    · exact ⟨h.1, h.2.trans (List.prefix_append _ _)⟩
  | cancel => exact h
  | trip c =>
    simp only [World.move, trip]
    split
    · exact h
    · exact h
  | work => exact absurd rfl hm

/-- The worker is done with a request, and the others wait as before. -/
def Settled (q : Ticket) (ahead : List Ticket) (w : World σ) : Prop :=
  At .idle ahead w ∧ q.number ∈ reported w.log

section

variable {schedule : Nat → Move} (fair : IsFair schedule) (w₀ : World σ)
include fair

/-- A phase leads to what a step of the worker makes of it. -/
theorem At.leadsTo {p : Phase} {ahead : List Ticket} {Q : World σ → Prop}
    (work : ∀ w, At p ahead w → Q (w.work t repairs)) :
    LeadsTo (w₀.along t repairs schedule) (At p ahead) Q :=
  .of_work fair (fun _ _ hm h => h.move hm) work

variable (q : Ticket) (ahead : List Ticket)

/-- A dialogue comes to its end, turn by turn. -/
theorem leadsTo_of_typing (d : Dialogue (Except RunError RunReport × SessionMemory)) :
    LeadsTo (w₀.along t repairs schedule) (At (.typing q d) ahead) (Settled q ahead) := by
  induction d with
  | done r =>
    refine At.leadsTo fair w₀ fun w hw => ?_
    simp only [work, hw.1]
    exact ⟨⟨rfl, hw.2⟩, by simp⟩
  | look next ih =>
    refine LeadsTo.trans (At.leadsTo fair w₀ fun w hw => ?_) (.of_exists ih)
    simp only [work, hw.1]
    exact ⟨_, rfl, hw.2⟩
  | ask r next ih =>
    refine LeadsTo.trans (At.leadsTo fair w₀ fun w hw => ?_) (.of_exists ih)
    simp only [work, hw.1]
    exact ⟨_, rfl, hw.2⟩

theorem leadsTo_of_refused :
    LeadsTo (w₀.along t repairs schedule) (At (.refused q) ahead) (Settled q ahead) := by
  refine At.leadsTo fair w₀ fun w hw => ?_
  simp only [work, hw.1]
  exact ⟨⟨rfl, hw.2⟩, by simp [TypingEvent.isTerminal]⟩

theorem leadsTo_of_granted :
    LeadsTo (w₀.along t repairs schedule) (At (.granted q) ahead) (Settled q ahead) := by
  refine LeadsTo.trans (At.leadsTo fair w₀ fun w hw => ?_)
    (.of_exists (leadsTo_of_typing fair w₀ q ahead))
  simp only [work, hw.1]
  exact ⟨_, rfl, hw.2⟩

theorem leadsTo_of_cleared :
    LeadsTo (w₀.along t repairs schedule) (At (.cleared q) ahead) (Settled q ahead) := by
  refine LeadsTo.trans (At.leadsTo fair w₀ fun w hw => ?_)
    ((leadsTo_of_granted fair w₀ q ahead).or (leadsTo_of_refused fair w₀ q ahead))
  simp only [work, hw.1]
  split
  · exact .inl ⟨rfl, hw.2⟩
  · exact .inr ⟨rfl, hw.2⟩

theorem leadsTo_of_admitted :
    LeadsTo (w₀.along t repairs schedule) (At (.admitted q) ahead) (Settled q ahead) := by
  refine LeadsTo.trans (At.leadsTo fair w₀ fun w hw => ?_) (leadsTo_of_cleared fair w₀ q ahead)
  simp only [work, hw.1]
  exact ⟨rfl, hw.2⟩

theorem leadsTo_of_taken :
    LeadsTo (w₀.along t repairs schedule) (At (.taken q) ahead) (Settled q ahead) := by
  refine LeadsTo.trans (At.leadsTo fair w₀ fun w hw => ?_)
    ((leadsTo_of_admitted fair w₀ q ahead).or (leadsTo_of_refused fair w₀ q ahead))
  simp only [work, hw.1]
  split
  · exact .inl ⟨rfl, hw.2⟩
  · exact .inr ⟨rfl, hw.2⟩

/-- Whatever is in service is settled. -/
theorem leadsTo_of_service {p : Phase} (hp : p.tickets = [q]) :
    LeadsTo (w₀.along t repairs schedule) (At p ahead) (Settled q ahead) := by
  cases p with
  | idle => cases hp
  | taken q' => cases hp; exact leadsTo_of_taken fair w₀ q ahead
  | admitted q' => cases hp; exact leadsTo_of_admitted fair w₀ q ahead
  | cleared q' => cases hp; exact leadsTo_of_cleared fair w₀ q ahead
  | granted q' => cases hp; exact leadsTo_of_granted fair w₀ q ahead
  | refused q' => cases hp; exact leadsTo_of_refused fair w₀ q ahead
  | typing q' d => cases hp; exact leadsTo_of_typing fair w₀ q ahead d

/-- The front of the queue is settled. -/
theorem leadsTo_of_front :
    LeadsTo (w₀.along t repairs schedule) (At .idle (q :: ahead)) (Settled q ahead) := by
  refine LeadsTo.trans (At.leadsTo fair w₀ fun w hw => ?_) (leadsTo_of_taken fair w₀ q ahead)
  obtain ⟨rest, hrest⟩ := hw.2
  simp only [work, hw.1, ← hrest, List.cons_append]
  exact ⟨rfl, List.prefix_append _ _⟩

/-- The queue is settled, from its front. -/
theorem leadsTo_of_waiting :
    LeadsTo (w₀.along t repairs schedule) (At .idle (ahead ++ [q]))
      (fun w => q.number ∈ reported w.log) := by
  induction ahead with
  | nil => exact (leadsTo_of_front fair w₀ q []).mono fun _ hw => hw.2
  | cons q' ahead ih =>
    exact ((leadsTo_of_front fair w₀ q' (ahead ++ [q])).mono fun _ hw => hw.1).trans ih

end

/-- Every request that was entered is reported for good, when the worker is fair. -/
theorem exists_reported {schedule : Nat → Move} (fair : IsFair schedule) (s : Session σ)
    {n number : Nat} (h : number ∈ entered ((start s).along t repairs schedule n).log) :
    ∃ m, number ∈ reported ((start s).along t repairs schedule m).log := by
  obtain ⟨w, hw⟩ : ∃ w, (start s).along t repairs schedule n = w := ⟨_, rfl⟩
  have sound : w.Sound := hw ▸ along_induction (fun _ _ h => h.sound) (sound_start s) schedule n
  have of_leadsTo {P : World σ → Prop} (hP : P w)
      (h : LeadsTo ((start s).along t repairs schedule) P fun w => number ∈ reported w.log) :
      ∃ m, number ∈ reported ((start s).along t repairs schedule m).log := by
    obtain ⟨m, -, hm⟩ := h n (hw ▸ hP)
    exact ⟨m, hm⟩
  -- the request was reported already, or it is in service, or it waits behind others
  rw [hw, sound.queue, List.mem_append] at h
  rcases h with h | h
  · exact ⟨n, hw ▸ h⟩
  · obtain ⟨q, hq, rfl⟩ := List.mem_map.1 h
    rcases List.mem_append.1 hq with hq | hq
    · have service : w.phase.tickets = [q] := Phase.tickets_eq_of_mem hq
      exact of_leadsTo (P := At w.phase []) ⟨rfl, List.nil_prefix⟩
        ((leadsTo_of_service fair _ q [] service).mono fun _ h => h.2)
    · obtain ⟨ahead, rest, hwaiting⟩ := List.append_of_mem hq
      have hfirst : ahead ++ [q] <+: w.waiting := ⟨rest, by simp [hwaiting]⟩
      have waiting : LeadsTo ((start s).along t repairs schedule) (At .idle (ahead ++ [q]))
          fun w => q.number ∈ reported w.log := leadsTo_of_waiting fair _ q ahead
      rcases w.phase.eq_idle_or_service with hidle | ⟨q', hq'⟩
      · exact of_leadsTo ⟨hidle, hfirst⟩ waiting
      · exact of_leadsTo (P := At w.phase (ahead ++ [q])) ⟨rfl, hfirst⟩
          (((leadsTo_of_service fair _ q' _ hq').mono fun _ h => h.1).trans waiting)

end World

end Scribe
