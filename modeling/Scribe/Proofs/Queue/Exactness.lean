import Scribe.Proofs.Queue.Cancelling
import Scribe.Proofs.Queue.Progress

set_option autoImplicit false

/-! # The worker is exact

Whatever the order in which submissions, cancellations and the worker take their steps, a
cancellation reaches the requests that were submitted before it and no others, and every request is
reported for good once, in the order of the queue. -/

namespace Scribe

variable {σ : Type}

/-- What holds of a log, in whatever order its deeds were done. -/
structure Exact (t : Typist σ) (repairs : Pipeline) (log : List Deed) : Prop where
  /-- Behind the return of a cancellation, no look of a request that it overtook lets it go on. -/
  stopped : ∀ past future n, log = past ++ future → Overtaken n past →
    .turned n (.look false) ∉ future
  /-- Such a request is reported as anything but cancelled only if it does not look any more. -/
  unnoticed : ∀ past future n event, log = past ++ future → Overtaken n past →
    .emitted n event ∈ future → event.isTerminal → (∀ index k, event ≠ .cancelled index k) →
    ∀ seen, .turned n (.look seen) ∉ future
  /-- A request that was submitted when all cancellations had returned is not reported as cancelled
      unless another cancellation begins. -/
  spared : ∀ past future n request, log = past ++ .submitted n request :: future →
    (∀ c, .bumped c ∈ past → .tripped c ∈ past) → (∀ c, .bumped c ∉ future) →
    ∀ index k, .emitted n (.cancelled index k) ∉ log
  /-- Requests are reported for good in the order of the queue. -/
  ordered : reported log <+: entered log
  /-- No request is entered, or reported for good, a second time. -/
  once : (entered log).Nodup ∧ (reported log).Nodup
  /-- A request that was reported was refused, or started and typed to the end that was reported. -/
  served : ∀ n request, .submitted n request ∈ log → n ∈ reported log →
    Served t repairs n request (serviceOf n log)

namespace World

variable {t : Typist σ} {repairs : Pipeline}

/-- What every step keeps. -/
structure Upright (t : Typist σ) (repairs : Pipeline) (w : World σ) : Prop where
  sound : w.Sound
  accounts : w.Accounts t repairs
  heeded : w.Heeded
  tallied : w.Tallied
  spares : w.Spares

theorem Step.upright {w w' : World σ} (h : Step t repairs w w') (hw : w.Upright t repairs) :
    w'.Upright t repairs where
  sound := h.sound hw.sound
  accounts := h.accounts hw.sound hw.accounts
  heeded := h.heeded hw.sound hw.heeded
  tallied := h.tallied hw.tallied
  spares := h.spares hw.sound hw.accounts hw.tallied hw.spares

theorem upright_start (s : Session σ) : (start s).Upright t repairs where
  sound := sound_start s
  accounts := accounts_start s
  heeded := by
    refine ⟨nofun, fun _ ⟨_, _, h⟩ => (nomatch h), fun past _ _ hlog => ?_⟩
    obtain ⟨rfl, -⟩ := List.append_eq_nil_iff.1 hlog.symm
    exact fun ⟨_, _, h⟩ => (nomatch h)
  tallied := ⟨nofun, nofun, by simp [start]⟩
  spares _ _ _ _ hlog := by simp [start] at hlog

theorem Upright.unnoticed {w : World σ} (hw : w.Upright t repairs) {past future : List Deed}
    {n : Nat} {event : TypingEvent} (hlog : w.log = past ++ future) (hover : Overtaken n past)
    (hmem : .emitted n event ∈ future) (hterminal : event.isTerminal)
    (hevent : ∀ index k, event ≠ .cancelled index k) (seen : Bool) :
    .turned n (.look seen) ∉ future := by
  have hsub : future ⊆ w.log := by rw [hlog]; exact List.subset_append_right _ _
  cases seen with
  | false => exact hw.heeded.stopped past future n hlog hover
  | true =>
    intro hlook
    obtain ⟨r, c, hsubmitted⟩ := hover
    have hmem_log : .submitted n r ∈ w.log := by
      rw [hlog]
      exact List.mem_append_left _ (hsubmitted.subset List.mem_cons_self)
    have hreported : n ∈ reported w.log :=
      List.mem_filterMap.2 ⟨_, hsub hmem, by simp [hterminal]⟩
    have hserved := hw.accounts.served n hreported r hmem_log
    exact hserved.look_not_mem ((mem_serviceOf (beq_self_eq_true _)).2 (hsub hmem)) hterminal hevent
      ((mem_serviceOf (beq_self_eq_true _)).2 (hsub hlook))

theorem Upright.exact {w : World σ} (hw : w.Upright t repairs) : Exact t repairs w.log where
  stopped := hw.heeded.stopped
  unnoticed _ _ _ _ hlog hover := hw.unnoticed hlog hover
  spared past future n r hlog hpast hfuture :=
    (hw.spares past future n r hlog hpast hfuture).uncancelled
  ordered := hw.sound.reported_prefix.1
  once :=
    have ⟨hfirst, hnodup⟩ := hw.sound.reported_prefix
    ⟨hnodup, hnodup.sublist hfirst.sublist⟩
  served n r hr hn := hw.accounts.served n hn r hr

/-- The worker is exact in every run, and reports every request in a fair one. -/
theorem serves_exactly (t : Typist σ) (repairs : Pipeline) (s : Session σ) :
    (∀ moves, Exact t repairs ((start s).play t repairs moves).log) ∧
    ∀ schedule, IsFair schedule → ∀ n number,
      number ∈ entered ((start s).along t repairs schedule n).log →
      ∃ m, number ∈ reported ((start s).along t repairs schedule m).log :=
  ⟨fun moves => (play_induction (fun _ _ h => h.upright) (upright_start s) moves).exact,
    fun _ fair _ _ => exists_reported fair s⟩

/-- A cancellation that comes between the first comparison and the clearing of the flag counts. -/
example (t : Typist σ) (repairs : Pipeline) (s : Session σ) (request : TypingRequest) :
    ((start s).play t repairs
      [.submit request, .enqueue 0, .work, .work, .cancel, .trip 0, .work, .work, .work]).log =
    [.submitted 0 request, .enqueued 0, .bumped 0, .tripped 0,
      .emitted 0 (.cancelled request.index 0)] := rfl

end World

end Scribe
