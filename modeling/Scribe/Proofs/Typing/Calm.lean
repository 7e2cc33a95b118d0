import Scribe.Proofs.Decimal.Integers
import Scribe.Proofs.Document.Cursors
import Scribe.Proofs.Document.Faults
import Scribe.Proofs.Typing.Ensures

set_option autoImplicit false

/-! # Typing into a calm document

In a document without faults, and while nobody cancels, what is answered to a call and what becomes
of the contents is fixed by the contents. So an action leads from what holds of them before to what
holds behind it, and no failure loses the session. -/

namespace Scribe

variable {σ α β : Type}

/-! ## Texts in texts -/

theorem Text.infix_of_mentions {needle s : Text} (h : mentions needle s) : needle <:+: s := by
  induction s with
  | nil =>
    obtain rfl := List.isEmpty_iff.1 h
    exact List.nil_infix
  | cons c s ih =>
    rw [mentions, Bool.or_eq_true] at h
    rcases h with hhere | hlater
    · exact (List.isPrefixOf_iff_prefix.1 hhere).isInfix
    · exact (ih hlater).trans (List.suffix_cons c s).isInfix

/-- A message of small letters, digits and blanks does not tell of a lost session. -/
theorem TargetError.isGone_ofFailure {action message : Text}
    (h : message.all fun c => c.isDigit || c.isLower || c == ' ') :
    (ofFailure action message).isGone = false := by
  -- every marker of a lost session has a character of another kind
  have hmarkers : goneMarkers.any (fun m => Text.mentions m message) = false := by
    refine List.any_eq_false.2 fun m hm hmentions => ?_
    have hletter : goneMarkers.all fun m =>
        m.any fun c => !(c.isDigit || c.isLower || c == ' ') := by decide
    obtain ⟨c, hc, hnot⟩ := List.any_eq_true.1 (List.all_eq_true.1 hletter m hm)
    rw [List.all_eq_true.1 h c ((Text.infix_of_mentions hmentions).subset hc)] at hnot
    cases hnot
  rw [ofFailure, hmarkers]
  rfl

/-! ## Replies -/

namespace Document

/-- The fragments are the standard ones. -/
def IsStocked (doc : Document) : Prop := doc.fragments = (withStandardFragments []).fragments

end Document

namespace Buffer

open Document

/-- What a call comes to in a calm document with the standard fragments and these contents. -/
def reply (b : Buffer) (p : Primitive) : Except TargetError Bool × Buffer :=
  let r := { withStandardFragments [] with buffer := b }.effect p
  (r.1, r.2.buffer)

variable {b : Buffer} {p : Primitive}

theorem reply_run (b : Buffer) (command : Command) :
    b.reply (.run command) = (.ok (b.run command).1, (b.run command).2) := by
  cases command <;> rfl

/-- A call that brings a format into force, or looks at the selection, leaves the contents. -/
theorem reply_format (b : Buffer) (hp : p.isFormat) : (b.reply p).2 = b := by
  cases p with
  | run command => cases command <;> first | rfl | cases hp
  | charShape _ => rfl
  | paraShape _ => rfl
  | cellFormat _ =>
    simp only [reply, effect]
    split <;> rfl
  | _ => cases hp

/-- No call that fails loses the session. -/
theorem isGone_of_reply {e : TargetError} (h : (b.reply p).1 = .error e) : e.isGone = false := by
  cases p with
  | run command =>
    rw [reply_run] at h
    cases h
  | cellFormat _ | objectAnchor _ =>
    revert h
    simp only [reply, effect]
    split
    · intro h
      cases h
    · intro h
      obtain rfl := Except.error.inj h
      exact TargetError.isGone_ofFailure (by decide)
  | createTable rows cols =>
    revert h
    simp only [reply, effect]
    split
    · intro h
      cases h
    · intro h
      obtain rfl := Except.error.inj h
      refine TargetError.isGone_ofFailure ?_
      have hdigits (n : Nat) : (Decimal.natText n).all fun c =>
          c.isDigit || c.isLower || c == ' ' := by
        refine List.all_eq_true.2 fun c hc => ?_
        rw [Decimal.isDigit_of_mem_natText hc]
        rfl
      simp only [List.all_append, hdigits, Bool.and_true]
      decide
  | insertFragment path =>
    revert h
    simp only [reply, effect]
    split
    · intro h
      cases h
    · intro h
      cases h
  | _ => cases h

end Buffer

/-- The reply is what a calm document answers. -/
theorem Document.perform_eq_reply {doc : Document} (hcalm : doc.IsCalm) (hstocked : doc.IsStocked)
    (p : Primitive) : (doc.perform p).1 = (doc.buffer.reply p).1 ∧
      (doc.perform p).2.buffer = (doc.buffer.reply p).2 := by
  rw [perform_of_isCalm hcalm]
  have hfragments : doc.fragments = (withStandardFragments []).fragments := hstocked
  unfold Buffer.reply
  rcases effect_cases p with ⟨edit, he⟩ | ⟨_, he⟩ | ⟨_, he⟩
  all_goals simp [he, hfragments]

/-! ## Undisturbed actions -/

namespace Typing

/-- Nobody cancels, and a call is answered by its reply. -/
def calmly : Conduct Buffer where
  allows _ _ := True
  sees cancelled := cancelled = false
  answers
    | .call p, b, r, b' => b.reply p = (r, b')
    | _, b, _, b' => b' = b

/-- An undisturbed action leads from `P` to `Q`, and no failure of it loses the session. -/
abbrev Yields (P : Buffer → Prop) (m : Typing α) (Q : α → Buffer → Prop) : Prop :=
  Meets calmly P m (endsIn Q fun e _ => e.isGone = false)

namespace Yields

variable {P P' : Buffer → Prop} {m : Typing α} {Q Q' : α → Buffer → Prop} {p : Primitive}
  {command : Command} {R : Bool → Buffer → Prop}

theorem mono (h : Yields P m Q) (hP : ∀ b, P' b → P b) (hQ : ∀ a b, Q a b → Q' a b) :
    Yields P' m Q' := by
  refine h.weaken hP fun r b hr => ?_
  cases r with
  | ok a => exact hQ a b hr
  | error e => exact hr

theorem pre (h : Yields P m Q) (hP : ∀ b, P' b → P b) : Yields P' m Q :=
  h.mono hP fun _ _ hb => hb

/-- What is never reached needs no proof. -/
theorem of_forall_not (h : ∀ b, ¬ P b) : Yields P m Q := by
  intro s b hb
  exact absurd hb (h b)

theorem pure {a : α} (h : ∀ b, P b → Q a b) : Yields P (pure a : Typing α) Q := Meets.pure h

theorem updateState (f : TypingState → TypingState) :
    Yields P (updateState f) fun _ => P := Meets.updateState fun _ hb => hb

theorem bind {f : α → Typing β} {R : β → Buffer → Prop} (hm : Yields P m Q)
    (hf : ∀ a, Yields (Q a) (f a) R) : Yields P (m >>= f) R := Meets.bind hm (fun _ _ h => h) hf

theorem discard {Q : Buffer → Prop} (hm : Yields P m fun _ => Q) :
    Yields P (discard m) fun _ => Q := bind hm fun _ => pure fun _ h => h

theorem ite {c : Prop} [Decidable c] {n : Typing α} (hm : c → Yields P m Q)
    (hn : ¬ c → Yields P n Q) : Yields P (if c then m else n) Q := by
  split
  · exact hm ‹_›
  · exact hn ‹_›

theorem require (h : ∀ b found b', P b → b.reply p = (.ok found, b') → R found b') :
    Yields P (require p) R :=
  Meets.require (fun _ _ => trivial) (fun _ _ => rfl) h fun _ _ _ _ hb =>
    Buffer.isGone_of_reply (congrArg Prod.fst hb)

theorem tryRun (h : ∀ b, P b → R (b.run command).1 (b.run command).2) :
    Yields P (tryRun command) R := by
  refine Meets.tryRun (fun _ _ => trivial) (fun _ _ => rfl) (fun b found b' hb hr => ?_)
    fun b e b' _ hr => ?_
  · have hreply : (Except.ok (b.run command).1, (b.run command).2) = (.ok found, b') :=
      (b.reply_run command).symm.trans hr
    cases hreply
    exact h b hb
  · have hreply : (Except.ok (b.run command).1, (b.run command).2) = (.error e, b') :=
      (b.reply_run command).symm.trans hr
    cases hreply

theorem find {needle : Text} (h : ∀ b, P b → R (b.find needle .forward).1
      (b.find needle .forward).2) : Yields P (bestEffort (.findText needle .forward)) R := by
  refine Meets.bestEffort (fun _ _ => trivial) (fun _ _ => rfl) (fun b found b' hb hr => ?_)
    fun b e b' _ hr => ?_
  · cases hr
    exact h b hb
  · cases hr

end Yields

/-- What every reply keeps is kept. -/
theorem spares_calmly {I : Buffer → Prop} {p : Primitive} (h : ∀ b, I b → I (b.reply p).2) :
    Spares calmly I p where
  allowed _ := trivial
  keeps {b b' r} hb hr := by
    have hreply : b.reply p = (r, b') := hr
    have hkept := h b hb
    rwa [hreply] at hkept

theorem Yields.composes (I : Buffer → Prop) :
    Composes (Spares calmly I) fun α (m : Typing α) => Yields I m fun _ => I :=
  Keeps.composes (fun _ _ he _ => he)
    (fun _ _ _ _ _ hr _ => Buffer.isGone_of_reply (congrArg Prod.fst hr))
    fun _ hp => spares_calmly fun b hb => by rwa [b.reply_format hp]

end Typing

end Scribe
