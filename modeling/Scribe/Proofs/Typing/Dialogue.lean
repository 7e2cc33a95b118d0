import Scribe.Typing.Dialogue

set_option autoImplicit false

/-! # How dialogues are held

Dialogues compose: what one dialogue after another does is what the first does and then the second.
The requests of a dialogue alone say what becomes of the target.

A dialogue heeds its token when each call is sent right behind a look that saw no cancellation, a
look that sees one ends the dialogue as stopped, and nothing else does. Main statement: a controller
that cancels when the `n`-th call returns cuts such a dialogue off at its first look behind that
call, and leaves it as it is when there is no such look. -/

namespace Scribe

variable {σ α β : Type} (e : Editor σ)

/-! ## Composition -/

namespace Dialogue

theorem bind_assoc {γ : Type} (d : Dialogue α) (f : α → Dialogue β) (g : β → Dialogue γ) :
    (d.bind f).bind g = d.bind fun a => (f a).bind g := by
  induction d with
  | done a => rfl
  | look next ih => exact congrArg Dialogue.look (funext fun b => ih b)
  | ask r next ih => exact congrArg (Dialogue.ask r) (funext fun a => ih a)

theorem hold_bind (d : Dialogue α) (f : α → Dialogue β) (o : Outside σ) :
    (d.bind f).hold e o = (f (d.hold e o).1).hold e (d.hold e o).2 := by
  induction d generalizing o with
  | done a => rfl
  | look next ih => exact ih _ _
  | ask r next ih => exact ih _ _

theorem turns_bind (d : Dialogue α) (f : α → Dialogue β) (o : Outside σ) :
    (d.bind f).turns e o = d.turns e o ++ (f (d.hold e o).1).turns e (d.hold e o).2 := by
  induction d generalizing o with
  | done a => rfl
  | look next ih => exact congrArg (_ :: ·) (ih _ _)
  | ask r next ih => exact congrArg (_ :: ·) (ih _ _)

end Dialogue

/-! ## Requests and calls of turns -/

namespace Turn

/-- The request of a turn. -/
def request? : Turn → Option Request
  | .look _ => none
  | .ask r _ => some r

/-- The call of a turn with its answer. -/
def call? : Turn → Option (Primitive × Except TargetError Bool)
  | .ask (.call p) answer => some (p, answer)
  | _ => none

/-- Is a turn a look? -/
def isLook : Turn → Bool
  | .look _ => true
  | .ask _ _ => false

/-- The turns behind the `n`-th call. -/
def behindCalls : Nat → List Turn → List Turn
  | 0, ts => ts
  | _ + 1, [] => []
  | n + 1, t :: ts => if t.call?.isSome then behindCalls n ts else behindCalls (n + 1) ts

end Turn

/-- The requests of turns. -/
def requestsOf (ts : List Turn) : List Request := ts.filterMap Turn.request?

/-- The calls of turns, with their answers. -/
def callsOf (ts : List Turn) : List (Primitive × Except TargetError Bool) :=
  ts.filterMap Turn.call?

@[simp] theorem callsOf_nil : callsOf [] = [] := rfl

@[simp] theorem callsOf_look (b : Bool) (ts : List Turn) :
    callsOf (.look b :: ts) = callsOf ts := rfl

@[simp] theorem callsOf_call (p : Primitive) (r : Except TargetError Bool) (ts : List Turn) :
    callsOf (.ask (.call p) r :: ts) = (p, r) :: callsOf ts := rfl

theorem callsOf_ask {r : Request} (hr : r.isCall = false) (x : r.Answer) (ts : List Turn) :
    callsOf (.ask r x :: ts) = callsOf ts := by
  cases r with
  | call p => cases hr
  | identity => rfl
  | connect d => rfl

@[simp] theorem Turn.behindCalls_zero (ts : List Turn) : behindCalls 0 ts = ts := by
  cases ts <;> rfl

@[simp] theorem Turn.behindCalls_nil (n : Nat) : behindCalls n [] = [] := by cases n <;> rfl

theorem Turn.behindCalls_ask {r : Request} (hr : r.isCall = false) (x : r.Answer) (n : Nat)
    (ts : List Turn) : behindCalls n ts <:+ behindCalls n (.ask r x :: ts) := by
  cases n with
  | zero => simp
  | succ n =>
    cases r with
    | call p => cases hr
    | identity => exact List.suffix_rfl
    | connect d => exact List.suffix_rfl

/-- What requests make of a target. -/
def Editor.after (rs : List Request) (x : σ) : σ := rs.foldl (fun x r => (e.answer r x).2) x

/-- What becomes of a target is up to the requests. -/
theorem Dialogue.target_hold (d : Dialogue α) (o : Outside σ) :
    (d.hold e o).2.target = e.after (requestsOf (d.turns e o)) o.target := by
  induction d generalizing o with
  | done a => rfl
  | look next ih => exact ih _ _
  | ask r next ih => exact ih _ _

/-! ## Heeding the token -/

namespace Dialogue

/-- A dialogue heeds its token: each call is sent right behind a look that saw no cancellation, a
    look that sees one ends the dialogue with a stopped result, and nothing else does. -/
inductive Heeds (Stopped : α → Prop) : Dialogue α → Prop
  | done {a : α} : ¬ Stopped a → Heeds Stopped (.done a)
  | look {next : Bool → Dialogue α} {a : α} :
    next true = .done a → Stopped a → Heeds Stopped (next false) → Heeds Stopped (.look next)
  | call {next : Bool → Dialogue α} {a : α} {p : Primitive}
      {after : Except TargetError Bool → Dialogue α} :
    next true = .done a → Stopped a → next false = .ask (.call p) after →
    (∀ r, Heeds Stopped (after r)) → Heeds Stopped (.look next)
  | ask {r : Request} {next : r.Answer → Dialogue α} :
    r.isCall = false → (∀ a, Heeds Stopped (next a)) → Heeds Stopped (.ask r next)

/-- One heeding dialogue after another, when the first is stopped for both. -/
theorem Heeds.bind {Stopped : α → Prop} {Stopped' : β → Prop} {d : Dialogue α}
    {f : α → Dialogue β} (hd : d.Heeds Stopped)
    (stop : ∀ a, Stopped a → ∃ b, f a = .done b ∧ Stopped' b)
    (hf : ∀ a, ¬ Stopped a → (f a).Heeds Stopped') : (d.bind f).Heeds Stopped' := by
  induction hd with
  | done ha => exact hf _ ha
  | @look next a htrue ha _ ih =>
    obtain ⟨b, hb, hs⟩ := stop a ha
    exact .look (by rw [htrue]; exact hb) hs ih
  | @call next a p after htrue ha hfalse _ ih =>
    obtain ⟨b, hb, hs⟩ := stop a ha
    exact .call (by rw [htrue]; exact hb) hs (by rw [hfalse]; rfl) ih
  | ask hr _ ih => exact .ask hr ih

end Dialogue

/-! ## Dialogues among others -/

namespace Dialogue

/-- A dialogue, and the target it is about, some turns later. Others may act on the token between
    any two turns, so a look sees what it sees. -/
inductive Passes (d : Dialogue α) (x : σ) : List Turn → Dialogue α → σ → Prop
  | start : Passes d x [] d x
  | look {ts : List Turn} {next : Bool → Dialogue α} {x' : σ} (b : Bool) :
    Passes d x ts (.look next) x' → Passes d x (ts ++ [.look b]) (next b) x'
  | ask {ts : List Turn} {r : Request} {next : r.Answer → Dialogue α} {x' : σ} :
    Passes d x ts (.ask r next) x' →
    Passes d x (ts ++ [.ask r (e.answer r x').1]) (next (e.answer r x').1) (e.answer r x').2

/-- A heeding dialogue that has not been stopped: it heeds its token, or is about to make the call
    that it looked for. -/
inductive GoesOn (Stopped : α → Prop) : Dialogue α → Prop
  | heeds {d : Dialogue α} : d.Heeds Stopped → GoesOn Stopped d
  | call {p : Primitive} {after : Except TargetError Bool → Dialogue α} :
    (∀ r, (after r).Heeds Stopped) → GoesOn Stopped (.ask (.call p) after)

variable {e} {Stopped : α → Prop} {d d' : Dialogue α} {x x' : σ} {ts : List Turn}

/-- A heeding dialogue goes on until a look sees a cancellation, which ends it as stopped. -/
theorem Heeds.passes (hd : d.Heeds Stopped) (h : Passes e d x ts d' x') :
    (.look true ∉ ts ∧ GoesOn Stopped d') ∨
    (.look true ∈ ts ∧ ∃ a, d' = .done a ∧ Stopped a) := by
  induction h with
  | start => exact .inl ⟨List.not_mem_nil, .heeds hd⟩
  | @look ts next x' b _ ih =>
    rcases ih with ⟨hts, hgoes⟩ | ⟨-, _, hdone, -⟩
    · cases hgoes with
      | heeds hlook =>
        cases b with
        | true =>
          refine .inr ⟨by simp, ?_⟩
          -- Whatever the look stands in front of, one that sees the cancellation ends the dialogue.
          cases hlook with
          | look htrue ha _ => exact ⟨_, htrue, ha⟩
          | call htrue ha _ _ => exact ⟨_, htrue, ha⟩
        | false =>
          refine .inl ⟨by simpa using hts, ?_⟩
          cases hlook with
          | look _ _ hfalse => exact .heeds hfalse
          | call _ _ hfalse hafter => exact hfalse ▸ .call hafter
    · cases hdone
  | ask _ ih =>
    rcases ih with ⟨hts, hgoes⟩ | ⟨-, _, hdone, -⟩
    · refine .inl ⟨by simpa using hts, .heeds ?_⟩
      cases hgoes with
      | heeds hask =>
        cases hask with
        | ask _ hnext => exact hnext _
      | call hafter => exact hafter _
    · cases hdone

/-- A heeding dialogue is stopped exactly when a look saw a cancellation. -/
theorem Heeds.stopped_iff (hd : d.Heeds Stopped) {a : α} (h : Passes e d x ts (.done a) x') :
    Stopped a ↔ .look true ∈ ts := by
  rcases hd.passes h with ⟨hts, hgoes⟩ | ⟨hts, b, hb, hstopped⟩
  · cases hgoes with
    | heeds hdone =>
      cases hdone with
      | done ha => exact iff_of_false ha hts
  · cases hb
    exact iff_of_true hstopped hts

end Dialogue

/-! ## Cutting a dialogue off -/

/-- A controller waits for nothing and has not cancelled. -/
structure Token.IsFree (t : Token) : Prop where
  cancelled : t.cancelled = false
  trigger : t.trigger = none

/-- The token of a controller that cancels when so many further calls have returned. -/
def Token.armed (t : Token) (n : Nat) : Token := t.arm (.afterCalls n)

namespace Token

variable {t : Token}

theorem IsFree.answered (h : t.IsFree) (r : Request) : t.answered r = t := by
  cases r <;> simp [Token.answered, reach, tick, h.trigger]

theorem cancelled_armed_succ (t : Token) (n : Nat) :
    (t.armed (n + 1)).cancelled = t.cancelled := rfl

theorem cancelled_armed_zero (t : Token) : (t.armed 0).cancelled = true := rfl

theorem answered_armed_succ (t : Token) (n : Nat) (p : Primitive) :
    (t.armed (n + 1)).answered (.call p) = t.armed n := by
  cases n <;> rfl

theorem answered_of_isCall {r : Request} (h : r.isCall = false) (t : Token) :
    t.answered r = t := by
  cases r <;> simp_all [Token.answered, Request.isCall]

end Token

/-- Only a controller changes a token. -/
theorem Dialogue.token_hold (d : Dialogue α) {o : Outside σ} (h : o.token.IsFree) :
    (d.hold e o).2.token = o.token := by
  induction d generalizing o with
  | done a => rfl
  | look next ih => exact ih _ h
  | ask r next ih =>
    have hr : (o.answer e r).2.token = o.token := h.answered r
    have hfree : (o.answer e r).2.token.IsFree := hr ▸ h
    exact (ih _ hfree).trans hr

/-- The same target, with a controller that cancels when so many further calls have returned. -/
def Outside.armed (o : Outside σ) (n : Nat) : Outside σ := { o with token := o.token.armed n }

/-- How a dialogue goes (`whole`, with its result) and how it goes when it is cut off at its first
    look behind the `n`-th call (`cut`, with its result). -/
inductive CutsOff (Stopped : α → Prop) : Nat → List Turn → α → List Turn → α → Prop
  | done {n : Nat} {a : α} : CutsOff Stopped n [] a [] a
  | stop {b : Bool} {whole : List Turn} {a c : α} :
    Stopped c → CutsOff Stopped 0 (.look b :: whole) a [.look true] c
  | look {n : Nat} {whole cut : List Turn} {a c : α} :
    CutsOff Stopped (n + 1) whole a cut c →
    CutsOff Stopped (n + 1) (.look false :: whole) a (.look false :: cut) c
  | call {n : Nat} {p : Primitive} {r : Except TargetError Bool} {whole cut : List Turn} {a c : α} :
    CutsOff Stopped n whole a cut c →
    CutsOff Stopped (n + 1) (.ask (.call p) r :: whole) a (.ask (.call p) r :: cut) c
  | ask {n : Nat} {r : Request} {x : r.Answer} {whole cut : List Turn} {a c : α} :
    r.isCall = false → CutsOff Stopped n whole a cut c →
    CutsOff Stopped n (.ask r x :: whole) a (.ask r x :: cut) c

/-- A controller that cancels when the `n`-th call returns cuts a heeding dialogue off. -/
theorem Dialogue.Heeds.cutsOff {Stopped : α → Prop} {d : Dialogue α} (hd : d.Heeds Stopped)
    {o : Outside σ} (ho : o.token.IsFree) (n : Nat) :
    CutsOff Stopped n (d.turns e o) (d.hold e o).1 (d.turns e (o.armed n))
      (d.hold e (o.armed n)).1 := by
  induction hd generalizing o n with
  | done _ => exact .done
  | @look next a htrue ha _ ih =>
    simp only [turns, hold, ho.cancelled]
    -- With no call left to wait for, the look sees the cancellation.
    cases n with
    | zero =>
      simp only [Outside.armed, Token.cancelled_armed_zero, htrue, turns, hold]
      exact .stop ha
    | succ n =>
      simp only [Outside.armed, Token.cancelled_armed_succ, ho.cancelled]
      exact .look (ih ho (n + 1))
  | @call next a p after htrue ha hfalse _ ih =>
    simp only [turns, hold, ho.cancelled]
    cases n with
    | zero =>
      simp only [Outside.armed, Token.cancelled_armed_zero, htrue, turns, hold]
      exact .stop ha
    | succ n =>
      simp only [Outside.armed, Token.cancelled_armed_succ, ho.cancelled, hfalse, turns, hold,
        Outside.answer, Token.answered_armed_succ, ho.answered]
      exact .look (.call (ih _ (o := ⟨(e.answer (.call p) o.target).2, o.token⟩) ho n))
  | @ask r next hr _ ih =>
    simp only [turns, hold, Outside.armed, Outside.answer, Token.answered_of_isCall hr]
    exact .ask hr (ih _ (o := ⟨(e.answer r o.target).2, o.token⟩) ho n)

namespace CutsOff

variable {Stopped : α → Prop} {n : Nat} {whole cut : List Turn} {a c : α}

/-- The calls of a dialogue that is cut off are the first ones, with the same answers. -/
theorem callsOf_eq (h : CutsOff Stopped n whole a cut c) :
    callsOf cut = (callsOf whole).take n := by
  induction h with
  | done => simp
  | stop _ => simp
  | look _ ih => simpa using ih
  | call _ ih => simpa using ih
  | ask hr _ ih => rw [callsOf_ask hr, callsOf_ask hr, ih]

theorem requestsOf_prefix (h : CutsOff Stopped n whole a cut c) :
    requestsOf cut <+: requestsOf whole := by
  induction h with
  | done => exact List.nil_prefix
  | stop _ => exact List.nil_prefix
  | look _ ih => exact ih
  | call _ ih => exact (List.prefix_cons_inj _).2 ih
  | ask _ _ ih => exact (List.prefix_cons_inj _).2 ih

/-- Without a look behind the call, nothing is cut off. -/
theorem result_eq (h : CutsOff Stopped n whole a cut c)
    (hlook : ∀ t ∈ Turn.behindCalls n whole, t.isLook = false) : c = a := by
  induction h with
  | done => rfl
  | stop _ => simp [Turn.isLook] at hlook
  | look _ ih => exact ih hlook
  | call _ ih => exact ih hlook
  | @ask n r x _ _ _ _ hr _ ih =>
    exact ih fun t ht => hlook t ((Turn.behindCalls_ask hr x n _).subset ht)

/-- A look behind the call stops the dialogue. -/
theorem stopped (h : CutsOff Stopped n whole a cut c)
    (hlook : ∃ t ∈ Turn.behindCalls n whole, t.isLook = true) : Stopped c := by
  induction h with
  | done => simp at hlook
  | stop hc => exact hc
  | look _ ih => exact ih hlook
  | call _ ih => exact ih hlook
  | @ask n r x _ _ _ _ hr _ ih =>
    refine ih ?_
    cases n with
    | zero => simpa [Turn.isLook] using hlook
    | succ n =>
      cases r with
      | call p => cases hr
      | identity => exact hlook
      | connect d => exact hlook

end CutsOff

end Scribe
