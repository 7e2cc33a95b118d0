import Mathlib.Control.Monad.Basic
import Scribe.Proofs.Document.Faults
import Scribe.Proofs.Session.Steps

set_option autoImplicit false

/-! # Reattaching in the middle of a run

Which document a session remembers can be read off its turns: it is the last one that it was
attached to by name. A step whose session is lost is tried again in the state from before it, unless
attaching again takes the document for another one than the remembered one. Main statement: with one
document, this happens just when the run names it and it was never attached to by name before. -/

namespace Scribe

variable {σ α β : Type}

/-! ## Remembering -/

/-- The name of the document that a turn attached to. -/
def Turn.attachedName? : Turn → Option Text
  | .ask (.connect (some name)) (.ok ()) => some name
  | _ => none

theorem Turn.attachedName?_connect {wanted : Option Text} {answer : Except TargetError Unit}
    {name : Text} : (Turn.ask (.connect wanted) answer).attachedName? = some name ↔
      answer = .ok () ∧ wanted = some name := by
  cases wanted <;> rcases answer with _ | _ <;> simp [attachedName?]

/-- The document that is remembered behind turns. -/
def rememberedBehind (document : Option Text) (ts : List Turn) : Option Text :=
  ts.foldl (fun document turn => turn.attachedName? <|> document) document

theorem rememberedBehind_append (document : Option Text) (ts us : List Turn) :
    rememberedBehind document (ts ++ us) = rememberedBehind (rememberedBehind document ts) us :=
  List.foldl_append

/-- Turns that attach to nothing by name change nothing. -/
theorem rememberedBehind_of_forall {ts : List Turn} (h : ∀ turn ∈ ts, turn.attachedName? = none)
    (document : Option Text) : rememberedBehind document ts = document := by
  induction ts with
  | nil => rfl
  | cons turn ts ih =>
    rw [List.forall_mem_cons] at h
    show rememberedBehind (turn.attachedName? <|> document) ts = document
    rw [h.1]
    exact ih h.2

/-- Nothing is attached to by typing. -/
theorem Dialogue.Disciplined.attachedName?_turns {d : Dialogue (Typed α)} (hd : d.Disciplined)
    (e : Editor σ) (o : Outside σ) : ∀ turn ∈ d.turns e o, turn.attachedName? = none := by
  induction hd generalizing o with
  | done _ => exact List.forall_mem_nil _
  | @look next s htrue _ ih =>
    simp only [turns, List.forall_mem_cons]
    cases o.token.cancelled with
    | true => exact ⟨rfl, by rw [htrue]; exact List.forall_mem_nil _⟩
    | false => exact ⟨rfl, ih o⟩
  | @call next s p after htrue hfalse _ _ ih =>
    simp only [turns, List.forall_mem_cons]
    cases o.token.cancelled with
    | true => exact ⟨rfl, by rw [htrue]; exact List.forall_mem_nil _⟩
    | false =>
      rw [hfalse]
      simp only [turns, List.forall_mem_cons]
      exact ⟨rfl, rfl, ih _ _⟩

namespace SessionAction

/-- What an action makes a session remember can be read off its turns. -/
def Remembers (e : Editor σ) (m : SessionAction α) : Prop :=
  ∀ s : Session σ, (s.carryOut e m).2.document = rememberedBehind s.document (s.turns e m)

namespace Remembers

variable {e : Editor σ}

theorem pure (a : α) : Remembers e (pure a) := fun _ => rfl

theorem bind {m : SessionAction α} {f : α → SessionAction β} (hm : Remembers e m)
    (hf : ∀ a, Remembers e (f a)) : Remembers e (m >>= f) := by
  intro s
  rw [Session.carryOut_bind, Session.turns_bind, rememberedBehind_append, hf, hm]

theorem attach (document : Option Text) : Remembers e (attach document) := by
  intro s
  rw [carryOut_attach, turns_attach]
  rcases e.connect document s.desk.target with ⟨_ | _, x⟩
  · cases document <;> rfl
  · cases document with
    | none => rfl
    | some name =>
      show (attachedMemory (some name) s.memory).document = some name
      unfold attachedMemory
      split
      · rfl
      · next h =>
        simp only [Option.isSome_some, Bool.true_and, bne_iff_ne, ne_eq, Decidable.not_not] at h
        exact h.symm

theorem isHealthy (document : Option Text) : Remembers e (isHealthy document) := by
  refine .bind (fun _ => rfl) fun memory => ?_
  split
  · refine .bind (fun s => rfl) fun r => ?_
    rcases r with _ | _
    · exact .pure _
    · exact .pure _
  · exact .pure _

theorem ensureAttached (document : Option Text) : Remembers e (ensureAttached document) := by
  refine .bind (.isHealthy document) fun healthy => ?_
  split
  · exact .pure _
  · exact .attach document

variable (t : Typist σ) (document : Option Text)

theorem attempt (step : Step) : Remembers e (attempt t step) := by
  cases step with
  | error _ => exact .pure _
  | ok op =>
    intro s
    obtain ⟨state, hmemory, -⟩ := memory_attempt t e (.ok op) s
    have hdocument := congrArg SessionMemory.document hmemory
    rw [turns_attempt_ok, rememberedBehind_of_forall]
    · exact hdocument
    · exact (Typing.IsDisciplined.operation t op _).attachedName?_turns e _

theorem typeStep (index : Nat) (step : Step) : Remembers e (typeStep t document index step) := by
  refine .bind (.attempt t step) fun r => ?_
  rcases r with (_ | error | _) | _
  · exact .pure _
  · simp only
    split
    · refine .bind (.attach document) fun r => ?_
      rcases r with _ | _
      · exact .pure _
      · refine .bind (.attempt t step) fun r => ?_
        rcases r with _ | _
        · exact .pure _
        · exact .pure _
    · exact .pure _
  · exact .pure _
  · exact .pure _

theorem typeSteps (index : Nat) (reattached : Bool) (steps : List Step) :
    Remembers e (typeSteps t document index reattached steps) := by
  induction steps generalizing index reattached with
  | nil => exact .pure _
  | cons step steps ih =>
    refine .bind (.typeStep t document index step) fun r => ?_
    rcases r with _ | again
    · exact .pure _
    · exact ih _ _

theorem typeScript (repairs : Pipeline) (script : Text) :
    Remembers e (typeScript t repairs script document) := by
  simp only [SessionAction.typeScript]
  split
  · exact .pure _
  · refine .bind (fun _ => rfl) fun cancelled => ?_
    split
    · exact .pure _
    · refine .bind (.ensureAttached document) fun r => ?_
      rcases r with _ | _
      · exact .pure _
      · refine .bind (.typeSteps t document 0 false _) fun r => ?_
        rcases r with _ | _
        · exact .pure _
        · exact .pure _

end Remembers

end SessionAction

/-! ## One document -/

namespace Document

variable (c : Connection)

theorem name_perform (p : Primitive) (doc : Document) : (doc.perform p).2.name = doc.name := by
  have hadmission : (doc.admission p.action).2.name = doc.name := by
    unfold admission
    split
    · rfl
    · split <;> rfl
  have heffect (doc : Document) : (doc.effect p).2.name = doc.name := by
    rcases effect_cases p with ⟨_, h⟩ | ⟨_, h⟩ | ⟨_, h⟩ <;> rw [h]
  unfold perform
  split
  · next h => exact (congrArg (·.2.name) h).symm.trans hadmission
  · next h => exact (heffect _).trans ((congrArg (·.2.name) h).symm.trans hadmission)

/-- Attaching leaves the name, and succeeds only where it is the wanted one. -/
theorem name_connect (wanted : Option Text) (doc : Document) :
    (doc.connect c wanted).2.name = doc.name ∧
      ∀ name, (doc.connect c wanted).1 = .ok () → wanted = some name → name = doc.name := by
  have hrevive : (if c.revives then doc.revive else doc).name = doc.name := by split <;> rfl
  simp only [connect]
  generalize (if c.revives then doc.revive else doc) = doc' at hrevive ⊢
  split
  · exact ⟨hrevive, nofun⟩
  · split
    · exact ⟨hrevive, nofun⟩
    · next hfilter =>
      refine ⟨by split <;> exact hrevive, ?_⟩
      rintro name - rfl
      simpa [hrevive] using hfilter

/-- A document keeps its name, and it is the only name that is attached to. -/
theorem name_hold (d : Dialogue α) (o : Outside Document) :
    (d.hold (editor c) o).2.target.name = o.target.name ∧
      ∀ turn ∈ d.turns (editor c) o, ∀ name, turn.attachedName? = some name →
        name = o.target.name := by
  induction d generalizing o with
  | done _ => exact ⟨rfl, List.forall_mem_nil _⟩
  | look next ih =>
    obtain ⟨hname, hturns⟩ := ih o.token.cancelled o
    exact ⟨hname, List.forall_mem_cons.2 ⟨nofun, hturns⟩⟩
  | ask r next ih =>
    obtain ⟨hname, hturns⟩ := ih (o.answer (editor c) r).1 (o.answer (editor c) r).2
    have hkeep : (o.answer (editor c) r).2.target.name = o.target.name := by
      cases r with
      | call p => exact name_perform p _
      | identity => rfl
      | connect wanted => exact (name_connect c wanted _).1
    rw [hkeep] at hname hturns
    refine ⟨hname, List.forall_mem_cons.2 ⟨fun name h => ?_, hturns⟩⟩
    cases r with
    | call p => cases h
    | identity => cases h
    | connect wanted =>
      obtain ⟨hok, hwanted⟩ := Turn.attachedName?_connect.1 h
      exact (name_connect c wanted _).2 name hok hwanted

end Document

/-! ## Histories -/

/-- What is done with a session. -/
inductive SessionEvent where
  | attach (document : Option Text)
  | close
  | run (script : Text) (document : Option Text)
  /-- Past the session: the document is changed, but not renamed, and so is the token. -/
  | outside (target : Document) (token : Token)

/-- What an event makes of a session, with the turns that it takes. -/
def SessionEvent.happen (t : Typist Document) (repairs : Pipeline) :
    SessionEvent → Session Document → List Turn × Session Document
  | .attach document, s =>
    (s.turns t.editor (SessionAction.attach document), (s.attach t document).2)
  | .close, s => ([], s.close)
  | .run script document, s =>
    (s.turns t.editor (SessionAction.typeScript t repairs script document),
      (s.run t repairs script document).2)
  | .outside target token, s =>
    ([], { s with desk :=
      { s.desk with target := { target with name := s.desk.target.name }, token } })

namespace Session

/-- A session that was never attached. -/
def fresh (doc : Document) : Session Document := { desk := { target := doc } }

/-- What a history makes of a session, with the turns that it takes. -/
def live (t : Typist Document) (repairs : Pipeline) :
    List SessionEvent → Session Document → List Turn × Session Document
  | [], s => ([], s)
  | event :: events, s =>
    let (ts, s) := event.happen t repairs s
    let (later, s) := live t repairs events s
    (ts ++ later, s)

/-- A session and its turns agree: the document keeps its name, and what is remembered can be read
    off the turns. -/
structure Agrees (name : Text) (ts : List Turn) (s : Session Document) : Prop where
  isNamed : s.desk.target.name = name
  remembers : s.document = rememberedBehind none ts
  attaches : ∀ turn ∈ ts, ∀ n, turn.attachedName? = some n → n = name

variable {name : Text} {ts : List Turn} {s : Session Document}

theorem Agrees.carryOut (h : Agrees name ts s) (c : Document.Connection) {m : SessionAction α}
    (hm : m.Remembers (Document.editor c)) {a : α} {s' : Session Document}
    (hrun : s.carryOut (Document.editor c) m = (a, s')) :
    Agrees name (ts ++ s.turns (Document.editor c) m) s' := by
  obtain rfl : (s.carryOut (Document.editor c) m).2 = s' := congrArg Prod.snd hrun
  obtain ⟨hname, hturns⟩ := Document.name_hold c (m.run s.memory) s.outside
  refine ⟨hname.trans h.isNamed, ?_, fun turn hturn n hn => ?_⟩
  · rw [hm s, rememberedBehind_append, h.remembers]
  · rcases List.mem_append.1 hturn with hturn | hturn
    · exact h.attaches turn hturn n hn
    · exact (hturns turn hturn n hn).trans h.isNamed

/-- The document is remembered once it was attached to by name. -/
theorem Agrees.document_eq (h : Agrees name ts s) :
    s.document = if ∃ turn ∈ ts, turn.attachedName?.isSome then some name else none := by
  have behind (document : Option Text) : rememberedBehind document ts =
      if ∃ turn ∈ ts, turn.attachedName?.isSome then some name else document := by
    have hattaches := h.attaches
    clear h
    induction ts generalizing document with
    | nil => simp [rememberedBehind]
    | cons turn ts ih =>
      rw [List.forall_mem_cons] at hattaches
      show rememberedBehind (turn.attachedName? <|> document) ts = _
      rw [ih _ hattaches.2]
      cases hturn : turn.attachedName? with
      | none => simp [hturn]
      | some n =>
        obtain rfl := hattaches.1 n hturn
        simp [hturn]
  rw [h.remembers, behind]

theorem Agrees.live (h : Agrees name ts s) (c : Document.Connection) (settings : Settings)
    (convert : Text → Nat → Text) (repairs : Pipeline) (events : List SessionEvent) :
    Agrees name (ts ++ (live (Document.typist c settings convert) repairs events s).1)
      (live (Document.typist c settings convert) repairs events s).2 := by
  induction events generalizing ts s with
  | nil => simpa [Session.live] using h
  | cons event events ih =>
    have happens : Agrees name
        (ts ++ (event.happen (Document.typist c settings convert) repairs s).1)
        (event.happen (Document.typist c settings convert) repairs s).2 := by
      cases event with
      | attach document => exact h.carryOut c (.attach document) rfl
      | close =>
        simp only [SessionEvent.happen, List.append_nil]
        exact ⟨h.isNamed, h.remembers, h.attaches⟩
      | run script document => exact h.carryOut c (.typeScript _ document repairs script) rfl
      | outside target token =>
        simp only [SessionEvent.happen, List.append_nil]
        exact ⟨h.isNamed, h.remembers, h.attaches⟩
    rw [Session.live]
    simpa only [List.append_assoc] using ih happens

end Session

/-! ## Reattaching -/

/-- In a run of a plan, a step that starts from `before` loses its session, the session attaches
    again, and the step is tried once more from `resumed`; `ts` are the turns of the run before the
    step. -/
inductive Reattaches (t : Typist Document) (plan : Plan) (document : Option Text)
    (s : Session Document) (ts : List Turn) (before resumed : Session Document) : Prop
  | intro {k : Nat} {step : Step} {again : Bool} {e : TypingError} {s₁ lost : Session Document} :
    plan.steps[k]? = some step →
    s.carryOut t.editor (SessionAction.ensureAttached document) = (.ok (), s₁) →
    s₁.carryOut t.editor (SessionAction.typeSteps t document 0 false (plan.steps.take k)) =
      (.ok again, before) →
    ts = s.turns t.editor (SessionAction.ensureAttached document) ++
      s₁.turns t.editor (SessionAction.typeSteps t document 0 false (plan.steps.take k)) →
    before.carryOut t.editor (SessionAction.attempt t step) = (.error (.typing e), lost) →
    e.isGone →
    lost.carryOut t.editor (SessionAction.attach document) = (.ok (), resumed) →
    Reattaches t plan document s ts before resumed

/-- An operation that is resumed starts from the state that held before it was first attempted, just
    when the run names no document, or the document had been attached to by name, or that state is a
    fresh one. -/
theorem Reattaches.state_eq_iff {c : Document.Connection} {settings : Settings}
    {convert : Text → Nat → Text} {repairs : Pipeline} {events : List SessionEvent} {doc : Document}
    {plan : Plan} {document : Option Text} {ts : List Turn} {before resumed : Session Document}
    (h : Reattaches (Document.typist c settings convert) plan document
      (Session.live (Document.typist c settings convert) repairs events (.fresh doc)).2 ts before
      resumed) :
    resumed.desk.state = before.desk.state ↔
      document = none ∨
      (∃ turn ∈ (Session.live (Document.typist c settings convert) repairs events (.fresh doc)).1
        ++ ts, turn.attachedName?.isSome) ∨
      before.desk.state = {} := by
  obtain ⟨-, hattach, htyped, rfl, hlost, he, hre⟩ := h
  let t := Document.typist c settings convert
  have hfresh : Session.Agrees doc.name [] (.fresh doc) := ⟨rfl, rfl, List.forall_mem_nil _⟩
  -- what is remembered where the step starts can be read off all turns before it
  have hbefore := ((hfresh.live c settings convert repairs events).carryOut c
    (.ensureAttached document) hattach).carryOut c (.typeSteps t document 0 false _) htyped
  have hname := (hbefore.carryOut c (.attempt t _) hlost).isNamed
  rw [List.nil_append, List.append_assoc] at hbefore
  have hremembered := hbefore.document_eq
  obtain ⟨hstate, hok⟩ := SessionAction.state_of_attach_ok hre
  -- attaching by name succeeds for the name of the document only
  have hnamed : ∀ name, document = some name → name = doc.name := fun name h =>
    ((Document.name_connect c document _).2 name hok h).trans hname
  rw [hstate, SessionAction.memory_of_attempt_gone hlost he]
  cases document with
  | none => exact iff_of_true rfl (.inl rfl)
  | some name =>
    obtain rfl := hnamed name rfl
    have hkept : (SessionAction.attachedMemory (some doc.name) before.memory).state =
        if before.document = some doc.name then before.desk.state else {} := by
      unfold SessionAction.attachedMemory Session.memory
      by_cases hdocument : before.document = some doc.name
      · simp [hdocument]
      · simp [hdocument, Ne.symm hdocument]
    rw [hkept, hremembered]
    split
    · next hturn => exact iff_of_true (if_pos rfl) (.inr (.inl hturn))
    · next hturn =>
      simp only [reduceCtorEq, if_false, false_or]
      rw [or_iff_right hturn]
      exact eq_comm

/-! ## A state that is lost -/

/-- A document is attached to, but not by name, and dies behind the next call. -/
def namelessEvents : List SessionEvent :=
  [ .attach none,
    .outside ((Document.withStandardFragments "doc.hwp".toList).inject ⟨.disconnect, 1⟩) {} ]

def namelessSession : Session Document :=
  (Session.live (Document.typist {} {} fun latex _ => latex) .full namelessEvents
    (.fresh (.withStandardFragments "doc.hwp".toList))).2

/-- Bold text. -/
def boldPlan : Plan where
  tier := .primary
  steps := [.ok (.setBold true), .ok (.insertText ['a'])]

theorem reattaches_boldPlan : ∃ ts before resumed,
    Reattaches (Document.typist {} {} fun latex _ => latex) boldPlan (some "doc.hwp".toList)
      namelessSession ts before resumed ∧
    before.desk.state.bold = true ∧ resumed.desk.state.bold = false := by
  let t := Document.typist {} {} fun latex _ => latex
  let s := namelessSession
  let document := some "doc.hwp".toList
  let attached := (s.carryOut t.editor (SessionAction.ensureAttached document)).2
  let before := (attached.carryOut t.editor
    (SessionAction.typeSteps t document 0 false (boldPlan.steps.take 1))).2
  let lost := (before.carryOut t.editor (SessionAction.attempt t (.ok (.insertText ['a'])))).2
  let resumed := (lost.carryOut t.editor (SessionAction.attach document)).2
  have pair {α : Type} {m : SessionAction α} {s : Session Document} {a : α}
      (h : (s.carryOut t.editor m).1 = a) :
      s.carryOut t.editor m = (a, (s.carryOut t.editor m).2) :=
    Prod.ext h rfl
  have hattach : s.carryOut t.editor (SessionAction.ensureAttached document) = (.ok (), attached) :=
    pair (by decide +kernel)
  have htyped : attached.carryOut t.editor
      (SessionAction.typeSteps t document 0 false (boldPlan.steps.take 1)) = (.ok false, before) :=
    pair (by decide +kernel)
  have hlost : before.carryOut t.editor (SessionAction.attempt t (.ok (.insertText ['a']))) =
      (.error (.typing (.target .gone)), lost) := pair (by decide +kernel)
  have hresumed : lost.carryOut t.editor (SessionAction.attach document) = (.ok (), resumed) :=
    pair (by decide +kernel)
  have hbold : before.desk.state.bold = true ∧ resumed.desk.state.bold = false := by decide +kernel
  have hstep : boldPlan.steps[1]? = some (.ok (.insertText ['a'])) := rfl
  exact ⟨_, before, resumed, .intro hstep hattach htyped rfl hlost rfl hresumed, hbold⟩

theorem state_eq_iff_boldPlan : ∃ ts before resumed,
    Reattaches (Document.typist {} {} fun latex _ => latex) boldPlan (some "doc.hwp".toList)
      namelessSession ts before resumed ∧
    (resumed.desk.state = before.desk.state ↔ some "doc.hwp".toList = none ∨
      (∃ turn ∈ (Session.live (Document.typist {} {} fun latex _ => latex) .full namelessEvents
        (.fresh (.withStandardFragments "doc.hwp".toList))).1 ++ ts, turn.attachedName?.isSome) ∨
      before.desk.state = {}) := by
  obtain ⟨ts, before, resumed, h, -⟩ := reattaches_boldPlan
  exact ⟨ts, before, resumed, h, Reattaches.state_eq_iff h⟩

/-- Text that is resumed in a document named for the first time is not bold any more. -/
theorem boldPlan_forgets : ∃ ts before resumed,
    Reattaches (Document.typist {} {} fun latex _ => latex) boldPlan (some "doc.hwp".toList)
      namelessSession ts before resumed ∧ resumed.desk.state ≠ before.desk.state := by
  obtain ⟨ts, before, resumed, h, hbefore, hresumed⟩ := reattaches_boldPlan
  refine ⟨ts, before, resumed, h, fun hstate => ?_⟩
  rw [hstate, hbefore] at hresumed
  cases hresumed

example : (namelessSession.run (Document.typist {} {} fun latex _ => latex) .full
    "set_bold(True)\ninsert_text('a')".toList (some "doc.hwp".toList)).2.desk.state.bold = false :=
  by decide +kernel

end Scribe
