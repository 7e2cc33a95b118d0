import Scribe.Proofs.Session.Lives
import Scribe.Proofs.Typing.Selecting

set_option autoImplicit false

/-! # What was typed remains

Main statement: in the life of a document every element stays, in its place among the others, until
a call takes it out for one of two reasons. Either a search for a marker matched it, for an
operation that focuses a placeholder or cleans up behind a template. Or it is an equation that an
attempt at an operation left selected when it ended in an error: the call then puts something in its
place. -/

namespace Scribe

open Buffer

/-! ## Reasons -/

/-- An attempt at an operation: how it went on a document. -/
structure Attempt where
  typist : Typist Document
  op : Operation
  state : TypingState
  before : Document
  moments : List Moment
  result : Typed Unit
  after : Document
  goes : ((typist.operation op).run.run state).Goes before moments result after

/-- An attempt did not succeed. -/
def Attempt.Failed (a : Attempt) : Prop := ∃ e, a.result.1 = .error e

/-- Among calls are those of an attempt that failed and left selected what is selected. -/
def LeftSelected (ms : List Moment) (b : Buffer) : Prop :=
  ∃ a : Attempt, a.moments <:+: ms ∧ a.Failed ∧ a.after.buffer.SameSelected b

/-- A call searches, for an attempt at an operation that looks for this marker. -/
def SearchedFor (ms : List Moment) (m : Moment) (needle : Text) : Prop :=
  m.call = .findText needle .forward ∧
    ∃ a : Attempt, a.moments <:+: ms ∧ m ∈ a.moments ∧ needle ∈ a.op.markers

/-- Among calls is a search that matched the text which is selected. -/
def Matched (ms : List Moment) (needle : Text) (b : Buffer) : Prop :=
  ∃ f ∈ ms, f.call = .findText needle .forward ∧ f.after.buffer.SameSelected b

/-- Why a call takes out what was selected, given the calls before it. -/
inductive Reason (ms : List Moment) (m : Moment) : Prop
  | marker {needle : Text} :
    m.Takes (needle.map .char) → Matched ms needle m.document.buffer → Reason ms m
  | leftover {text : Text} :
    m.Takes [.equation text] → LeftSelected ms m.document.buffer → Reason ms m

theorem LeftSelected.mono {ms ns : List Moment} {b b' : Buffer} (h : LeftSelected ms b)
    (hms : ms <:+: ns) (hb : b.SameSelected b') : LeftSelected ns b' := by
  obtain ⟨a, hinfix, hfailed, hsame⟩ := h
  exact ⟨a, hinfix.trans hms, hfailed, hsame.trans hb⟩

/-- A selected text was matched by a search. -/
theorem Document.Course.exists_search {x z : Document} {ms : List Moment} (h : Course x ms z)
    (hx : x.buffer.IsProper) (hfresh : x.buffer.selection = none) {start : Nat} {needle : Text}
    (hz : z.buffer.Selects start (needle.map .char)) :
    ∃ f ∈ ms, (∃ direction, f.call = .findText needle direction) ∧
      f.after.buffer.SameSelected z.buffer := by
  have hselected : z.buffer.selection ≠ none := by simp [hz.selection]
  rcases h.origin hx hselected with hsame |
    ⟨f, hf, hsame, ⟨needle', direction, start', hcall, hselects⟩ | ⟨spec, start', -, hselects⟩⟩
  · exact absurd (hsame.selection.symm.trans hfresh) hselected
  · refine ⟨f, hf, ⟨direction, ?_⟩, hsame⟩
    have hneedle := (hselects.of_sameSelected hsame).unique hz
    rw [hcall, (List.map_inj_right fun _ _ h => Element.char.inj h).1 hneedle]
  · exact absurd ⟨start', _, hselects.of_sameSelected hsame⟩
      (not_selectsEquation_of_selectsText ⟨start, needle, hz⟩)

/-! ## Histories -/

/-- What is known of a document and of the calls that reached it so far, counted from a document in
    which nothing was selected. -/
structure Document.Accounts (x : Document) (ms : List Moment) (y : Document) : Prop where
  course : x.Course ms y
  left : y.buffer.SelectsEquation → LeftSelected ms y.buffer
  searched {m : Moment} {needle : Text} {direction : Direction} : m ∈ ms →
    m.call = .findText needle direction → SearchedFor ms m needle
  reasons {before behind : List Moment} {m : Moment} : ms = before ++ m :: behind →
    m.splice.removed ≠ 0 → Reason before m

namespace Document.Accounts

variable {x y z : Document} {ms : List Moment}

theorem start (hfresh : x.buffer.selection = none) : x.Accounts [] x where
  course := .done (.refl x)
  left h := absurd h (not_selectsEquation_of_none hfresh)
  searched hm := absurd hm List.not_mem_nil
  reasons h := by simp at h

theorem of_sameContents (h : x.Accounts ms y) (hyz : y.SameContents z) : x.Accounts ms z where
  course := by simpa using h.course.append (.done hyz)
  left hz := hyz.buffer ▸ h.left (hyz.buffer ▸ hz)
  searched := h.searched
  reasons := h.reasons

/-- The calls of an attempt take out and search for what they may. -/
theorem permits_attempt {a : Attempt} (h : x.Accounts ms a.before) (hx : x.buffer.IsProper) :
    ∀ m ∈ a.moments, Permits a.op.markers a.before.buffer m.call m.document.buffer :=
  (a.goes.of_ensures (Typing.settles_operation a.typist a.op a.state a.before
    ⟨h.course.isProper hx, fun _ => .refl _⟩)).1

theorem searched_attempt {a : Attempt} (h : x.Accounts ms a.before) (hx : x.buffer.IsProper)
    {m : Moment} {needle : Text} {direction : Direction} (hm : m ∈ ms ++ a.moments)
    (hcall : m.call = .findText needle direction) : SearchedFor (ms ++ a.moments) m needle := by
  rcases List.mem_append.1 hm with hm | hm
  · obtain ⟨hforward, a', hinfix, hmem⟩ := h.searched hm hcall
    exact ⟨hforward, a', hinfix.trans (List.prefix_append _ _).isInfix, hmem⟩
  · obtain ⟨rfl, hneedle⟩ := (h.permits_attempt hx m hm).searches hcall
    exact ⟨hcall, a, (List.suffix_append _ _).isInfix, hm, hneedle⟩

/-- The calls of an attempt take out nothing but what was selected. -/
theorem reason_attempt {a : Attempt} (h : x.Accounts ms a.before) (hx : x.buffer.IsProper)
    (hfresh : x.buffer.selection = none) {mid behind : List Moment} {m : Moment}
    (hsplit : a.moments = mid ++ m :: behind) (hremoved : m.splice.removed ≠ 0) :
    Reason (ms ++ mid) m := by
  have hreached : x.Course (ms ++ mid) m.document := by
    have hcourse := h.course.append a.goes.course
    rw [hsplit, ← List.append_assoc] at hcourse
    exact hcourse.split.1
  have hm : m ∈ a.moments := by simp [hsplit]
  rcases m.takes_of_permits (h.permits_attempt hx m hm) hremoved with
    ⟨needle, htakes⟩ | ⟨⟨text, htakes⟩, hsame⟩
  · obtain ⟨f, hf, ⟨direction, hcall⟩, hmade⟩ := hreached.exists_search hx hfresh htakes.selects
    have hmem : f ∈ ms ++ a.moments := by
      rw [hsplit]
      simp only [List.mem_append] at hf ⊢
      exact hf.imp_right .inl
    exact .marker htakes ⟨f, hf, (h.searched_attempt hx hmem hcall).1, hmade⟩
  · have hbefore : a.before.buffer.SelectsEquation :=
      ⟨_, text, htakes.selects.of_sameSelected hsame⟩
    exact .leftover htakes ((h.left hbefore).mono (List.prefix_append _ _).isInfix hsame.symm)

/-- An attempt that leaves an equation selected failed, or found it selected. -/
theorem left_attempt {a : Attempt} (h : x.Accounts ms a.before) (hx : x.buffer.IsProper)
    (hequation : a.after.buffer.SelectsEquation) :
    LeftSelected (ms ++ a.moments) a.after.buffer := by
  obtain ⟨_, hends⟩ := a.goes.of_ensures (Typing.settles_operation a.typist a.op a.state a.before
    ⟨h.course.isProper hx, fun _ => .refl _⟩)
  cases hresult : a.result.1 with
  | error e => exact ⟨a, (List.suffix_append _ _).isInfix, ⟨e, hresult⟩, .refl _⟩
  | ok _ =>
    rw [hresult] at hends
    have hsame := hends.leftover hequation
    obtain ⟨start, text, hselects⟩ := hequation
    exact (h.left ⟨start, text, hselects.of_sameSelected hsame⟩).mono
      (List.prefix_append _ _).isInfix hsame.symm

theorem attempt {a : Attempt} (h : x.Accounts ms a.before) (hx : x.buffer.IsProper)
    (hfresh : x.buffer.selection = none) : x.Accounts (ms ++ a.moments) a.after where
  course := h.course.append a.goes.course
  left := h.left_attempt hx
  searched := h.searched_attempt hx
  reasons {before behind m} hsplit hremoved := by
    rcases List.append_eq_append_iff.1 hsplit with ⟨mid, rfl, hmid⟩ | ⟨mid, hms, hmid⟩
    · exact h.reason_attempt hx hfresh hmid hremoved
    · cases mid with
      | nil =>
        rw [List.append_nil] at hms
        rw [← hms, ← List.append_nil ms]
        exact h.reason_attempt hx hfresh hmid.symm hremoved
      | cons m' mid =>
        obtain ⟨rfl, -⟩ := List.cons_eq_cons.1 hmid
        exact h.reasons hms hremoved

end Document.Accounts

/-! ## Lives -/

namespace Document

variable {x z : Document} {ms : List Moment}

theorem Lives.accounts (h : x.Lives ms z) (hx : x.buffer.IsProper)
    (hfresh : x.buffer.selection = none) : x.Accounts ms z := by
  refine h.induction (.start hfresh) ⟨fun {t op s r ms ns y z} hy hgoes => ?_, .of_sameContents⟩
  exact hy.attempt (a := ⟨t, op, s, y, ns, r, z, hgoes⟩) hx hfresh

/-- What becomes of the elements that a call `m` finds in a document, and of those that later calls
    find: `before` and `behind` are the calls around it, and `z` is the document in the end. -/
structure Retains (before : List Moment) (m : Moment) (behind : List Moment) (z : Document) :
    Prop where
  /-- An element stays until a call takes it out for a reason. -/
  stays {i : Nat} {e : Element} : m.document.buffer.elements[i]? = some e →
    (∃ j, Splice.followAll? (splicesOf (m :: behind)) i = some j ∧
      z.buffer.elements[j]? = some e) ∨
    ∃ mid taker rest j, m :: behind = mid ++ taker :: rest ∧
      Splice.followAll? (splicesOf mid) i = some j ∧ taker.document.buffer.elements[j]? = some e ∧
      taker.splice.start ≤ j ∧ j < taker.splice.start + taker.splice.removed ∧
      Reason (before ++ mid) taker
  /-- The elements that stay keep their order. -/
  ordered {i i' j j' : Nat} : i < i' → Splice.followAll? (splicesOf (m :: behind)) i = some j →
    Splice.followAll? (splicesOf (m :: behind)) i' = some j' → j < j'
  /-- Only operations that look for a marker search. -/
  searched {f : Moment} {needle : Text} {direction : Direction} : f ∈ before ++ m :: behind →
    f.call = .findText needle direction → SearchedFor (before ++ m :: behind) f needle

/-- In a life of a document every element stays until a call takes it out: as part of a marker that
    a search of an operation matched, or as an equation that a failed attempt left selected. -/
theorem Lives.retains {before behind : List Moment} {m : Moment}
    (h : x.Lives (before ++ m :: behind) z) (hx : x.buffer.IsProper)
    (hfresh : x.buffer.selection = none) : Retains before m behind z := by
  have haccounts := h.accounts hx hfresh
  obtain ⟨hbefore, hbehind⟩ := h.course.split
  refine ⟨fun {i e} hi => ?_, fun hlt hj hj' => Splice.lt_of_followAll? hj hj' hlt,
    haccounts.searched⟩
  rcases hbehind.follow (hbefore.isProper hx) hi with
    hfound | ⟨mid, taker, rest, j, hmid, hj, he, hstart, hstop⟩
  · exact .inl hfound
  · refine .inr ⟨mid, taker, rest, j, hmid, hj, he, hstart, hstop, ?_⟩
    exact haccounts.reasons (by rw [hmid, List.append_assoc]) (by omega)

theorem retains_text : ∃ m behind z,
    (withStandardFragments "doc.hwp".toList).Lives ([] ++ m :: behind) z ∧
    z.buffer.text = "a$x$".toList ∧ (withStandardFragments "doc.hwp".toList).buffer.IsProper ∧
    (withStandardFragments "doc.hwp".toList).buffer.selection = none ∧ Retains [] m behind z := by
  let session : Session Document :=
    { desk := { target := withStandardFragments "doc.hwp".toList }, attached := true }
  have htext : (session.run (typist {} {} fun latex _ => latex) .full
      "insert_text('a')\ninsert_equation('x')".toList none).2.desk.target.buffer.text =
      "a$x$".toList := by decide +kernel
  obtain ⟨ms, hlives⟩ := session.exists_lives_run {} {} (fun latex _ => latex) .full
    "insert_text('a')\ninsert_equation('x')".toList none
  have hproper : session.desk.target.buffer.IsProper := ⟨Nat.le_refl 0, .inl rfl⟩
  cases ms with
  | nil =>
    -- without a call nothing would have been typed
    have hempty := congrArg Element.renderAll (hlives.course.elements hproper)
    exact absurd (hempty.symm.trans htext) (by decide)
  | cons m behind =>
    exact ⟨m, behind, _, hlives, htext, hproper, rfl, Lives.retains hlives hproper rfl⟩

end Document

/-! ## An equation that is lost -/

namespace Session

/-- A session on an empty document whose controller cancels behind the first call. -/
def cancelledSoon : Session Document :=
  { desk :=
      { target := .withStandardFragments "doc.hwp".toList,
        token := Token.arm {} (.afterCalls 1) } }

/-- The session behind a script that types an equation, which is cancelled. -/
def behindEquation : Except RunError RunReport × Session Document :=
  cancelledSoon.run (Document.typist {} {} fun latex _ => latex) .full
    "insert_equation('x')".toList none

/-- The session behind another script, for which the token was reset. -/
def behindText : Except RunError RunReport × Session Document :=
  { behindEquation.2 with
    desk := { behindEquation.2.desk with token := behindEquation.2.desk.token.reset } }.run
    (Document.typist {} {} fun latex _ => latex) .full "insert_text('a')".toList none

/-- A script that is cancelled types an equation, and the next script overwrites it. -/
theorem equation_overwritten :
    (match behindEquation.1 with
      | .error e => e.message
      | .ok _ => []) = "cancelled after 0 operation(s)".toList ∧
    behindEquation.2.desk.target.buffer.text = "$x$".toList ∧
    behindText.1.isOk ∧ behindText.2.desk.target.buffer.text = "a".toList := by
  decide +kernel

end Session

end Scribe
