import Scribe.Script.Plan
import Scribe.Proofs.Script.Scanning

set_option autoImplicit false

/-! # Both readers agree on what the grammar reads

The tolerant scanner finds the end of an argument list by counting, and it skips comments, literals
and foreign calls by rules of its own. Where the grammar reads a script, the scanner stops at the
same places: it finds the calls that the grammar finds, and their arguments mean the same. -/

namespace Scribe

open Text (isIdentChar isIdentStart isGap isBlank)
open Balance (IsClosed)

/-! ## Argument lists cut out -/

namespace Grammar

/-- Blanks in front of an argument list do not matter. -/
theorem arguments_skipBlank {value : Text → Parsed Value} {s : Text} {found : List Argument}
    {r : Text} (h : arguments value s = .ok found r) :
    ∃ r', arguments value (skipBlank s) = .ok found r' ∧ skipBlank r' = skipBlank r := by
  unfold arguments items separated at h ⊢
  rw [skipBlank_skipBlank]
  cases hitem : argument value (skipBlank s) with
  | ok first rest =>
    rw [hitem] at h
    exact ⟨r, h, rfl⟩
  | stop cause rest =>
    rw [hitem] at h
    simp [Parsed.map] at h
  | mismatch =>
    rw [hitem] at h
    simp only [separator?_skipBlank] at h ⊢
    cases hsep : separator? ',' s with
    | some rest =>
      rw [hsep] at h
      exact ⟨r, h, rfl⟩
    | none =>
      rw [hsep] at h
      simp only [Parsed.map, Parsed.ok.injEq] at h ⊢
      exact ⟨skipBlank s, ⟨h.1, rfl⟩, by rw [← h.2, skipBlank_skipBlank]⟩

/-- What a call consists of, and what its argument list means where it stands alone. -/
theorem exists_of_call {s : Text} {raw : RawCall} {rest : Text}
    (h : call argumentValue s = .ok raw rest) :
    ∃ gap args, IsName raw.name ∧ (∀ c ∈ gap, isGap c = true) ∧
      s = raw.name ++ (gap ++ '(' :: (args ++ ')' :: rest)) ∧
      IsClosed args ∧ IsUnbroken (args ++ [')']) ∧
      parseArguments args = .ok (raw.args, raw.kwargs) := by
  obtain ⟨gap, args, found, b, hname, hgap, hs, hclosed, hunbroken, hargs, hb, hsplit⟩ :=
    (reads_value _).exists_of_call h
  refine ⟨gap, args, hname, hgap, hs, hclosed, hunbroken, ?_⟩
  obtain ⟨r, hr, hskip⟩ := arguments_skipBlank hargs
  have hnil : skipBlank b = [] := by
    have happ : (b ++ []).dropWhile isBlank = [] := List.dropWhile_append_of_pos hb
    rwa [List.append_nil] at happ
  rw [parseArguments, argumentValue, hr]
  simp only [hskip, hnil, hsplit]

end Grammar

/-! ## The end of a statement -/

namespace Grammar

theorem skipIdle_true (s : Text) :
    skipIdle true s = skipIdle false (s.dropWhile (· != '\n')) := by
  induction s with
  | nil => rfl
  | cons c s ih =>
    by_cases hc : c = '\n'
    · subst hc
      simp [skipIdle, isBlank]
    · have hne : (c != '\n') = true := by simpa using hc
      simp [skipIdle, hne, ih]

/-- The text behind the comment that it starts with, if it does. -/
def behindComment : Text → Text
  | '#' :: s => s.dropWhile (· != '\n')
  | s => s

/-- Behind spaces and a comment, a statement ends with the text, its line or a semicolon. -/
theorem cases_of_statementEnd? {s r : Text} (h : statementEnd? s = some r) :
    (behindComment (s.dropWhile isGap) = [] ∧ r = []) ∨
      behindComment (s.dropWhile isGap) = '\n' :: r ∨
      behindComment (s.dropWhile isGap) = ';' :: r := by
  have hcomment (t : Text) : (match t with
      | '#' :: r => r.dropWhile (· != '\n')
      | _ => t) = behindComment t := by
    split
    · rfl
    · next hne =>
      unfold behindComment
      split
      · exact absurd rfl (hne _)
      · rfl
  rw [← hcomment]
  unfold statementEnd? at h
  simp only at h
  split at h
  · next hend => exact Or.inl ⟨hend, (Option.some.inj h).symm⟩
  · next hend => exact Or.inr (Or.inl (Option.some.inj h ▸ hend))
  · next hend => exact Or.inr (Or.inr (Option.some.inj h ▸ hend))
  · simp at h

/-- What ends a statement is idle. -/
theorem skipIdle_of_statementEnd? {s r : Text} (h : statementEnd? s = some r) :
    skipIdle false s = skipIdle false r := by
  -- Gaps and a comment may stand in front of what ends the statement, and both are idle.
  have hgap (s : Text) : skipIdle false s = skipIdle false (s.dropWhile isGap) := by
    induction s with
    | nil => rfl
    | cons c s ih =>
      rw [List.dropWhile_cons]
      split
      · next hc =>
        have hblank : isBlank c = true := by
          simp only [isGap, Bool.or_eq_true, beq_iff_eq] at hc
          rcases hc with rfl | rfl <;> rfl
        simp [skipIdle, hblank, ih]
      · rfl
  have hcomment (s : Text) : skipIdle false s = skipIdle false (behindComment s) := by
    unfold behindComment
    split
    · exact skipIdle_true _
    · rfl
  rw [hgap, hcomment]
  rcases cases_of_statementEnd? h with ⟨hend, rfl⟩ | hend | hend
  · rw [hend]
  · rw [hend]
    rfl
  · rw [hend]
    rfl

/-! ## Statements -/

theorem eq_nil_of_statements {s : Text} (h : statements s = .ok []) : s = [] := by
  unfold statements at h
  split at h
  · next hempty => exact List.isEmpty_iff.1 hempty
  · split at h
    · simp at h
    · simp at h
    · split at h
      · simp at h
      · next next _ =>
        simp only at h
        split at h
        · cases hn : statements (skipIdle false next) with
          | ok more =>
            rw [hn] at h
            simp [Except.map] at h
          | error mistake =>
            rw [hn] at h
            simp [Except.map] at h
        · simp at h

/-- Statements are read one by one: a call, its end, and the statements behind what is idle. -/
theorem exists_of_statements_cons {s : Text} {raw : RawCall} {more : List RawCall}
    (h : statements s = .ok (raw :: more)) :
    ∃ rest next, call argumentValue s = .ok raw rest ∧ statementEnd? rest = some next ∧
      statements (skipIdle false next) = .ok more := by
  unfold statements at h
  split at h
  · simp at h
  · split at h
    · simp at h
    · simp at h
    · next found rest hcall =>
      split at h
      · simp at h
      · next next hend =>
        simp only at h
        split at h
        · cases hn : statements (skipIdle false next) with
          | ok more' =>
            rw [hn] at h
            simp only [Except.map, Except.ok.injEq, List.cons.injEq] at h
            obtain ⟨rfl, rfl⟩ := h
            exact ⟨rest, next, hcall, hend, hn⟩
          | error mistake =>
            rw [hn] at h
            simp [Except.map] at h
        · simp at h

end Grammar

/-! ## Agreement -/

/-- The invocation of a call, if the vocabulary has it. -/
def Grammar.RawCall.invocation? (raw : Grammar.RawCall) : Option Invocation :=
  (Verb.ofName? raw.name).map fun verb => { verb, args := raw.args, kwargs := raw.kwargs }

theorem Grammar.parseScript_eq (script : Text) :
    parseScript script = (calls script).map fun found => found.filterMap RawCall.invocation? := rfl

/-- The steps of a script that the grammar reads are the calls of its statements, each bound on its
    own. -/
theorem Plan.exists_of_primarySteps {script : Text} {steps : List Step}
    (h : primarySteps script = .ok steps) :
    ∃ found, Grammar.statements (Grammar.skipIdle false script) = .ok found ∧
      steps = (found.filterMap Grammar.RawCall.invocation?).map Operation.ofInvocation := by
  unfold primarySteps at h
  rw [Grammar.parseScript_eq, Grammar.calls] at h
  cases hfound : Grammar.statements (Grammar.skipIdle false script) with
  | error mistake =>
    rw [hfound] at h
    cases h
  | ok found =>
    rw [hfound] at h
    exact ⟨found, rfl, (Except.ok.inj h).symm⟩

namespace Scanner

/-- Arguments that the grammar reads mean the same to the scanner. -/
theorem coerce_of_parseArguments {verb : Verb} {raw : Text} {args : List Value}
    {kwargs : List (Text × Value)} (h : Grammar.parseArguments raw = .ok (args, kwargs)) :
    coerce verb raw = Operation.ofInvocation { verb, args, kwargs } := by
  rw [coerce, h]
  rfl

/-- From the start of a statement on, the scanner finds the calls that the grammar finds. -/
theorem map_coerce_callsFrom {before : Option Char} (hfree : isFreeAfter before = true) {s : Text}
    {found : List Grammar.RawCall} (h : Grammar.statements s = .ok found) :
    (callsFrom before s).map (fun call => coerce call.1 call.2)
      = (found.filterMap Grammar.RawCall.invocation?).map Operation.ofInvocation := by
  induction found generalizing before s with
  | nil =>
    rw [Grammar.eq_nil_of_statements h, callsFrom]
    rfl
  | cons raw more ih =>
    obtain ⟨rest, next, hcall, hend, hmore⟩ := Grammar.exists_of_statements_cons h
    obtain ⟨gap, args, hname, hgap, rfl, hclosed, _, hargs⟩ := Grammar.exists_of_call hcall
    obtain ⟨before', hfree', hidle⟩ := (exists_callsFrom_skipIdle rest).1 (some ')') (by decide)
    rw [Grammar.skipIdle_of_statementEnd? hend] at hidle
    have hrest := ih hfree' hmore
    rw [← hidle] at hrest
    cases hverb : Verb.ofName? raw.name with
    | none =>
      have hinv : raw.invocation? = none := by rw [Grammar.RawCall.invocation?, hverb]; rfl
      rw [callsFrom_foreign hfree hname hverb hgap hclosed, List.filterMap_cons_none hinv, hrest]
    | some verb =>
      have hinv : raw.invocation? = some { verb, args := raw.args, kwargs := raw.kwargs } := by
        rw [Grammar.RawCall.invocation?, hverb]
        rfl
      rw [← Verb.name_of_ofName? hverb, callsFrom_call hfree hgap hclosed, List.map_cons, hrest,
        coerce_of_parseArguments hargs, List.filterMap_cons_some hinv, List.map_cons]

/-- The calls that the scanner finds mean the steps that the grammar reads. -/
theorem map_coerce_calls {script : Text} {steps : List Step}
    (h : Plan.primarySteps script = .ok steps) :
    (calls script).map (fun call => coerce call.1 call.2) = steps := by
  obtain ⟨found, hfound, rfl⟩ := Plan.exists_of_primarySteps h
  obtain ⟨before, hfree, hidle⟩ := (exists_callsFrom_skipIdle script).1 none (by decide)
  rw [calls, hidle, map_coerce_callsFrom hfree hfound]

end Scanner

/-- Where the grammar reads a script and finds a call of the vocabulary, the tolerant scanner reads
    it too and gives the same operations; it leaves out the calls with argument errors. -/
theorem Plan.fallbackSteps_eq_of_primarySteps {script : Text} {steps : List Step}
    (h : Plan.primarySteps script = .ok steps) (hne : steps ≠ []) :
    Plan.fallbackSteps script = .ok (steps.filter fun step => step.isOk) := by
  have hcalls := Scanner.map_coerce_calls h
  have hfound : (Scanner.calls script).isEmpty = false := by
    cases hc : Scanner.calls script with
    | nil => exact absurd (by rw [← hcalls, hc]; rfl) hne
    | cons call more => rfl
  have hsteps (steps : List Step) :
      (steps.filterMap Except.toOption).map Except.ok = steps.filter fun step => step.isOk := by
    induction steps with
    | nil => rfl
    | cons step steps ih =>
      cases step with
      | ok operation =>
        have hok : (Except.ok operation : Step).toOption = some operation := rfl
        rw [List.filterMap_cons_some hok, List.map_cons, ih, List.filter_cons_of_pos rfl]
      | error fault =>
        have herror : (Except.error fault : Step).toOption = none := rfl
        rw [List.filterMap_cons_none herror, ih, List.filter_cons_of_neg Bool.false_ne_true]
  simp only [Plan.fallbackSteps, Scanner.scan, hfound, Bool.false_and, Bool.false_eq_true,
    if_false, Except.map, Except.ok.injEq]
  rw [← hsteps, ← hcalls, List.filterMap_map]
  rfl

/-- A script with a separator, a foreign call, a comment and an argument error. -/
def Plan.mixedScript : Text :=
  "insert_text('a'); f([1], r'x') # c\nexit_box(1)\ninsert_enter(\n)".toList

theorem Plan.fallbackSteps_mixedScript :
    ∃ steps, Plan.primarySteps mixedScript = .ok steps ∧
      steps.map Except.isOk = [true, false, true] ∧
      Plan.fallbackSteps mixedScript = .ok (steps.filter fun step => step.isOk) := by
  have hread : (Plan.primarySteps mixedScript).toOption.map
      (fun steps => steps.map Except.isOk) = some [true, false, true] := by decide +kernel
  cases hsteps : Plan.primarySteps mixedScript with
  | error failure =>
    rw [hsteps] at hread
    simp [Except.toOption] at hread
  | ok steps =>
    rw [hsteps] at hread
    have hkinds : steps.map Except.isOk = [true, false, true] := Option.some.inj hread
    have hne : steps ≠ [] := fun hnil => by simp [hnil] at hkinds
    exact ⟨steps, rfl, hkinds, Plan.fallbackSteps_eq_of_primarySteps hsteps hne⟩

end Scribe
