import Mathlib.Data.List.Chain
import Scribe.Proofs.Script.Tiers
import Scribe.Proofs.Script.Binding
import Scribe.Proofs.Repair.AfterZone

set_option autoImplicit false

/-! # The order of zones in a plan

The repairs see templates and zone requests on lines, one literal in each; whoever carries out the
script sees operations that the grammar has bound. Where every template and every zone request is
spelled as a line of its own with one literal, both see the same, and the order of the lines is the
order of the operations. -/

namespace Scribe.Repair

open Text (isWhite isBlank isIdentChar IsLogicalLine)
open Grammar (RawCall argumentValue statements skipIdle IsUnbroken)

/-! ## Spelling -/

/-- The calls that matter for the order of zones. -/
def isZoneVerb : Verb → Bool
  | .insertTemplate | .focusPlaceholder => true
  | _ => false

/-- A call of a template or a zone request seems to start somewhere in the text, with any white
    space behind its name. -/
def MentionsZones (s : Text) : Prop :=
  ∃ (front gap rest : Text) (verb : Verb), isZoneVerb verb = true ∧
    (∀ c ∈ gap, isWhite c = true) ∧ isFreeAfter front.getLast? = true ∧
    s = front ++ (verb.name ++ (gap ++ '(' :: rest))

/-- If a line mentions templates or zone requests, it is a comment or one call of the vocabulary;
    and if that call inserts a template or requests a zone, its arguments are one literal. -/
def SpellsZonesPlainly (line : Text) : Prop :=
  ¬MentionsZones line ∨ line.head? = some '#' ∨
    ∃ verb args, CallLine.ofLine? line = some ⟨Verb.name verb, args⟩ ∧
      (isZoneVerb verb = true → (singleLiteral? args).isSome = true)

/-- Every line spells its templates and zone requests plainly, and where a literal may go on behind
    a backslash there are none. -/
structure SpellZonesPlainly (lines : List Text) : Prop where
  plain : ∀ line ∈ lines, SpellsZonesPlainly line
  behind : lines.IsChain fun line next => line.getLast? = some '\\' → ¬MentionsZones next

/-! ## Mentions -/

theorem MentionsZones.append_left {s t : Text} (hs : isFreeAfter s.getLast? = true)
    (h : MentionsZones t) : MentionsZones (s ++ t) := by
  obtain ⟨front, gap, rest, verb, hverb, hgap, hfree, rfl⟩ := h
  refine ⟨s ++ front, gap, rest, verb, hverb, hgap, ?_, by rw [List.append_assoc]⟩
  rw [List.getLast?_append]
  cases hlast : front.getLast? with
  | none => exact hs
  | some c =>
    rw [hlast] at hfree
    exact hfree

theorem mentionsZones_call {verb : Verb} (hverb : isZoneVerb verb = true) {gap : Text}
    (hgap : ∀ c ∈ gap, isWhite c = true) (rest : Text) :
    MentionsZones (verb.name ++ (gap ++ '(' :: rest)) :=
  ⟨[], gap, rest, verb, hverb, hgap, rfl, rfl⟩

/-- What a call line consists of, with its surrounding white space. -/
theorem exists_of_ofLine? {line : Text} {call : CallLine} (h : CallLine.ofLine? line = some call) :
    ∃ front gap back, (∀ c ∈ front, isWhite c = true) ∧ (∀ c ∈ gap, isWhite c = true) ∧
      line = front ++ (call.name ++ (gap ++ '(' :: (call.args ++ ')' :: back))) := by
  obtain ⟨_, _, gap, hgap, htrim⟩ := CallLine.ofLine?_eq_some_iff.1 h
  obtain ⟨front, back, hfront, _, hline⟩ := Text.exists_eq_append_trim line
  refine ⟨front, gap, back, hfront, hgap, ?_⟩
  rw [hline, htrim]
  simp

theorem zoneEvent?_comment (l : Text) : zoneEvent? ('#' :: l) = none := by
  rw [zoneEvent?, Line.classify, CallLine.ofLine?_eq_none (by decide) (by decide)]
  rfl

/-- Only calls that matter have an event. -/
theorem zoneEvent?_ofCall_of_not_isZoneVerb {verb : Verb} (h : isZoneVerb verb = false)
    (args : Text) : (Line.ofCall verb args).zoneEvent? = none := by
  cases verb with
  | insertTemplate => exact absurd h (by decide)
  | focusPlaceholder => exact absurd h (by decide)
  | insertText | insertEquation | insertLatexEquation =>
    simp only [Line.ofCall]
    split <;> rfl
  | _ => rfl

theorem zoneEvent?_of_not_mentionsZones {line : Text} (h : ¬MentionsZones line) :
    zoneEvent? line = none := by
  rw [zoneEvent?, Line.classify]
  split
  · rfl
  · next call hcall =>
    split
    · rfl
    · next verb hverb =>
      by_cases hzone : isZoneVerb verb = true
      · obtain ⟨front, gap, back, hfront, hgap, hline⟩ := exists_of_ofLine? hcall
        rw [← Verb.name_of_ofName? hverb] at hline
        refine absurd ?_ h
        rw [hline]
        refine (mentionsZones_call hzone hgap _).append_left ?_
        cases hlast : front.getLast? with
        | none => rfl
        | some c =>
          have hc := isIdentChar_of_isWhite (hfront c (List.mem_of_getLast? hlast))
          simp [isFreeAfter, hc]
      · exact zoneEvent?_ofCall_of_not_isZoneVerb (by simpa using hzone) _

/-! ## Tame lines -/

/-- The rest of a line that the grammar may be at: it mentions no zones any more, or it is a whole
    line that spells them plainly. -/
inductive IsTame : Text → Prop where
  | quiet {l : Text} (h : ¬MentionsZones l) : IsTame l
  | comment (l : Text) : IsTame ('#' :: l)
  | call (verb : Verb) {gap args : Text} (hgap : ∀ c ∈ gap, isWhite c = true)
      (hargs : Balance.argumentList? (args ++ [')']) = some (args, []))
      (hliteral : isZoneVerb verb = true → (singleLiteral? args).isSome = true) :
      IsTame (verb.name ++ (gap ++ '(' :: (args ++ [')'])))

theorem isTame_of_spellsZonesPlainly {line : Text} (hline : IsLogicalLine line)
    (h : SpellsZonesPlainly line) : IsTame line := by
  rcases h with h | h | ⟨verb, args, hcall, hliteral⟩
  · exact .quiet h
  · obtain ⟨l, rfl⟩ := List.head?_eq_some_iff.1 h
    exact .comment l
  · obtain ⟨_, hargs, gap, hgap, htrim⟩ := CallLine.ofLine?_eq_some_iff.1 hcall
    rw [hline.trim_eq] at htrim
    rw [htrim]
    exact .call verb hgap hargs hliteral

/-- The lines that the grammar has still to read, the first of which it may have begun. -/
structure AreTame (lines : List Text) : Prop where
  tame : ∀ line ∈ lines, IsTame line
  newline : ∀ line ∈ lines, '\n' ∉ line
  behind : lines.IsChain fun line next => line.getLast? = some '\\' → ¬MentionsZones next

theorem AreTame.tail {line : Text} {lines : List Text} (h : AreTame (line :: lines)) :
    AreTame lines :=
  ⟨fun l hl => h.tame l (List.mem_cons_of_mem _ hl),
    fun l hl => h.newline l (List.mem_cons_of_mem _ hl), h.behind.tail⟩

/-- A line that mentions no zones may be cut anywhere. -/
theorem AreTame.cut {u line : Text} {lines : List Text} (h : AreTame ((u ++ line) :: lines))
    (hquiet : ¬MentionsZones line) : AreTame (line :: lines) := by
  refine ⟨fun l hl => ?_, fun l hl => ?_, ?_⟩
  · rcases List.mem_cons.1 hl with rfl | hl
    · exact .quiet hquiet
    · exact h.tame l (List.mem_cons_of_mem _ hl)
  · rcases List.mem_cons.1 hl with rfl | hl
    · exact fun hn => h.newline _ List.mem_cons_self (List.mem_append_right u hn)
    · exact h.newline l (List.mem_cons_of_mem _ hl)
  · cases lines with
    | nil => exact List.isChain_singleton _
    | cons next lines =>
      obtain ⟨hnext, hrest⟩ := List.isChain_cons_cons.1 h.behind
      refine List.isChain_cons_cons.2 ⟨fun hlast => hnext ?_, hrest⟩
      rw [List.getLast?_append, hlast]
      rfl

/-- A line without an event in front does not count. -/
theorem zoneEvents_cons_quiet {line : Text} (h : ¬MentionsZones line) (lines : List Text) :
    zoneEvents (line :: lines) = zoneEvents lines :=
  zoneEvents_cons_of_none (zoneEvent?_of_not_mentionsZones h) lines

theorem not_mentionsZones_nil : ¬MentionsZones [] := by
  rintro ⟨front, gap, rest, verb, _, _, _, h⟩
  simp at h

theorem MentionsZones.of_cons {c : Char} (hc : isIdentChar c = false) {s : Text}
    (h : MentionsZones s) : MentionsZones (c :: s) := by
  refine MentionsZones.append_left (s := [c]) ?_ h
  simp [isFreeAfter, hc]

/-! ## Reading on -/

/-- A text that the grammar has come to, with lines that give these events. -/
def LeavesEvents (s : Text) (events : List ZoneEvent) : Prop :=
  ∃ line lines, s = Text.unlines (line :: lines) ∧ AreTame (line :: lines) ∧
    zoneEvents (line :: lines) = events

theorem leavesEvents_nil : LeavesEvents [] [] := by
  refine ⟨[], [], rfl, ⟨fun l hl => ?_, fun l hl => ?_, List.isChain_singleton _⟩, ?_⟩
  · rw [List.mem_singleton.1 hl]
    exact .quiet not_mentionsZones_nil
  · rw [List.mem_singleton.1 hl]
    exact List.not_mem_nil
  · exact zoneEvents_cons_quiet not_mentionsZones_nil []

/-- Neither a comment nor a call starts with an idle character. -/
theorem IsTame.not_mentionsZones_of_idle {c : Char} {line : Text} (h : IsTame (c :: line))
    (hident : isIdentChar c = false) (hcomment : c ≠ '#') : ¬MentionsZones (c :: line) := by
  generalize hs : c :: line = s at h
  cases h with
  | quiet h => exact h
  | comment l => exact absurd (List.cons.inj hs).1 hcomment
  | call verb hgap hargs hliteral =>
    obtain ⟨d, r, hname, hd, _⟩ := isName_name verb
    rw [hname, List.cons_append] at hs
    rw [(List.cons.inj hs).1, isIdentChar_of_isIdentStart hd] at hident
    exact absurd hident (by decide)

/-- A comment is skipped up to the end of its line. -/
theorem skipIdle_comment {line t : Text} (hline : '\n' ∉ line)
    (ht : ∀ c, t.head? = some c → c = '\n') :
    skipIdle false ('#' :: line ++ t) = skipIdle false t := by
  have hskip : skipIdle false ('#' :: line ++ t) = skipIdle true (line ++ t) := rfl
  have hne : ∀ d ∈ line, (d != '\n') = true := fun d hd => by
    simpa using ne_of_mem_of_not_mem hd hline
  have hdrop : (line ++ t).dropWhile (· != '\n') = t := by
    rw [List.dropWhile_append_of_pos hne]
    cases t with
    | nil => rfl
    | cons d t =>
      rw [ht d rfl]
      rfl
  rw [hskip, Grammar.skipIdle_true, hdrop]

/-- In a line the idle part is skipped: all of it, without an event, or a part in front of a rest
    that mentions no zones if anything was skipped. -/
theorem skipIdle_line {line t : Text} (h : IsTame line) (hline : '\n' ∉ line)
    (ht : ∀ c, t.head? = some c → c = '\n') :
    (skipIdle false (line ++ t) = skipIdle false t ∧ zoneEvent? line = none) ∨
    ∃ front rest, line = front ++ rest ∧ skipIdle false (line ++ t) = rest ++ t ∧
      (front = [] ∨ ¬MentionsZones line ∧ ¬MentionsZones rest) := by
  induction line with
  | nil => exact Or.inl ⟨rfl, zoneEvent?_of_not_mentionsZones not_mentionsZones_nil⟩
  | cons c line ih =>
    have hmore : '\n' ∉ line := fun hn => hline (List.mem_cons_of_mem _ hn)
    by_cases hidle : (isBlank c || c == ';') = true
    · have hchar : isIdentChar c = false ∧ c ≠ '#' := by
        simp only [isBlank, Bool.or_eq_true, beq_iff_eq] at hidle
        rcases hidle with (((rfl | rfl) | rfl) | rfl) | rfl <;> decide
      have hquiet : ¬MentionsZones (c :: line) := h.not_mentionsZones_of_idle hchar.1 hchar.2
      have hrest : ¬MentionsZones line := fun hm => hquiet (hm.of_cons hchar.1)
      have hskip : skipIdle false (c :: line ++ t) = skipIdle false (line ++ t) := by
        simp [skipIdle, hidle]
      rcases ih (.quiet hrest) hmore with ⟨heq, _⟩ | ⟨front, rest, rfl, heq, hor⟩
      · exact Or.inl ⟨hskip.trans heq, zoneEvent?_of_not_mentionsZones hquiet⟩
      · refine Or.inr ⟨c :: front, rest, rfl, hskip.trans heq, Or.inr ⟨hquiet, ?_⟩⟩
        rcases hor with rfl | ⟨_, hm⟩
        · exact hrest
        · exact hm
    · by_cases hcomment : c = '#'
      · subst hcomment
        exact Or.inl ⟨skipIdle_comment hmore ht, zoneEvent?_comment line⟩
      · refine Or.inr ⟨[], c :: line, rfl, ?_, Or.inl rfl⟩
        simp [skipIdle, hidle, hcomment]

/-- Cutting off the front of a line that mentions no zones leaves the events. -/
theorem AreTame.leavesEvents {line rest : Text} {lines : List Text} (h : AreTame (line :: lines))
    (front : Text) (hsplit : line = front ++ rest)
    (hor : front = [] ∨ ¬MentionsZones line ∧ ¬MentionsZones rest) :
    LeavesEvents (Text.unlines (rest :: lines)) (zoneEvents (line :: lines)) := by
  rcases hor with rfl | ⟨hline, hrest⟩
  · rw [List.nil_append] at hsplit
    subst hsplit
    exact ⟨line, lines, rfl, h, rfl⟩
  · refine ⟨rest, lines, rfl, (hsplit ▸ h).cut hrest, ?_⟩
    rw [zoneEvents_cons_quiet hline, zoneEvents_cons_quiet hrest]

/-- What is idle has no events. -/
theorem leavesEvents_skipIdle {line : Text} {lines : List Text} (h : AreTame (line :: lines)) :
    LeavesEvents (skipIdle false (Text.unlines (line :: lines))) (zoneEvents (line :: lines)) := by
  have hone (l : Text) : Text.unlines [l] = l ++ [] := by simp
  induction lines generalizing line with
  | nil =>
    rcases skipIdle_line (h.tame line List.mem_cons_self) (h.newline line List.mem_cons_self)
      (t := []) (by simp) with ⟨heq, hnone⟩ | ⟨front, rest, hsplit, heq, hor⟩
    · rw [hone, heq, zoneEvents_cons_of_none hnone]
      exact leavesEvents_nil
    · rw [hone, heq, ← hone]
      exact h.leavesEvents front hsplit hor
  | cons next lines ih =>
    rcases skipIdle_line (h.tame line List.mem_cons_self) (h.newline line List.mem_cons_self)
      (t := '\n' :: Text.unlines (next :: lines)) (by simp) with ⟨heq, hnone⟩ |
      ⟨front, rest, hsplit, heq, hor⟩
    · rw [Text.unlines_cons_cons, heq, zoneEvents_cons_of_none hnone]
      exact ih h.tail
    · rw [Text.unlines_cons_cons, heq, ← Text.unlines_cons_cons]
      exact h.leavesEvents front hsplit hor

/-- Where joined lines are cut: in the first line, or behind it. -/
theorem unlines_eq_append {line : Text} {lines : List Text} {u t : Text}
    (h : Text.unlines (line :: lines) = u ++ t) :
    (∃ rest, line = u ++ rest ∧ t = Text.unlines (rest :: lines)) ∨
    ∃ next more v, lines = next :: more ∧ u = line ++ '\n' :: v ∧
      Text.unlines (next :: more) = v ++ t := by
  cases lines with
  | nil =>
    rw [Text.unlines_singleton] at h
    exact Or.inl ⟨t, h, (Text.unlines_singleton t).symm⟩
  | cons next more =>
    rw [Text.unlines_cons_cons] at h
    rcases List.append_eq_append_iff.1 h with ⟨v, rfl, hv⟩ | ⟨rest, rfl, ht⟩
    · cases v with
      | nil =>
        refine Or.inl ⟨[], by simp, ?_⟩
        rw [Text.unlines_cons_cons, List.nil_append]
        exact hv.symm
      | cons c v =>
        simp only [List.cons_append, List.cons.injEq] at hv
        obtain ⟨rfl, hv⟩ := hv
        exact Or.inr ⟨next, more, v, rfl, rfl, hv⟩
    · refine Or.inl ⟨rest, rfl, ?_⟩
      rw [ht, Text.unlines_cons_cons]

/-- A line that seems to start no statement mentions no zones, if it is tame. -/
theorem IsTame.not_mentionsZones {line t : Text} (h : IsTame line)
    (hstart : ¬StartsStatement (line ++ t)) : ¬MentionsZones line := by
  cases h with
  | quiet h => exact h
  | comment l => exact absurd (.comment (l ++ t)) hstart
  | call verb hgap hargs hliteral =>
    refine absurd ?_ hstart
    simpa using StartsStatement.call verb hgap _

/-- Behind a closing parenthesis in a line that mentions no zones the events are all left. -/
theorem AreTame.leavesEvents_of_append {u rest : Text} {lines : List Text}
    (h : AreTame ((u ++ rest) :: lines)) (hquiet : ¬MentionsZones (u ++ rest))
    (hu : u.getLast? = some ')') :
    LeavesEvents (Text.unlines (rest :: lines)) (zoneEvents ((u ++ rest) :: lines)) := by
  refine h.leavesEvents u rfl (Or.inr ⟨hquiet, fun hrest => hquiet (hrest.append_left ?_)⟩)
  rw [hu]
  rfl

/-- A call that starts in a line that mentions no zones, and may go on in the lines behind it, has
    no events. -/
theorem leavesEvents_behind {line : Text} {lines : List Text} {u t : Text}
    (h : AreTame (line :: lines)) (hquiet : ¬MentionsZones line)
    (hsplit : Text.unlines (line :: lines) = u ++ t) (hu : u.getLast? = some ')')
    (hunbroken : IsUnbroken u) : LeavesEvents t (zoneEvents (line :: lines)) := by
  -- On the lines that the call goes on in: none of them starts a statement, unless a literal is
  -- continued there, and then the hypothesis on the lines helps.
  induction lines generalizing line u with
  | nil =>
    rcases unlines_eq_append hsplit with ⟨rest, rfl, rfl⟩ | ⟨next, more, v, hlines, _⟩
    · exact h.leavesEvents_of_append hquiet hu
    · exact absurd hlines (by simp)
  | cons next lines ih =>
    rcases unlines_eq_append hsplit with ⟨rest, rfl, rfl⟩ | ⟨next', more, v, hlines, rfl, hrest⟩
    · exact h.leavesEvents_of_append hquiet hu
    · cases hlines
      have hnext : ¬MentionsZones next := by
        by_cases hlast : line.getLast? = some '\\'
        · exact (List.isChain_cons_cons.1 h.behind).1 hlast
        · obtain ⟨tail, htail⟩ : ∃ tail, Text.unlines (next :: lines) = next ++ tail := by
            cases lines with
            | nil => exact ⟨[], by simp⟩
            | cons => exact ⟨_, Text.unlines_cons_cons _ _ _⟩
          refine (h.tail.tame next List.mem_cons_self).not_mentionsZones (t := tail) ?_
          rw [← htail, hrest]
          exact hunbroken line v rfl hlast t
      have hv : v.getLast? = some ')' := by
        cases v with
        | nil => simp at hu
        | cons c v => simpa using hu
      have hvunbroken : IsUnbroken v := by
        rintro a z rfl ha
        refine hunbroken (line ++ '\n' :: a) z (by simp) fun hlast => ha ?_
        cases a with
        | nil => simp at hlast
        | cons c a => simpa using hlast
      rw [zoneEvents_cons_quiet hquiet]
      exact ih h.tail hnext hrest hv hvunbroken

/-! ## Operations -/

/-- What an operation means for the order of zones. -/
def zoneEventOf? : Operation → Option ZoneEvent
  | .insertTemplate t => some (.template (some t))
  | .focusPlaceholder (.zone z) => some (.zone z)
  | _ => none

theorem zoneEventOf?_of_not_isZoneVerb {op : Operation} (h : isZoneVerb op.verb = false) :
    zoneEventOf? op = none := by
  cases op with
  | insertTemplate t => simp [Operation.verb, isZoneVerb] at h
  | focusPlaceholder p => simp [Operation.verb, isZoneVerb] at h
  | _ => rfl

/-- What a call that the grammar has read means for the order of zones. -/
def callEvent? (raw : RawCall) : Option ZoneEvent :=
  raw.invocation?.bind fun inv => (Operation.ofInvocation inv).toOption.bind zoneEventOf?

/-- The call is one outside the vocabulary or is bound to an operation. -/
def IsBound (raw : RawCall) : Prop :=
  ∀ inv, raw.invocation? = some inv → ∃ op, Operation.ofInvocation inv = .ok op

theorem callEvent?_of_not_isZoneVerb {raw : RawCall}
    (h : ∀ verb, Verb.ofName? raw.name = some verb → isZoneVerb verb = false) :
    callEvent? raw = none := by
  rw [callEvent?, RawCall.invocation?]
  cases hverb : Verb.ofName? raw.name with
  | none => rfl
  | some verb =>
    rw [Option.map_some, Option.bind_some]
    cases hop : Operation.ofInvocation ⟨verb, raw.args, raw.kwargs⟩ with
    | error e => rfl
    | ok op =>
      have hopverb := Operation.verb_of_ofInvocation hop
      exact zoneEventOf?_of_not_isZoneVerb (hopverb ▸ h verb hverb)

/-- The grammar and the repairs give the same event to a call that is spelled plainly. -/
theorem callEvent?_eq {raw : RawCall} {verb : Verb} (hname : raw.name = verb.name) {args : Text}
    (hargs : Grammar.parseArguments args = .ok (raw.args, raw.kwargs)) (hbound : IsBound raw)
    (hliteral : isZoneVerb verb = true → (singleLiteral? args).isSome = true) :
    callEvent? raw = (Line.ofCall verb args).zoneEvent? := by
  have hofName : Verb.ofName? raw.name = some verb := by rw [hname, Verb.ofName?_name]
  by_cases hverb : isZoneVerb verb = true
  · obtain ⟨literal, hone⟩ := Option.isSome_iff_exists.1 (hliteral hverb)
    have hfound := Grammar.eq_of_parseArguments_of_singleLiteral? hargs hone
    have hinv : raw.invocation? = some ⟨verb, [.str literal], []⟩ := by
      rw [RawCall.invocation?, hofName, Option.map_some, (Prod.mk.inj hfound).1,
        (Prod.mk.inj hfound).2]
    obtain ⟨op, hop⟩ := hbound _ hinv
    rw [callEvent?, hinv, Option.bind_some]
    cases verb with
    | insertTemplate =>
      rw [Operation.ofInvocation_insertTemplate] at hop ⊢
      cases ht : Template.ofName? literal with
      | none => simp [ht] at hop
      | some t => simp [Line.ofCall, hone, ht, Line.zoneEvent?, Except.toOption, zoneEventOf?]
    | focusPlaceholder =>
      rw [Operation.ofInvocation_focusPlaceholder]
      cases hp : Placeholder.ofMarker literal <;>
        simp [Line.ofCall, hone, hp, Line.zoneEvent?, Except.toOption, zoneEventOf?]
    | _ => exact absurd hverb (by decide)
  · have hverb : isZoneVerb verb = false := by simpa using hverb
    rw [zoneEvent?_ofCall_of_not_isZoneVerb hverb]
    refine callEvent?_of_not_isZoneVerb fun v hv => ?_
    rw [hofName] at hv
    rw [← Option.some.inj hv, hverb]

/-! ## Agreement -/

/-- A call whose name and parenthesis stand in a line that mentions no zones is none that matters
    for them. -/
theorem not_isZoneVerb_of_not_mentionsZones {line name gap rest : Text} {lines : List Text}
    (hquiet : ¬MentionsZones line) (hgap : ∀ c ∈ gap, isWhite c = true)
    (hfront : '\n' ∉ name ++ (gap ++ ['(']))
    (hsplit : Text.unlines (line :: lines) = name ++ (gap ++ '(' :: rest)) {verb : Verb}
    (hverb : Verb.ofName? name = some verb) : isZoneVerb verb = false := by
  by_contra hzone
  have hhead : Text.unlines (line :: lines) = (name ++ (gap ++ ['('])) ++ rest := by simp [hsplit]
  rcases unlines_eq_append hhead with ⟨more, rfl, _⟩ | ⟨_, _, v, _, hu, _⟩
  · refine hquiet ?_
    rw [← Verb.name_of_ofName? hverb]
    simpa using mentionsZones_call (by simpa using hzone) hgap more
  · rw [hu] at hfront
    exact hfront (by simp)

/-- A line that is one call, with white space behind its name. -/
theorem zoneEvent?_call (verb : Verb) {gap args : Text} (hgap : ∀ c ∈ gap, isWhite c = true)
    (hargs : Balance.argumentList? (args ++ [')']) = some (args, [])) :
    zoneEvent? (verb.name ++ (gap ++ '(' :: (args ++ [')'])))
      = (Line.ofCall verb args).zoneEvent? := by
  have htrim := trim_call verb (gap ++ '(' :: args)
  simp only [List.append_assoc, List.cons_append] at htrim
  have hcall : CallLine.ofLine? (verb.name ++ (gap ++ '(' :: (args ++ [')'])))
      = some ⟨verb.name, args⟩ :=
    CallLine.ofLine?_eq_some_iff.2 ⟨isName_name verb, hargs, gap, hgap, htrim⟩
  rw [zoneEvent?, Line.classify, hcall]
  simp only [Verb.ofName?_name]

/-- A call gives the events of its lines. -/
theorem exists_leavesEvents_of_call {line : Text} {lines : List Text} {raw : RawCall} {rest : Text}
    (h : AreTame (line :: lines))
    (hcall : Grammar.call argumentValue (Text.unlines (line :: lines)) = .ok raw rest)
    (hbound : IsBound raw) :
    ∃ events, LeavesEvents rest events ∧
      zoneEvents (line :: lines) = (callEvent? raw).toList ++ events := by
  obtain ⟨gap, args, hname, hgap, hsplit, hclosed, hunbroken, hargs⟩ :=
    Grammar.exists_of_call hcall
  have hwhite : ∀ c ∈ gap, isWhite c = true := fun c hc => isWhite_of_isGap (hgap c hc)
  clear hcall
  cases h.tame line List.mem_cons_self with
  | quiet hquiet =>
    have hfront : '\n' ∉ raw.name ++ (gap ++ ['(']) := by
      have hn : '\n' ∉ gap := fun hn => absurd (hgap _ hn) (by decide)
      simp [hn, Grammar.newline_not_mem_of_isName hname]
    refine ⟨_, leavesEvents_behind h hquiet
      (u := raw.name ++ (gap ++ ['(']) ++ (args ++ [')'])) (by simp [hsplit])
      (by rw [← List.append_assoc, List.getLast?_concat])
      ((Grammar.isUnbroken_of_newline_not_mem hfront).append hunbroken), ?_⟩
    rw [callEvent?_of_not_isZoneVerb fun verb hverb =>
      not_isZoneVerb_of_not_mentionsZones hquiet hwhite hfront hsplit hverb]
    rfl
  | comment l =>
    obtain ⟨c, r, hcons, hc, _⟩ := hname
    have happ := Text.unlines_append ['#'] l lines
    rw [List.singleton_append, hsplit, hcons] at happ
    rw [(List.cons.inj happ).1] at hc
    exact absurd hc (by decide)
  | @call verb gap' args' hgap' hargs' hliteral =>
    have happ := Text.unlines_append (verb.name ++ (gap' ++ '(' :: (args' ++ [')']))) [] lines
    have hquiet := zoneEvents_cons_quiet not_mentionsZones_nil lines
    rw [List.append_nil] at happ
    rw [happ] at hsplit
    -- Both readings take the same name and the same argument list.
    have hread := Balance.untilClosed?_append hargs' (Text.unlines ([] :: lines))
    rw [List.append_assoc, List.singleton_append, List.nil_append] at hread
    simp only [List.append_assoc, List.cons_append, List.nil_append] at hsplit
    obtain ⟨hverb, rfl, rfl⟩ := eq_of_call_append (isName_name verb) hname hgap' hwhite hread
      (hclosed.argumentList?_eq rest) hsplit
    have htame : AreTame ([] :: lines) := by
      refine AreTame.cut (u := verb.name ++ (gap' ++ '(' :: (args' ++ [')']))) ?_
        not_mentionsZones_nil
      rwa [List.append_nil]
    refine ⟨zoneEvents ([] :: lines), ⟨[], lines, rfl, htame, rfl⟩, ?_⟩
    rw [hquiet, zoneEvents_cons, zoneEvent?_call verb hgap' hargs',
      callEvent?_eq hverb.symm hargs hbound hliteral]

/-- The calls that the grammar reads give the events of the lines. -/
theorem filterMap_callEvent? {line : Text} {lines : List Text} {found : List RawCall}
    (h : AreTame (line :: lines)) (hread : statements (Text.unlines (line :: lines)) = .ok found)
    (hbound : ∀ raw ∈ found, IsBound raw) :
    found.filterMap callEvent? = zoneEvents (line :: lines) := by
  induction found generalizing line lines with
  | nil =>
    have hnil := Grammar.eq_nil_of_statements hread
    cases lines with
    | nil =>
      have hline : line = [] := by simpa using hnil
      rw [hline, zoneEvents_cons_quiet not_mentionsZones_nil]
      rfl
    | cons next lines =>
      rw [Text.unlines_cons_cons] at hnil
      simp at hnil
  | cons raw more ih =>
    obtain ⟨rest, next, hcall, hend, hmore⟩ := Grammar.exists_of_statements_cons hread
    obtain ⟨events, ⟨l, ls, rfl, hl, rfl⟩, hevents⟩ :=
      exists_leavesEvents_of_call h hcall (hbound raw List.mem_cons_self)
    obtain ⟨l', ls', hskip, hl', hevents'⟩ := leavesEvents_skipIdle hl
    rw [← Grammar.skipIdle_of_statementEnd? hend, hskip] at hmore
    have hrest := ih hl' hmore fun r hr => hbound r (List.mem_cons_of_mem _ hr)
    rw [hevents, ← hevents', ← hrest]
    cases hevent : callEvent? raw with
    | none => rw [List.filterMap_cons_none hevent]; rfl
    | some e => rw [List.filterMap_cons_some hevent]; rfl

/-- The operations of a script read without argument errors give the events of its lines. -/
theorem filterMap_zoneEventOf? {lines : List Text} (h : AreTame lines) {ops : List Operation}
    (hread : Plan.primarySteps (Text.unlines lines) = .ok (ops.map .ok)) :
    ops.filterMap zoneEventOf? = zoneEvents lines := by
  obtain ⟨line, more, hcons, htame, hevents⟩ :
      LeavesEvents (skipIdle false (Text.unlines lines)) (zoneEvents lines) := by
    cases lines with
    | nil => exact leavesEvents_nil
    | cons line more => exact leavesEvents_skipIdle h
  obtain ⟨found, hfound, hsteps⟩ := Plan.exists_of_primarySteps hread
  -- Every step went well, so every call of the vocabulary was bound.
  have hbound : ∀ raw ∈ found, IsBound raw := by
    intro raw hraw inv hinv
    have hmem : Operation.ofInvocation inv ∈ ops.map Except.ok := by
      rw [hsteps]
      exact List.mem_map_of_mem (List.mem_filterMap.2 ⟨raw, hraw, hinv⟩)
    obtain ⟨op, _, hop⟩ := List.mem_map.1 hmem
    exact ⟨op, hop.symm⟩
  rw [hcons] at hfound
  rw [← hevents, ← filterMap_callEvent? htame hfound hbound]
  have hops : ops = (ops.map Except.ok).filterMap (Except.toOption (ε := ArgumentError)) := by
    rw [List.filterMap_map]
    exact List.filterMap_some.symm
  rw [hops, hsteps, List.filterMap_map, List.filterMap_filterMap, List.filterMap_filterMap]
  rfl

/-- The templates and zone requests in the plan of a script, if the grammar reads it without
    argument errors. -/
def plannedEvents? (script : Text) : Option (List ZoneEvent) :=
  match Plan.ofScript script with
  | .ok ⟨.primary, steps⟩ => (steps.mapM Except.toOption).map fun ops => ops.filterMap zoneEventOf?
  | _ => none

theorem exists_of_plannedEvents? {script : Text} {events : List ZoneEvent}
    (h : plannedEvents? script = some events) :
    ∃ ops : List Operation, Plan.primarySteps script = .ok (ops.map .ok) ∧
      ops.filterMap zoneEventOf? = events := by
  have hsteps {steps : List Step} {ops : List Operation}
      (h : steps.mapM Except.toOption = some ops) : steps = ops.map .ok := by
    induction steps generalizing ops with
    | nil =>
      cases h
      rfl
    | cons step steps ih =>
      rw [List.mapM_cons] at h
      obtain ⟨op, hop, h⟩ := Option.bind_eq_some_iff.1 h
      obtain ⟨more, hmore, h⟩ := Option.bind_eq_some_iff.1 h
      cases h
      cases step with
      | error e => simp [Except.toOption] at hop
      | ok op' =>
        cases hop
        rw [ih hmore, List.map_cons]
  unfold plannedEvents? Plan.ofScript at h
  split at h
  · next steps hplan =>
    obtain ⟨ops, hops, hevents⟩ := Option.map_eq_some_iff.1 h
    refine ⟨ops, ?_, hevents⟩
    rw [← hsteps hops]
    split at hplan
    · next hread =>
      rw [hread, (Plan.mk.inj (Except.ok.inj hplan)).2]
    · cases hfallback : Plan.fallbackSteps script <;> simp [hfallback, Except.map] at hplan
  · simp at h

/-- In the plan of a normalized script that spells its templates and zone requests plainly and is
    read without argument errors, every template's zones are requested in order and only once. -/
theorem zonesInOrder_of_plannedEvents?_normalize {s : Text} {events : List ZoneEvent}
    (hplan : plannedEvents? (normalize s) = some events)
    (hplain : SpellZonesPlainly (Text.lines (normalize s))) : ZonesInOrder events := by
  obtain ⟨ops, hread, rfl⟩ := exists_of_plannedEvents? hplan
  obtain ⟨t, ht⟩ := normalize_eq_unlines s
  have hlogical : ∀ l ∈ roundLines t, IsLogicalLine l := fun l hl =>
    isLogicalLine_of_mem_roundLines hl
  rw [ht, Text.lines_unlines hlogical] at hplain
  rw [ht] at hread
  have htame : AreTame (roundLines t) :=
    ⟨fun l hl => isTame_of_spellsZonesPlainly (hlogical l hl) (hplain.plain l hl),
      fun l hl => (hlogical l hl).newline_not_mem, hplain.behind⟩
  rw [filterMap_zoneEventOf? htame hread]
  exact zonesInOrder_of_inOrder (inOrder_roundLines t)

/-- A template whose zones are requested backward. -/
def backwardScript : Text :=
  "insert_template('box.hwp')\nfocus_placeholder('&&&')\nfocus_placeholder('###')".toList

theorem zonesInOrder_backwardScript :
    plannedEvents? (normalize backwardScript)
        = some [.template (some .box), .zone .before, .zone .inside, .zone .after] ∧
      SpellZonesPlainly (Text.lines (normalize backwardScript)) ∧
      ZonesInOrder [.template (some .box), .zone .before, .zone .inside, .zone .after] := by
  have hplan : plannedEvents? (normalize backwardScript)
      = some [.template (some .box), .zone .before, .zone .inside, .zone .after] := by
    decide +kernel
  have hlines : Text.lines (normalize backwardScript)
      = ["insert_template('box.hwp')".toList, Zone.before.focusLine, Zone.inside.focusLine,
        exitBoxLine, Zone.after.focusLine] := by decide +kernel
  have hfocus (z : Zone) : SpellsZonesPlainly z.focusLine :=
    Or.inr (Or.inr ⟨.focusPlaceholder, Literal.quote z.marker,
      CallLine.ofLine?_call .focusPlaceholder (Literal.isClosed_quote _),
      fun _ => by rw [singleLiteral?_quote]; rfl⟩)
  have hplain : SpellZonesPlainly (Text.lines (normalize backwardScript)) := by
    rw [hlines]
    refine ⟨fun line hline => ?_, ?_⟩
    · simp only [List.mem_cons, List.not_mem_nil, or_false] at hline
      rcases hline with rfl | rfl | rfl | rfl | rfl
      · exact Or.inr (Or.inr ⟨.insertTemplate, "'box.hwp'".toList, by decide +kernel,
          fun _ => by decide +kernel⟩)
      · exact hfocus .before
      · exact hfocus .inside
      · exact Or.inr (Or.inr ⟨.exitBox, [], by decide +kernel, fun h => absurd h (by decide)⟩)
      · exact hfocus .after
    · simp only [List.isChain_cons_cons, List.isChain_singleton, and_true]
      refine ⟨fun h => ?_, fun h => ?_, fun h => ?_, fun h => ?_⟩ <;>
        exact absurd h (by decide +kernel)
  exact ⟨hplan, hplain, zonesInOrder_of_plannedEvents?_normalize hplan hplain⟩

/-- Spellings that the repairs overlook while the grammar reads them: a keyword, a parenthesised
    literal, a comment behind the call, and a template in what only looks like a line of its own. -/
def overlookedScripts : List Text :=
  [ "insert_template('box.hwp')\nfocus_placeholder(marker='&&&')\nfocus_placeholder('###')".toList,
    "insert_template('box.hwp')\nfocus_placeholder(('&&&'))\nfocus_placeholder('###')".toList,
    "insert_template('box.hwp')\nfocus_placeholder('&&&') # c\nfocus_placeholder('###')".toList,
    ("insert_template('box.hwp')\ninsert_text('①')\nf(\"\\\ninsert_template(\") #x\")\n" ++
      "focus_placeholder('###')").toList ]

theorem not_zonesInOrder_overlookedScripts :
    (overlookedScripts.map fun s => (plannedEvents? (normalize s)).map fun events =>
      decide (ZonesInOrder events)) = [some false, some false, some false, some false] ∧
    ¬∀ (s : Text) (events : List ZoneEvent),
      plannedEvents? (normalize s) = some events → ZonesInOrder events := by
  have horder : (overlookedScripts.map fun s => (plannedEvents? (normalize s)).map fun events =>
      decide (ZonesInOrder events)) = [some false, some false, some false, some false] := by
    decide +kernel
  refine ⟨horder, fun h => ?_⟩
  obtain ⟨s, _, hs⟩ := List.mem_map.1 (horder ▸ List.mem_cons_self)
  obtain ⟨events, hplan, hevents⟩ := Option.map_eq_some_iff.1 hs
  exact of_decide_eq_false hevents (h s events hplan)

end Scribe.Repair
