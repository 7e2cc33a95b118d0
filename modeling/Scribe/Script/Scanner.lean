import Scribe.Script.Grammar

set_option autoImplicit false

/-! # The tolerant scanner

Reads what the grammar rejects. Calls of the vocabulary count wherever they stand outside string
literals, comments and the arguments of other calls; an argument list that is never closed runs to
the end of the text. Arguments that the grammar can read mean what they mean there, and others are
read parameter by parameter as well as possible. A call whose arguments remain unusable is left
out. -/

namespace Scribe.Scanner

open Text (isGap isIdentChar)

/-! ## Finding calls -/

/-- The vocabulary, longest names first. -/
def longestFirst : List Verb :=
  Verb.all.mergeSort fun v w => decide (w.name.length ≤ v.name.length)

/-- The call of the vocabulary that starts with the text, if the place is free: its name is the
    longest one there that no identifier character follows. -/
def callAt? (free : Bool) (s : Text) : Option CallHead :=
  if free then
    longestFirst.findSome? fun verb =>
      (Text.stripStart? verb.name s).bind fun after =>
        if after.head?.any isIdentChar then none else CallHead.ofName? verb after
  else none

theorem length_lt_of_callAt? {free : Bool} {s : Text} {head : CallHead}
    (h : callAt? free s = some head) : head.rest.length < s.length := by
  unfold callAt? at h
  split at h
  · obtain ⟨verb, _, h⟩ := List.exists_of_findSome?_eq_some h
    obtain ⟨after, hafter, h⟩ := Option.bind_eq_some_iff.1 h
    split at h
    · simp at h
    · have hs := (CallHead.eq_of_ofName? h).2
      simp only [Text.stripStart?, Option.ite_none_right_eq_some, Option.some.injEq] at hafter
      have := congrArg List.length hafter.2
      simp only [List.length_drop, hs, List.length_append, List.length_cons] at this
      omega
  · simp at h

/-- The text from the end of the line on. -/
def lineEnd (s : Text) : Text := s.dropWhile (· != '\n')

theorem lineEnd_length_le (s : Text) : (lineEnd s).length ≤ s.length :=
  (List.dropWhile_sublist _).length_le

/-- Does a literal start here, with or without a verbatim mark? -/
def startsLiteral : Text → Bool
  | [] => false
  | c :: s => Literal.isQuote c || ((c == 'r' || c == 'R') && s.head?.any Literal.isQuote)

/-- Skips a literal, a call outside the vocabulary or a plain word at a free place. What is never
    closed runs to the end of its line. Gives the last character skipped and the text behind it. -/
def skipInert? (free : Bool) (s : Text) : Option (Option Char × Text) :=
  if !free then none
  else if startsLiteral s then
    match Literal.scan? s with
    | some (_, rest) => some (some '\'', rest)
    | none => some (some '\'', lineEnd s)
  else if (identifier s).1.isEmpty then none
  else match (identifier s).2.dropWhile isGap with
    | '(' :: inner =>
      match Balance.argumentList? inner with
      | some (_, rest) => some (some ')', rest)
      | none => some (some '(', lineEnd inner)
    | _ => some ((identifier s).1.getLast?, (identifier s).2)

theorem lineEnd_length_lt_of_startsLiteral {s : Text} (h : startsLiteral s) :
    (lineEnd s).length < s.length := by
  cases s with
  | nil => simp [startsLiteral] at h
  | cons c r =>
    have hc : (c != '\n') = true := by
      by_cases hn : c = '\n'
      · subst hn; simp [startsLiteral, Literal.isQuote] at h
      · simpa using hn
    have := lineEnd_length_le r
    simp only [lineEnd, List.dropWhile_cons, hc, if_true, List.length_cons] at this ⊢
    omega

theorem length_lt_of_skipInert? {free : Bool} {s rest : Text} {last : Option Char}
    (h : skipInert? free s = some (last, rest)) : rest.length < s.length := by
  unfold skipInert? at h
  split at h
  · simp at h
  split at h
  · next hlit =>
    split at h
    · next hscan => cases h; exact Literal.length_lt_of_scan? hscan
    · cases h; exact lineEnd_length_lt_of_startsLiteral hlit
  split at h
  · simp at h
  next hname =>
  have hpos : 0 < (identifier s).1.length :=
    List.length_pos_iff.2 fun h0 => hname (by simp [h0])
  have hlen : (identifier s).1.length + (identifier s).2.length = s.length := by
    rw [← List.length_append, identifier_append]
  split at h
  · next inner hinner =>
    have hgap : ((identifier s).2.dropWhile isGap).length ≤ (identifier s).2.length :=
      (List.dropWhile_sublist _).length_le
    rw [hinner, List.length_cons] at hgap
    split at h
    · next hargs =>
      cases h
      have := congrArg List.length (Balance.eq_append_of_untilClosed? hargs)
      simp only [List.length_append, List.length_cons] at this
      omega
    · cases h
      have := lineEnd_length_le inner
      omega
  · cases h; omega

/-- The calls of the vocabulary with their raw arguments, from here on; `before` is the character
    in front. -/
def callsFrom (before : Option Char) (s : Text) : List (Verb × Text) :=
  match s with
  | [] => []
  | c :: r =>
    if c = '#' then callsFrom (some '#') (lineEnd r)
    else match _hcall : callAt? (isFreeAfter before) (c :: r) with
      | some head =>
        match _hargs : Balance.argumentList? head.rest with
        | some (args, rest) => (head.verb, args) :: callsFrom (some ')') rest
        | none => [(head.verb, head.rest)]
      | none =>
        match _hskip : skipInert? (isFreeAfter before) (c :: r) with
        | some (last, rest) => callsFrom last rest
        | none => callsFrom (some c) r
termination_by s.length
decreasing_by
  · have := lineEnd_length_le r
    simp only [List.length_cons]
    omega
  · have := length_lt_of_callAt? _hcall
    have := congrArg List.length (Balance.eq_append_of_untilClosed? _hargs)
    simp only [List.length_append, List.length_cons] at *
    omega
  · exact length_lt_of_skipInert? _hskip
  · simp

/-- Every call of the vocabulary in a script, in order, with its raw arguments. -/
def calls (script : Text) : List (Verb × Text) := callsFrom none script

/-! ## Reading arguments loosely -/

/-- The string that a piece of text most likely stands for: a literal, the rest of an unterminated
    one, or the text itself. -/
def looseString (s : Text) : Text :=
  match Literal.scan? s with
  | some (value, _) => value
  | none =>
    let body := match s with
      | c :: r => if (c == 'r' || c == 'R') && r.head?.any Literal.isQuote then r else s
      | [] => []
    match body with
    | q :: inner =>
      if Literal.isQuote q then
        Literal.unescape (if inner.getLast? = some q then inner.dropLast else inner)
      else s
    | [] => s

/-- The value that a piece of text stands for where a parameter of this kind is read. -/
def looseValue (verb : Verb) (parameter : Parameter) (s : Text) : Except ArgumentError Value :=
  let wrongType : ArgumentError :=
    ⟨verb, .wrongType parameter.name parameter.kind.name s.quoted⟩
  let s := s.trim
  match parameter.kind with
  | .str => .ok (.str (looseString s))
  | .bool =>
    if s.isEmpty || s.toLower == "none".toList then .ok .none
    else .ok (.bool (Text.mentions "true".toList s.toLower))
  | .int =>
    match (Decimal.float? s).filter Float.isFinite with
    | some x => .ok (.int x.toInt64)
    | none => .error wrongType
  | .float =>
    match Decimal.float? s with
    | some x => .ok (.float x)
    | none => .error wrongType
  | .cells =>
    match Grammar.parseArguments s with
    | .ok ([value], []) => .ok value
    | _ => .error wrongType

/-- The name and the value of an argument written with a single `=`. -/
def keyword? (part : Text) : Option (Text × Text) :=
  let (name, rest) := identifier part
  if name.isEmpty then none
  else match rest.trimStart with
    | '=' :: value => if value.head? = some '=' then none else some (name, Text.trim value)
    | _ => none

/-- Puts a piece of the argument list into the slot that it names, or else into the next one. -/
def place (parameters : List Parameter) (state : List (Option Text) × Nat) (part : Text) :
    List (Option Text) × Nat :=
  let (slots, next) := state
  let named : Option (Nat × Text) := do
    let (name, value) ← keyword? part
    let i ← parameters.findIdx? fun p => p.name = name
    return (i, value)
  match named with
  | some (i, value) => (slots.set i (some value), next)
  | none => if next < slots.length then (slots.set next (some part), next + 1) else (slots, next)

/-- The pieces of a raw argument list. A single string parameter takes the whole text, commas
    included. -/
def pieces (parameters : List Parameter) (raw : Text) : List Text :=
  match parameters with
  | [p] => if p.kind = .str then [raw.trim] else (splitTopLevel (· == ',') raw).map Text.trim
  | _ => (splitTopLevel (· == ',') raw).map Text.trim

/-- Values without the absent ones at their end. -/
def dropTrailingNone (values : List Value) : List Value :=
  (values.reverse.dropWhile Value.isNone).reverse

/-- The invocation that a raw argument list most likely stands for. -/
def looseInvocation (verb : Verb) (raw : Text) : Except ArgumentError Invocation :=
  let parameters := verb.parameters
  if parameters.isEmpty then .ok { verb }
  else do
    let empty : List (Option Text) := List.replicate parameters.length none
    let (slots, _) := (pieces parameters raw).foldl (place parameters) (empty, 0)
    let args ← (slots.zip parameters).mapM fun (slot, parameter) =>
      match slot with
      | none => .ok .none
      | some s => looseValue verb parameter s
    return { verb, args := dropTrailingNone args }

/-! ## Operations -/

/-- The operation of a call with raw arguments. -/
def coerce (verb : Verb) (raw : Text) : Except ArgumentError Operation := do
  let invocation ← match Grammar.parseArguments raw with
    | .ok (args, kwargs) => .ok { verb, args, kwargs }
    | .error _ => looseInvocation verb raw
  Operation.ofInvocation invocation

/-- The operations of a script, calls with unusable arguments left out. Only a script with text but
    no call at all is a failure. -/
def scan (script : Text) : Except ParseFailure (List Operation) :=
  let found := calls script
  if found.isEmpty && !script.isBlankText then .error ⟨⟨1, 1⟩, .noCalls⟩
  else .ok (found.filterMap fun (verb, raw) => (coerce verb raw).toOption)

end Scribe.Scanner
