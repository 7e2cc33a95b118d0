import Scribe.Text.Classes
import Scribe.Script.Verb
import Scribe.Script.Balance
import Scribe.Script.Literal

set_option autoImplicit false

/-! # Calls in raw text

Finding calls of the vocabulary anywhere in a text, taking a line apart that is one call, and
writing calls. -/

namespace Scribe

open Text (isIdentChar isIdentStart isGap)

/-! ## Identifiers -/

/-- The identifier at the start of a text and what follows it; the identifier is empty if there is
    none. -/
def identifier (s : Text) : Text × Text :=
  match s with
  | [] => ([], [])
  | c :: r =>
    if isIdentStart c then (c :: r.takeWhile isIdentChar, r.dropWhile isIdentChar) else ([], c :: r)

/-- Nothing is lost where a text is cut behind its identifier. -/
theorem identifier_append (s : Text) : (identifier s).1 ++ (identifier s).2 = s := by
  cases s with
  | nil => rfl
  | cons c r =>
    simp only [identifier]
    split
    · simp [List.takeWhile_append_dropWhile]
    · rfl

/-- May a name start directly behind this character? -/
def isFreeAfter (before : Option Char) : Bool := !before.any isIdentChar

/-! ## Calls of the vocabulary -/

/-- The beginning of a call of the vocabulary. -/
structure CallHead where
  /-- The operation called. -/
  verb : Verb
  /-- The spaces and tabs between the name and the parenthesis. -/
  gap : Text
  /-- The text behind the opening parenthesis. -/
  rest : Text
  deriving DecidableEq, Repr

/-- What a call head consists of, up to and including the parenthesis. -/
def CallHead.lead (h : CallHead) : Text := h.verb.name ++ h.gap ++ ['(']

/-- The head of a call whose name has been read. -/
def CallHead.ofName? (verb : Verb) (s : Text) : Option CallHead :=
  match s.dropWhile isGap with
  | '(' :: rest => some ⟨verb, s.takeWhile isGap, rest⟩
  | _ => none

theorem CallHead.eq_of_ofName? {verb : Verb} {s : Text} {head : CallHead}
    (h : CallHead.ofName? verb s = some head) :
    head.verb = verb ∧ s = head.gap ++ '(' :: head.rest := by
  unfold ofName? at h
  split at h
  · next rest hrest =>
    cases h
    exact ⟨rfl, by rw [← hrest, List.takeWhile_append_dropWhile]⟩
  · simp at h

/-- The call of the vocabulary that starts with the text, if the place is free: its name is the
    whole identifier there. -/
def callAt? (free : Bool) (s : Text) : Option CallHead :=
  if free then
    (Verb.ofName? (identifier s).1).bind fun verb => CallHead.ofName? verb (identifier s).2
  else none

/-- A call starts with its lead. -/
theorem eq_append_of_callAt? {free : Bool} {s : Text} {head : CallHead}
    (h : callAt? free s = some head) : s = head.lead ++ head.rest := by
  unfold callAt? at h
  split at h
  · obtain ⟨v, hv, hh⟩ := Option.bind_eq_some_iff.1 h
    obtain ⟨hverb, hs⟩ := CallHead.eq_of_ofName? hh
    have := identifier_append s
    rw [← this, ← Verb.name_of_ofName? hv, hs]
    simp [CallHead.lead, hverb]
  · simp at h

/-- Does the text hold a call, at any place, of an operation that satisfies `p`? -/
def anyCall (p : Verb → Bool) (free : Bool) : Text → Bool
  | [] => false
  | c :: s => (callAt? free (c :: s)).any (fun h => p h.verb) || anyCall p (isFreeAfter (some c)) s

/-- Does the line hold a call of the vocabulary anywhere? -/
def mentionsCall (line : Text) : Bool := anyCall (fun _ => true) true line

/-! ## Positions in bytes -/

/-- Where a call of the vocabulary stands in a text. -/
structure CallSite where
  /-- The offset of the name in bytes. -/
  start : Nat
  verb : Verb
  /-- The offset of the opening parenthesis in bytes. -/
  paren : Nat
  deriving DecidableEq, Repr

/-- May a name start at this offset? A place inside a character or past the end counts as free. -/
def isFreeAt (s : Text) (offset : Nat) : Bool :=
  match Text.splitAtByte? offset s with
  | some (head, _) => isFreeAfter head.getLast?
  | none => true

/-- The call of the vocabulary that starts at an offset. -/
def siteAt? (s : Text) (offset : Nat) : Option CallSite := do
  let (_, rest) ← Text.splitAtByte? offset s
  let head ← callAt? (isFreeAt s offset) rest
  return ⟨offset, head.verb, offset + Text.utf8Length head.lead - 1⟩

/-- The calls of the vocabulary that start anywhere in a text. -/
def callSites (s : Text) : List CallSite :=
  (List.range (Text.utf8Length s)).filterMap (siteAt? s)

/-- The offset behind the parenthesis that closes what is opened from an offset on. -/
def closingOffset? (s : Text) (offset : Nat) : Option Nat := do
  let (_, rest) ← Text.splitAtByte? offset s
  let (inner, _) ← Balance.untilClosed? {} rest
  return offset + Text.utf8Length inner + 1

/-! ## Lines that are one call -/

/-- A line of the exact form `name(args)`. -/
structure CallLine where
  /-- The name called, of the vocabulary or not. -/
  name : Text
  /-- The raw argument list. -/
  args : Text
  deriving DecidableEq, Repr

/-- Takes a line apart that is one complete call and nothing else. -/
def CallLine.ofLine? (line : Text) : Option CallLine :=
  let (name, after) := identifier line.trim
  if name.isEmpty then none
  else match after.trimStart with
    | '(' :: rest =>
      match Balance.argumentList? rest with
      | some (args, []) => some ⟨name, args⟩
      | _ => none
    | _ => none

/-- The string literal an argument list starts with, and the text behind it, which is empty or
    goes on with a comma. -/
def firstLiteral? (args : Text) : Option (Text × Text) :=
  (Literal.scan? args.trimStart).filter fun (_, rest) =>
    match rest.trimStart with
    | [] => true
    | c :: _ => c == ','

/-- The value of an argument list that is exactly one string literal. -/
def singleLiteral? (args : Text) : Option Text :=
  (firstLiteral? args).bind fun (value, rest) =>
    if rest.isBlankText then some value else none

/-- The value of a line that calls `verb` with exactly one string literal. -/
def callLiteral? (line : Text) (verb : Verb) : Option Text :=
  (CallLine.ofLine? line).bind fun call =>
    if call.name = verb.name then singleLiteral? call.args else none

/-! ## Writing calls -/

/-- The call of `verb` with one string literal. -/
def renderCall (verb : Verb) (value : Text) : Text :=
  verb.name ++ '(' :: Literal.quote value ++ [')']

/-- A call to one of `verbs` with its leading literal passed through `f`, if that changes it. -/
def updatedCall? (verbs : List Verb) (f : Text → Text) (line : Text) : Option Text := do
  let call ← CallLine.ofLine? line
  let verb ← (Verb.ofName? call.name).filter verbs.contains
  let (value, rest) ← firstLiteral? call.args
  if f value = value then none
  else some (verb.name ++ '(' :: Literal.quote (f value) ++ rest ++ [')'])

/-- Passes the leading literal of a call to one of `verbs` through `f`. A line whose value does not
    change stays as it is. -/
def updateLiteral (verbs : List Verb) (f : Text → Text) (line : Text) : Text :=
  (updatedCall? verbs f line).getD line

end Scribe
