import Scribe.Text.Basic

set_option autoImplicit false

/-! # Quote and bracket balance

A running reading of script text that knows whether it stands inside a string literal and how many
parentheses and brackets are open outside literals. Surplus closers are ignored. -/

namespace Scribe

/-- What is open after some text. -/
structure Balance where
  /-- The quote character of the literal that is open, if one is. -/
  quote : Option Char := none
  /-- Does an unpaired backslash precede, inside the literal? -/
  escaped : Bool := false
  /-- Parentheses open outside literals. -/
  parens : Nat := 0
  /-- Brackets open outside literals. -/
  brackets : Nat := 0
  deriving DecidableEq, Repr

namespace Balance

/-- Reads one character. -/
def feed (b : Balance) (c : Char) : Balance :=
  match b.quote with
  | some q =>
    if b.escaped then { b with escaped := false }
    else if c = '\\' then { b with escaped := true }
    else if c = q then { b with quote := none }
    else b
  | none =>
    if c = '\'' ∨ c = '"' then { b with quote := some c }
    else if c = '(' then { b with parens := b.parens + 1 }
    else if c = ')' then { b with parens := b.parens - 1 }
    else if c = '[' then { b with brackets := b.brackets + 1 }
    else if c = ']' then { b with brackets := b.brackets - 1 }
    else b

/-- Reads a text. -/
def feedAll (b : Balance) (s : Text) : Balance := s.foldl feed b

/-- The balance of a text read from its start. -/
def scan (s : Text) : Balance := feedAll {} s

/-- Is a string literal open? -/
def inQuote (b : Balance) : Bool := b.quote.isSome

/-- Is nothing open? -/
def atTopLevel (b : Balance) : Bool := b.quote.isNone && b.parens == 0 && b.brackets == 0

/-- Closes at the end of `s` what is open there: the literal in its own quote style, then the
    brackets, then the parentheses. A backslash left unpaired in the literal is dropped. -/
def closeOpen (b : Balance) (s : Text) : Text :=
  let literal := match b.quote with
    | some q => (if b.escaped then s.dropLast else s) ++ [q]
    | none => s
  literal ++ List.replicate b.brackets ']' ++ List.replicate b.parens ')'

/-- The text up to the parenthesis after which none is open any more, and what follows it. -/
def untilClosed? (b : Balance) : Text → Option (Text × Text)
  | [] => none
  | c :: s =>
    let b := b.feed c
    if c = ')' ∧ b.quote = none ∧ b.parens = 0 then some ([], s)
    else (b.untilClosed? s).map fun (inner, rest) => (c :: inner, rest)

/-- Nothing is lost where a text is cut at a closing parenthesis. -/
theorem eq_append_of_untilClosed? {b : Balance} {s inner rest : Text}
    (h : b.untilClosed? s = some (inner, rest)) : s = inner ++ ')' :: rest := by
  induction s generalizing b inner with
  | nil => simp [untilClosed?] at h
  | cons c s ih =>
    simp only [untilClosed?] at h
    split at h
    · next hc => simp_all
    · obtain ⟨⟨i, r⟩, hir, heq⟩ := Option.map_eq_some_iff.1 h
      cases heq
      simp [← ih hir]

/-- The argument list behind an opening parenthesis, and what follows its closing one. -/
def argumentList? (s : Text) : Option (Text × Text) := untilClosed? { parens := 1 } s

/-- The pieces of a text between separators that stand outside literals, parentheses and
    brackets. -/
def splitFrom (sep : Char → Bool) (b : Balance) : Text → List Text
  | [] => [[]]
  | c :: s =>
    if b.atTopLevel && sep c then [] :: splitFrom sep b s
    else match splitFrom sep (b.feed c) s with
      | [] => [[c]]
      | p :: ps => (c :: p) :: ps

end Balance

/-- The pieces of a text between separators at top level. -/
def splitTopLevel (sep : Char → Bool) (s : Text) : List Text := Balance.splitFrom sep {} s

end Scribe
