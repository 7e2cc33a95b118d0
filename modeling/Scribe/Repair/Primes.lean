import Scribe.Script.Call

set_option autoImplicit false

/-! # Primes and equation text

Equation literals spell the prime in many ways. All of them become the apostrophe, except that a
roman `F` keeps the one spelling that is rendered well. The module also tells by its text whether a
literal is an equation at all. -/

namespace Scribe.Repair

open Text (isWhite isWord)

/-! ## Replacement rules -/

/-- What a rule puts in place of a match, and the text behind the match. -/
structure Replacement where
  substitute : Text
  rest : Text

/-- A replacement rule: given the character in front of a place and the text from there on, it
    recognises a match or declines. -/
abbrev Rule := Option Char → Text → Option Replacement

/-- Applies a rule from the left, without overlap, wherever it matches. -/
def Rule.replace (rule : Rule) (before : Option Char) (s : Text) : Text :=
  match s with
  | [] => []
  | c :: r =>
    match rule before (c :: r) with
    | none => c :: rule.replace (some c) r
    | some found =>
      if found.rest.length ≤ r.length then
        found.substitute ++ rule.replace (c :: r)[r.length - found.rest.length]? found.rest
      else c :: rule.replace (some c) r
termination_by s.length

/-! ## Pieces of rules -/

/-- Skips white space. -/
def skipWhite (s : Text) : Text := s.dropWhile isWhite

/-- The text behind one or more backslashes. -/
def backslashes? : Text → Option Text
  | '\\' :: s => some (s.dropWhile (· == '\\'))
  | _ => none

/-- The text behind a word in small letters that may be written in any case. -/
def anyCase? (word s : Text) : Option Text :=
  if Text.toLower (s.take word.length) = word then some (s.drop word.length) else none

/-- The text, if no word goes on at its start. -/
def wordEnd? (s : Text) : Option Text := if s.head?.any isWord then none else some s

/-- The text behind `rm` at the start of a word. -/
def roman? (before : Option Char) (s : Text) : Option Text :=
  if before.any isWord then none else Text.stripStart? "rm".toList s

/-- The spelling of the prime: a word in small letters. -/
def primeWord : Text := "prime".toList

/-- The one spelling of a primed roman `F`. -/
def romanFPrime : Text := "rm F prime".toList

/-! ## Prime rules -/

/-- The command `\prime`, with any number of backslashes and in any case. -/
def escapedPrime : Rule := fun _ s => do
  let rest ← wordEnd? (← anyCase? primeWord (← backslashes? s))
  return ⟨['\''], rest⟩

/-- The word `prime` as a superscript, with or without braces. -/
def superscriptPrime : Rule := fun _ s => do
  let s ← Text.stripStart? ['^'] s
  match skipWhite s with
  | '{' :: s =>
    let s ← Text.stripStart? primeWord (skipWhite s)
    let rest ← Text.stripStart? ['}'] (skipWhite s)
    return ⟨['\''], rest⟩
  | s =>
    let rest ← wordEnd? (← Text.stripStart? primeWord s)
    return ⟨['\''], rest⟩

/-- An apostrophe behind backslashes. -/
def escapedApostrophe : Rule := fun _ s => do
  let rest ← Text.stripStart? ['\''] (← backslashes? s)
  return ⟨['\''], rest⟩

/-- A roman letter with a backslash for a prime, where no command follows. -/
def romanBackslash : Rule := fun before s => do
  match skipWhite (← roman? before s) with
  | [] => none
  | letter :: s =>
    if !letter.isAlpha then none
    else match skipWhite s with
      | ['\\'] => return ⟨['r', 'm', letter, '\''], []⟩
      | '\\' :: c :: rest =>
        if c.isAlpha then none else return ⟨['r', 'm', letter, '\'', c], rest⟩
      | _ => none

/-- A roman `F` with an apostrophe. -/
def romanFApostrophe : Rule := fun before s => do
  let s ← Text.stripStart? ['F'] (skipWhite (← roman? before s))
  let rest ← Text.stripStart? ['\''] (skipWhite s)
  return ⟨romanFPrime, rest⟩

/-- A roman `F` with the word `prime`, in any case. -/
def romanFWord : Rule := fun before s => do
  if before.any isWord then none
  let s ← anyCase? ['f'] (skipWhite (← anyCase? "rm".toList s))
  let rest ← wordEnd? (← anyCase? primeWord (skipWhite s))
  return ⟨romanFPrime, rest⟩

/-- A primed roman letter that is set apart by white space. -/
def romanSpaced : Rule := fun before s => do
  match ← roman? before s with
  | c :: s =>
    if !isWhite c then none
    else match skipWhite s with
      | letter :: '\'' :: rest =>
        if letter.isAlpha then return ⟨['r', 'm', letter, '\''], rest⟩ else none
      | _ => none
  | [] => none

/-- Typographic primes as apostrophes. -/
def plainPrimes (s : Text) : Text := s.map fun c => if c == '′' || c == '’' then '\'' else c

/-- A backslash that stands for a prime: behind a letter and not in front of one. -/
def bareBackslashes (before : Option Char) : Text → Text
  | [] => []
  | c :: s =>
    let isPrime := c == '\\' && before.any Char.isAlpha && !s.head?.any Char.isAlpha
    (if isPrime then '\'' else c) :: bareBackslashes (some c) s

/-- The text with every prime in its canonical spelling. -/
def canonicalPrimes (s : Text) : Text :=
  let s := plainPrimes s
  let s := escapedPrime.replace none s
  let s := superscriptPrime.replace none s
  let s := escapedApostrophe.replace none s
  let s := romanBackslash.replace none s
  let s := bareBackslashes none s
  let s := romanFApostrophe.replace none s
  let s := romanFWord.replace none s
  romanSpaced.replace none s

/-- Canonical primes in the literals of equation lines. -/
def canonicalizeEquations (s : Text) : Text :=
  Text.unlines ((Text.lines s).map
    (updateLiteral [.insertEquation, .insertLatexEquation] canonicalPrimes))

/-! ## Text that is an equation -/

/-- Words that hardly occur outside equations. -/
def equationMarkers : List Text :=
  [ "\x7brm".toList, "rm ".toList, "\x7bbold".toList, "bold ".toList, "vec\x7b".toList,
    "CDOT".toList, "dint".toList, "curl".toList, "div".toList, "LEFT".toList, "RIGHT".toList,
    "over".toList, "sqrt".toList, "it ".toList, "SIM".toList, "DEG".toList, "ANGLE".toList,
    "pi".toList ]

/-- Words that count as the syntax of equations. -/
def equationWords : List Text :=
  [ "CDOT".toList, "LEFT".toList, "RIGHT".toList, "dint".toList, "curl".toList, "div".toList,
    "vec".toList, "rm".toList, "bold".toList ]

/-- Characters that count as the syntax of equations. -/
def isEquationSign (c : Char) : Bool := "=^_\x7b\x7d()".toList.contains c

/-- Is a text literal written in the equation notation? It needs a marker and some syntax. -/
def looksLikeEquation (s : Text) : Bool :=
  let s := s.trim
  equationMarkers.any (Text.mentions · s)
    && (s.any isEquationSign || equationWords.any (Text.mentions · s))

end Scribe.Repair
