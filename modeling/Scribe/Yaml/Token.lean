import Scribe.Yaml.BlockScalar
import Scribe.Yaml.Scalar
import Scribe.Yaml.Tag

set_option autoImplicit false

/-! # Tokens

The signs that the structure of a settings file is read from. Indentation becomes the beginnings
and ends of collections. A key is known only by the colon behind it, so its token, and that of a
mapping which it begins, are put in front of what was read as its text. -/

namespace Scribe.Yaml

/-! ## The tokens -/

/-- How a scalar is written. -/
inductive Style where
  | plain
  | quoted
  | literal
  | folded
  deriving DecidableEq, Repr

/-- A sign of the structure of a file. -/
inductive Token where
  | directive (directive : Directive)
  | documentStart
  | documentEnd
  | blockSequence
  | blockMapping
  | blockEnd
  | flowSequence
  | flowSequenceEnd
  | flowMapping
  | flowMappingEnd
  /-- A dash before an item. -/
  | item
  /-- A comma between brackets. -/
  | comma
  | key
  | value
  | alias (name : Text)
  | anchor (name : Text)
  | tag (tag : Tag)
  | scalar (style : Style) (text : Text)
  deriving DecidableEq, Repr

/-! ## Scanners -/

/-- A place where a key may have begun. -/
structure KeyStart where
  /-- How many tokens precede it. -/
  position : Nat
  /-- Must a key begin here? -/
  isRequired : Bool
  place : Placed

/-- What was read of a file, and what is known about the place that was reached. -/
structure Scanner where
  rest : Source
  tokens : List Token := []
  /-- How many columns the open collections outside brackets take, innermost first. -/
  margins : List Nat := []
  /-- Where the text before the current place began, if it may be a key. -/
  key : Option KeyStart := none
  /-- The same for the places in front of the open brackets, innermost first. -/
  outerKeys : List (Option KeyStart) := []
  /-- May a key begin here? -/
  allowsKey : Bool := true

namespace Scanner

/-- Is the place between brackets? -/
def inFlow (sc : Scanner) : Bool := !sc.outerKeys.isEmpty

/-- How many columns the innermost collection takes. -/
def margin (sc : Scanner) : Nat := sc.margins.headD 0

/-- Adds a token. -/
def push (sc : Scanner) (token : Token) : Scanner := { sc with tokens := sc.tokens ++ [token] }

/-! ## Collections -/

/-- Begins a collection at a column outside brackets, unless one is open there; its token comes
    after the first `position` tokens. -/
def enter (sc : Scanner) (column position : Nat) (token : Token) : Scanner :=
  if !sc.inFlow && sc.margin ≤ column then
    { sc with
      margins := (column + 1) :: sc.margins
      tokens := sc.tokens.insertIdx position token }
  else sc

/-- Ends the collections outside brackets that take more than `margin` columns. -/
def leave (sc : Scanner) (margin : Nat) : Scanner :=
  if sc.inFlow then sc
  else
    let margins := sc.margins.dropWhile (margin < ·)
    let ended := sc.margins.length - margins.length
    { sc with margins, tokens := sc.tokens ++ List.replicate ended .blockEnd }

/-! ## Keys -/

/-- Gives up the key that may have begun; none if it was required. -/
def dropKey? (sc : Scanner) : Option Scanner :=
  if sc.key.any KeyStart.isRequired then none else some { sc with key := none }

/-- Notes that a key may begin at a place. -/
def noteKey? (sc : Scanner) (x : Placed) : Option Scanner :=
  if sc.allowsKey then
    let isRequired := !sc.inFlow && sc.margin == x.column + 1
    sc.dropKey?.map fun sc => { sc with key := some ⟨sc.tokens.length, isRequired, x⟩ }
  else some sc

/-- Has a key that began at `k` come to its end before `x`? It stays on one line and is at most
    1024 characters long. -/
def KeyStart.isOver (k : KeyStart) (x : Placed) : Bool :=
  k.place.line < x.line || k.place.offset + 1024 < x.offset

/-- Gives up the keys that have come to their end before a place; none if one was required. -/
def expireKeys? (sc : Scanner) (x : Placed) : Option Scanner :=
  let isOver (k : KeyStart) : Bool := KeyStart.isOver k x
  if (sc.key :: sc.outerKeys).any fun k => k.any fun k => isOver k && k.isRequired then none
  else some { sc with
    key := sc.key.filter (!isOver ·)
    outerKeys := sc.outerKeys.map fun k => k.filter (!isOver ·) }

/-! ## Reading tokens -/

/-- A place without the blanks and comments before it, and whether a key may begin there. Outside
    brackets a new line allows a key; where a key may begin, tabs are no blanks. -/
def skipGaps (inFlow : Bool) (inComment allowsKey : Bool) : Source → Bool × Source
  | [] => (allowsKey, [])
  | x :: s =>
    if isBreak x.char then skipGaps inFlow false (allowsKey || !inFlow) s
    else if inComment then skipGaps inFlow true allowsKey s
    else if x.char == ' ' || (x.char == '\t' && (inFlow || !allowsKey)) then
      skipGaps inFlow false allowsKey s
    else if x.char == '#' then skipGaps inFlow true allowsKey s
    else if x.offset == 0 && x.char == '\ufeff' then skipGaps inFlow false allowsKey s
    else (allowsKey, x :: s)

/-- Reads a sign that no key contains, at the beginning of a line. -/
def atHead? (sc : Scanner) (token : Token) (rest : Source) : Option Scanner := do
  let sc ← (sc.leave 0).dropKey?
  return { sc.push token with rest, allowsKey := false }

/-- Reads an opening bracket. -/
def openBracket? (sc : Scanner) (token : Token) (x : Placed) (rest : Source) : Option Scanner := do
  let sc ← sc.noteKey? x
  return { sc.push token with
    rest, key := none, outerKeys := sc.key :: sc.outerKeys, allowsKey := true }

/-- Reads a closing bracket. -/
def closeBracket? (sc : Scanner) (token : Token) (rest : Source) : Option Scanner := do
  let sc ← sc.dropKey?
  return { sc.push token with
    rest, key := sc.outerKeys.head?.getD none, outerKeys := sc.outerKeys.tail, allowsKey := false }

/-- Reads a comma between brackets. -/
def comma? (sc : Scanner) (rest : Source) : Option Scanner := do
  let sc ← sc.dropKey?
  return { sc.push .comma with rest, allowsKey := true }

/-- Reads the dash of an item. -/
def item? (sc : Scanner) (x : Placed) (rest : Source) : Option Scanner := do
  if !sc.inFlow && !sc.allowsKey then none
  let sc ← (sc.enter x.column sc.tokens.length .blockSequence).dropKey?
  return { sc.push .item with rest, allowsKey := true }

/-- Reads the question mark of a key. -/
def key? (sc : Scanner) (x : Placed) (rest : Source) : Option Scanner := do
  if !sc.inFlow && !sc.allowsKey then none
  let sc ← (sc.enter x.column sc.tokens.length .blockMapping).dropKey?
  return { sc.push .key with rest, allowsKey := !sc.inFlow }

/-- Reads the colon behind a key. -/
def value? (sc : Scanner) (x : Placed) (rest : Source) : Option Scanner :=
  match sc.key with
  | some k =>
    let sc := { sc with tokens := sc.tokens.insertIdx k.position .key, key := none }
    let sc := sc.enter k.place.column k.position .blockMapping
    some { sc.push .value with rest, allowsKey := false }
  | none =>
    if !sc.inFlow && !sc.allowsKey then none
    else
      let sc := sc.enter x.column sc.tokens.length .blockMapping
      some { sc.push .value with rest, allowsKey := !sc.inFlow }

/-- Reads an anchor, an alias or a tag, or a scalar between quotes. -/
def word? (sc : Scanner) (x : Placed) (read : Option (Token × Source)) : Option Scanner := do
  let sc ← sc.noteKey? x
  let (token, rest) ← read
  return { sc.push token with rest, allowsKey := false }

/-- Reads a plain scalar that begins with `x`. -/
def plain? (sc : Scanner) (x : Placed) (rest : Source) : Option Scanner := do
  let sc ← sc.noteKey? x
  let r ← Yaml.plain? sc.inFlow sc.margin [] (x :: rest)
  return { sc.push (.scalar .plain r.text) with rest := r.rest, allowsKey := r.endsLine }

/-- Reads a scalar on lines of its own. -/
def block? (sc : Scanner) (style : Style) (rest : Source) : Option Scanner := do
  let sc ← sc.dropKey?
  let (text, rest) ← blockScalar? (style == .folded) sc.margin rest
  return { sc.push (.scalar style text) with rest, allowsKey := true }

/-- Reads a token that begins with the character `x`. -/
def token? (sc : Scanner) (x : Placed) (s : Source) : Option Scanner :=
  if x.column == 0 && x.char == '%' then do
    let (directive, rest) ← directive? s
    sc.atHead? (.directive directive) rest
  else if atMarker '-' (x :: s) then sc.atHead? .documentStart (s.drop 2)
  else if atMarker '.' (x :: s) then sc.atHead? .documentEnd (s.drop 2)
  else
    match x.char with
    | '[' => sc.openBracket? .flowSequence x s
    | '\x7b' => sc.openBracket? .flowMapping x s
    | ']' => sc.closeBracket? .flowSequenceEnd s
    | '\x7d' => sc.closeBracket? .flowMappingEnd s
    | ',' => sc.comma? s
    | '*' => sc.word? x ((anchorName? s).map fun (name, rest) => (.alias name, rest))
    | '&' => sc.word? x ((anchorName? s).map fun (name, rest) => (.anchor name, rest))
    | '!' => sc.word? x ((tag? sc.inFlow s).map fun (tag, rest) => (.tag tag, rest))
    | '\'' => sc.word? x ((singleQuoted? [] s).map fun (text, rest) => (.scalar .quoted text, rest))
    | '"' => sc.word? x ((doubleQuoted? [] s).map fun (text, rest) => (.scalar .quoted text, rest))
    | c =>
      if c == '-' && atGap s then sc.item? x s
      else if c == '?' && (sc.inFlow || atGap s) then sc.key? x s
      else if c == ':' && (sc.inFlow || atGap s) then sc.value? x s
      else if c == '|' && !sc.inFlow then sc.block? .literal s
      else if c == '>' && !sc.inFlow then sc.block? .folded s
      else if startsPlain sc.inFlow c s then sc.plain? x s
      else none

/-- The tokens of a file, of which at most `bound` are still to be read. -/
def tokens? : Nat → Scanner → Option (List Token)
  | 0, _ => none
  | bound + 1, sc =>
    let (allowsKey, rest) := skipGaps sc.inFlow false sc.allowsKey sc.rest
    match rest with
    | [] => (sc.leave 0).dropKey?.map Scanner.tokens
    | x :: s => do
      let sc ← { sc with rest, allowsKey }.expireKeys? x
      tokens? bound (← (sc.leave (x.column + 1)).token? x s)

end Scanner

/-- The tokens of a settings file; each takes at least one character. -/
def Token.ofText? (s : Text) : Option (List Token) :=
  (sourceOf? s).bind fun source => Scanner.tokens? (source.length + 1) { rest := source }

end Scribe.Yaml
