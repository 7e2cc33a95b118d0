import Scribe.Decimal.Reading
import Scribe.Yaml.Source

set_option autoImplicit false

/-! # Scalars among other tokens

Plain scalars and scalars between quotes. They may run over several lines, and then the blanks
around a line break are folded away. -/

namespace Scribe.Yaml

/-! ## Folding -/

/-- What a run of blanks inside a scalar stands for: a single line break for a space, and more of
    them for all but the first. -/
def fold (gap : Text) : Text :=
  match gap.filter isBreak with
  | [] => gap
  | ['\n'] => [' ']
  | '\n' :: more => more
  | breaks => breaks

/-! ## Plain scalars -/

/-- May a plain scalar begin with a character that is followed by `s`? -/
def startsPlain (inFlow : Bool) (c : Char) (s : Source) : Bool :=
  if c == '-' then !atGap s
  else if c == '?' || c == ':' then !inFlow && !atGap s
  else !(isSpace c || isFlowMark c || "#&*!|>'\"%@\x60".toList.elem c)

/-- Does a plain scalar end before a character that is followed by `s`? -/
def endsPlain (inFlow : Bool) (c : Char) (s : Source) : Bool :=
  (c == ':' && atGap s) || (inFlow && isFlowMark c)

/-- How a plain scalar was read. -/
structure PlainReading where
  text : Text
  /-- Does a line end between the scalar and what follows it? -/
  endsLine : Bool
  rest : Source

/-- The rest of a plain scalar behind the blanks `gap`. Outside brackets its lines are indented by
    at least `margin`. None where tabs stand for indentation, and where a colon stands before a
    bracket. -/
def plain? (inFlow : Bool) (margin : Nat) : Text → Source → Option PlainReading
  | gap, [] => some ⟨[], gap.any isBreak, []⟩
  | gap, x :: s =>
    if isSpace x.char then
      if x.char == '\t' && gap.any isBreak && x.column < margin then none
      else plain? inFlow margin (gap ++ [x.char]) s
    else
      let outdented := !inFlow && x.column < margin
      let atComment := x.char == '#' || atDocumentMarker (x :: s)
      if !gap.isEmpty && (outdented || atComment) then some ⟨[], gap.any isBreak, x :: s⟩
      else if inFlow && x.char == ':' && starts (fun c => isFlowMark c || c == '?') s then none
      else if endsPlain inFlow x.char s then some ⟨[], gap.any isBreak, x :: s⟩
      else (plain? inFlow margin [] s).map fun r => { r with text := fold gap ++ x.char :: r.text }

/-! ## Scalars between quotes -/

/-- The rest of a scalar between single quotes behind the blanks `gap`, and what follows it. -/
def singleQuoted? (gap : Text) : Source → Option (Text × Source)
  | [] => none
  | x :: s =>
    if isSpace x.char then singleQuoted? (gap ++ [x.char]) s
    else if atDocumentMarker (x :: s) then none
    else if x.char == '\'' then
      match s with
      | [] => some (fold gap, [])
      | y :: s =>
        if y.char == '\'' then
          (singleQuoted? [] s).map fun (text, rest) => (fold gap ++ '\'' :: text, rest)
        else some (fold gap, y :: s)
    else (singleQuoted? [] s).map fun (text, rest) => (fold gap ++ x.char :: text, rest)

/-- The character of an escape of one letter. -/
def escape? (c : Char) : Option Char :=
  match c with
  | '0' => some '\x00'
  | 'a' => some '\x07'
  | 'b' => some '\x08'
  | 't' => some '\t'
  | '\t' => some '\t'
  | 'n' => some '\n'
  | 'v' => some '\x0b'
  | 'f' => some '\x0c'
  | 'r' => some '\r'
  | 'e' => some '\x1b'
  | ' ' => some ' '
  | '"' => some '"'
  | '/' => some '/'
  | '\\' => some '\\'
  | 'N' => some '\u0085'
  | '_' => some '\u00a0'
  | 'L' => some '\u2028'
  | 'P' => some '\u2029'
  | _ => none

/-- How many digits follow the letter of a numeric escape. -/
def escapeWidth? (c : Char) : Option Nat :=
  match c with
  | 'x' => some 2
  | 'u' => some 4
  | 'U' => some 8
  | _ => none

/-- The character that `width` hexadecimal digits number. -/
def numbered? (width : Nat) (s : Source) : Option Char := do
  let digits := textOf (s.take width)
  let code ← Decimal.digitsIn? 16 digits
  if digits.length = width ∧ code.isValidChar then return Char.ofNat code
  none

/-- The rest of a scalar between double quotes behind the blanks `gap`, and what follows it. A
    backslash before a line break takes that break and the indentation of the next line away. -/
def doubleQuoted? (gap : Text) : Source → Option (Text × Source)
  | [] => none
  | x :: s =>
    if isSpace x.char then doubleQuoted? (gap ++ [x.char]) s
    else if atDocumentMarker (x :: s) then none
    else if x.char == '"' then some (fold gap, s)
    else if x.char == '\\' then
      match s with
      | [] => none
      | y :: s =>
        if isBreak y.char then
          let blanks := (run isSpace s).1.filter isBreak
          (doubleQuoted? [] (run isSpace s).2).map fun (text, rest) =>
            (fold gap ++ blanks ++ text, rest)
        else
          match escapeWidth? y.char with
          | some width => do
            let c ← numbered? width s
            let (text, rest) ← doubleQuoted? [] (s.drop width)
            return (fold gap ++ c :: text, rest)
          | none => do
            let c ← escape? y.char
            let (text, rest) ← doubleQuoted? [] s
            return (fold gap ++ c :: text, rest)
    else (doubleQuoted? [] s).map fun (text, rest) => (fold gap ++ x.char :: text, rest)
termination_by s => s.length
decreasing_by
  all_goals
    have := length_run_le isSpace s
    simp only [List.length_drop, List.length_cons]
    omega

end Scribe.Yaml
