import Scribe.Text.Basic

set_option autoImplicit false

/-! # String literals

A literal stands between two equal quotes on one line. A backslash takes the next character with
it, whatever it is; a few such pairs mean another character and the rest mean themselves. The
letter `r` before the opening quote keeps the inside verbatim. -/

namespace Scribe.Literal

/-! ## Reading -/

/-- Is this a quote character? -/
def isQuote (c : Char) : Bool := c == '\'' || c == '"'

/-- The inside of a literal whose opening quote `q` has been read, and what follows the closing
    one. -/
def inside? (q : Char) : Text → Option (Text × Text)
  | [] => none
  | '\\' :: c :: s => (inside? q s).map fun (inner, rest) => ('\\' :: c :: inner, rest)
  | c :: s =>
    if c = q then some ([], s)
    else if c = '\n' then none
    else (inside? q s).map fun (inner, rest) => (c :: inner, rest)

/-- Nothing is lost where a text is cut at a closing quote. -/
theorem eq_append_of_inside? {q : Char} {s inner rest : Text}
    (h : inside? q s = some (inner, rest)) : s = inner ++ q :: rest := by
  fun_induction inside? q s generalizing inner with
  | case1 => simp at h
  | case2 c s ih =>
    obtain ⟨⟨i, r⟩, hir, heq⟩ := Option.map_eq_some_iff.1 h
    cases heq
    simp [← ih hir]
  | case3 => simp_all
  | case4 => simp at h
  | case5 c s _ _ _ ih =>
    obtain ⟨⟨i, r⟩, hir, heq⟩ := Option.map_eq_some_iff.1 h
    cases heq
    simp [← ih hir]

/-- Decodes the escapes of a literal. Unknown escapes keep their backslash. -/
def unescape : Text → Text
  | [] => []
  | '\\' :: c :: s =>
    match c with
    | 'n' => '\n' :: unescape s
    | 't' => '\t' :: unescape s
    | 'r' => '\r' :: unescape s
    | '\\' => '\\' :: unescape s
    | '\'' => '\'' :: unescape s
    | '"' => '"' :: unescape s
    | other => '\\' :: other :: unescape s
  | c :: s => c :: unescape s

/-- A literal at the start of a text that has no verbatim mark: its value and what follows. -/
def scanPlain? (decode : Text → Text) : Text → Option (Text × Text)
  | [] => none
  | q :: s =>
    if isQuote q then (inside? q s).map fun (inner, rest) => (decode inner, rest) else none

/-- The literal at the start of a text: its value and what follows it. -/
def scan? : Text → Option (Text × Text)
  | 'r' :: s => scanPlain? id s
  | 'R' :: s => scanPlain? id s
  | s => scanPlain? unescape s

theorem length_lt_of_scanPlain? {decode : Text → Text} {s value rest : Text}
    (h : scanPlain? decode s = some (value, rest)) : rest.length < s.length := by
  cases s with
  | nil => simp [scanPlain?] at h
  | cons q s =>
    simp only [scanPlain?] at h
    split at h
    · obtain ⟨⟨i, r⟩, hir, heq⟩ := Option.map_eq_some_iff.1 h
      cases heq
      simp [eq_append_of_inside? hir]
      omega
    · simp at h

theorem length_lt_of_scan? {s value rest : Text}
    (h : scan? s = some (value, rest)) : rest.length < s.length := by
  unfold scan? at h
  split at h
  · exact Nat.lt_succ_of_lt (length_lt_of_scanPlain? h)
  · exact Nat.lt_succ_of_lt (length_lt_of_scanPlain? h)
  · exact length_lt_of_scanPlain? h

/-! ## Writing -/

/-- The quote style of a value: single quotes unless it holds a single quote and no double one. -/
def quoteStyle (value : Text) : Char :=
  if value.contains '\'' && !value.contains '"' then '"' else '\''

/-- A character as it stands between quotes `q`. -/
def escapeChar (q c : Char) : Text :=
  if c = '\\' then ['\\', '\\']
  else if c = '\n' then ['\\', 'n']
  else if c = '\t' then ['\\', 't']
  else if c = '\r' then ['\\', 'r']
  else if c = q then ['\\', c]
  else [c]

/-- The literal that denotes a value. -/
def quote (value : Text) : Text :=
  let q := quoteStyle value
  q :: value.flatMap (escapeChar q) ++ [q]

end Scribe.Literal
