import Scribe.Decimal.Reading
import Scribe.Yaml.Source

set_option autoImplicit false

/-! # Anchors, tags and directives

What may be said about a value before it: the name that other places refer to it by, and its tag.
A tag is a suffix behind a handle, and directives at the head of a document say what the handles
stand for. -/

namespace Scribe.Yaml

/-! ## Anchors -/

/-- The name of an anchor, and what follows it. -/
def anchorName? (s : Source) : Option (Text × Source) :=
  let (name, rest) := run isNameChar s
  let ends := atGap rest || starts "?:,]\x7d%@\x60".toList.elem rest
  if !name.isEmpty && ends then some (name, rest) else none

/-! ## Tag characters -/

/-- May a character stand for itself in a tag? Between angle brackets and in directives some more
    may. -/
def isTagChar (wide : Bool) (c : Char) : Bool :=
  isNameChar c || ";/?:@&=+$.!~*'()".toList.elem c || (wide && ",[]".toList.elem c)

/-- The octet that a percent sign and two digits write, and what follows them. -/
def octet? (s : Source) : Option (Nat × Source) :=
  match s with
  | x :: a :: b :: s =>
    if x.char == '%' then (Decimal.digitsIn? 16 [a.char, b.char]).map fun n => (n, s) else none
  | _ => none

theorem length_lt_of_octet? {s : Source} {n : Nat} {rest : Source}
    (h : octet? s = some (n, rest)) : rest.length < s.length := by
  unfold octet? at h
  split at h
  · split at h
    · obtain ⟨_, _, h⟩ := Option.map_eq_some_iff.1 h
      simp only [Prod.mk.injEq] at h
      simp only [← h.2, List.length_cons]
      omega
    · simp at h
  · simp at h

/-- How many octets a character takes that begins with an octet; none for an octet that does not
    begin a character. -/
def octetCount? (first : Nat) : Option Nat :=
  if first < 0x80 then some 1
  else if 0xC0 ≤ first ∧ first < 0xE0 then some 2
  else if 0xE0 ≤ first ∧ first < 0xF0 then some 3
  else if 0xF0 ≤ first ∧ first < 0xF8 then some 4
  else none

/-- The characters of a tag, and what follows them. A percent sign writes an octet, `due` of which
    are still to come before the next character. -/
def tagText? (wide : Bool) (due : Nat) (s : Source) : Option (Text × Source) :=
  match _h : octet? s with
  | some (n, rest) => do
    let due ← if due = 0 then (octetCount? n).map (· - 1)
      else if 0x80 ≤ n ∧ n < 0xC0 then some (due - 1) else none
    let (text, rest) ← tagText? wide due rest
    return (Char.ofNat n :: text, rest)
  | none =>
    if due ≠ 0 then none
    else
      match s with
      | [] => some ([], [])
      | x :: s =>
        if x.char == '%' then none
        else if isTagChar wide x.char then
          (tagText? wide 0 s).map fun (text, rest) => (x.char :: text, rest)
        else some ([], x :: s)
termination_by s.length
decreasing_by
  · exact length_lt_of_octet? _h
  · simp

/-- The characters of a tag, of which there is at least one, and what follows them. -/
def tagTail? (wide : Bool) (s : Source) : Option (Text × Source) :=
  (tagText? wide 0 s).filter fun (text, _) => !text.isEmpty

/-! ## Tags -/

/-- A tag as it is written. -/
structure Tag where
  /-- What a directive explains; empty for a tag that is complete. -/
  handle : Text
  suffix : Text
  deriving DecidableEq, Repr

/-- The tag behind an exclamation mark, and what follows it. -/
def tagBody? (s : Source) : Option (Tag × Source) := do
  if starts (· == '<') s then
    let (suffix, rest) ← tagTail? true (s.drop 1)
    if starts (· == '>') rest then return (⟨[], suffix⟩, rest.drop 1) else none
  else
    let (name, rest) := run isNameChar s
    if starts (· == '!') rest then
      let (suffix, rest) ← tagTail? false (rest.drop 1)
      return (⟨'!' :: name ++ ['!'], suffix⟩, rest)
    else
      let (text, rest) ← tagText? false 0 s
      return (if text.isEmpty then ⟨[], ['!']⟩ else ⟨['!'], text⟩, rest)

/-- The tag behind an exclamation mark and what follows it; it must end at a gap, or between
    brackets before a comma. -/
def tag? (inFlow : Bool) (s : Source) : Option (Tag × Source) :=
  (tagBody? s).filter fun (_, rest) => (inFlow && starts (· == ',') rest) || atGap rest

/-- What handles stand for, unless a directive says otherwise. -/
def standardHandles : List (Text × Text) :=
  [ ("!".toList, "!".toList), ("!!".toList, "tag:yaml.org,2002:".toList) ]

/-- The whole of a tag, given what the handles stand for. -/
def Tag.name? (handles : List (Text × Text)) (tag : Tag) : Option Text :=
  if tag.handle.isEmpty then some tag.suffix
  else (handles.lookup tag.handle).map (· ++ tag.suffix)

/-! ## Directives -/

/-- What the head of a document says. -/
inductive Directive where
  /-- The version that it follows. -/
  | version (major minor : Nat)
  /-- What a handle stands for. -/
  | handle (name meaning : Text)
  deriving DecidableEq, Repr

/-- A number of at most nine digits, and what follows it. -/
def versionNumber? (s : Source) : Option (Nat × Source) :=
  let (digits, rest) := run Char.isDigit s
  if digits.length ≤ 9 then (Decimal.digits? digits).map fun n => (n, rest) else none

/-- A handle in a directive, and what follows it. -/
def handle? (s : Source) : Option (Text × Source) :=
  if starts (· == '!') s then
    let (name, rest) := run isNameChar (s.drop 1)
    if starts (· == '!') rest then some ('!' :: name ++ ['!'], rest.drop 1)
    else if name.isEmpty then some (['!'], rest)
    else none
  else none

/-- The directive behind a percent sign, and the lines below it. -/
def directive? (s : Source) : Option (Directive × Source) := do
  let (name, rest) := run isNameChar s
  if !atGap rest then none
  let (_, rest) := run Text.isGap rest
  if name = "YAML".toList then
    let (major, rest) ← versionNumber? rest
    if !starts (· == '.') rest then none
    let (minor, rest) ← versionNumber? (rest.drop 1)
    return (.version major minor, ← nextLine? rest)
  else if name = "TAG".toList then
    let (handle, rest) ← handle? rest
    if !starts Text.isGap rest then none
    let (meaning, rest) ← tagTail? true (run Text.isGap rest).2
    if !atGap rest then none
    return (.handle handle meaning, ← nextLine? rest)
  else none

end Scribe.Yaml
