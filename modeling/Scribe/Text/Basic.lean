set_option autoImplicit false

/-! # Text as a list of characters

Scripts, lines and literal values are lists of Unicode scalar values. Positions inside a text are
splits of it (what was read, what is left), so scanners recurse on the text itself; a numeric
position appears only at the boundary, where it counts UTF-8 bytes. -/

namespace Scribe

/-- A text: the characters of a script, a line or a literal value. -/
abbrev Text := List Char

namespace Text

/-! ## White space and trimming -/

/-- The characters of the Unicode property `White_Space`. -/
def isWhite (c : Char) : Bool :=
  let n := c.toNat
  (9 ≤ n && n ≤ 13) || n == 32 || n == 0x85 || n == 0xA0 || n == 0x1680
    || (0x2000 ≤ n && n ≤ 0x200A) || n == 0x2028 || n == 0x2029 || n == 0x202F || n == 0x205F
    || n == 0x3000

/-- A space or a tab: the blanks that stay on their line. -/
def isGap (c : Char) : Bool := c == ' ' || c == '\t'

/-- A space, a tab or a line break: the blanks a call may contain between its parts. -/
def isBlank (c : Char) : Bool := c == ' ' || c == '\t' || c == '\r' || c == '\n'

/-- The text without its leading white space. -/
def trimStart (s : Text) : Text := s.dropWhile isWhite

/-- The text without its trailing white space. -/
def trimEnd (s : Text) : Text := (s.reverse.dropWhile isWhite).reverse

/-- The text without its surrounding white space. -/
def trim (s : Text) : Text := trimEnd (trimStart s)

/-- Does a text hold nothing but white space? -/
def isBlankText (s : Text) : Bool := s.all isWhite

/-- The maximal runs of a text without white space. -/
def words (s : Text) : List Text :=
  match _h : s.dropWhile isWhite with
  | [] => []
  | c :: r => (c :: r.takeWhile (!isWhite ·)) :: words (r.dropWhile (!isWhite ·))
termination_by s.length
decreasing_by
  have h₁ : (s.dropWhile isWhite).length ≤ s.length := (List.dropWhile_sublist _).length_le
  have h₂ : (r.dropWhile (!isWhite ·)).length ≤ r.length := (List.dropWhile_sublist _).length_le
  simp only [_h, List.length_cons] at h₁
  omega

/-! ## Lines -/

/-- The lines of a text: a line feed ends a line together with one carriage return before it, and
    the end of the text ends a last line that is not empty. -/
def lines : Text → List Text
  | [] => []
  | '\n' :: s => [] :: lines s
  | '\r' :: '\n' :: s => [] :: lines s
  | c :: s =>
    match lines s with
    | [] => [[c]]
    | l :: ls => (c :: l) :: ls

/-- Lines joined by line feeds. -/
def unlines (ls : List Text) : Text := List.intercalate ['\n'] ls

/-- The pieces of a text between the characters that satisfy `sep`. -/
def splitAll (sep : Char → Bool) : Text → List Text
  | [] => [[]]
  | c :: s =>
    if sep c then [] :: splitAll sep s
    else match splitAll sep s with
      | [] => [[c]]
      | p :: ps => (c :: p) :: ps

/-! ## Searching -/

/-- Does `needle` occur somewhere in the text? -/
def mentions (needle : Text) : Text → Bool
  | [] => needle.isEmpty
  | c :: s => needle.isPrefixOf (c :: s) || mentions needle s

/-- What follows `lead` in a text that starts with it. -/
def stripStart? (lead s : Text) : Option Text :=
  if lead.isPrefixOf s then some (s.drop lead.length) else none

/-- Every occurrence of `needle`, from the left and without overlap, replaced by `substitute`; the
    empty needle occurs before every character and at the end. -/
def replaceAll (needle substitute : Text) : Text → Text
  | [] => if needle.isEmpty then substitute else []
  | c :: s =>
    if needle.isEmpty then substitute ++ c :: replaceAll needle substitute s
    else if needle.isPrefixOf (c :: s) then
      substitute ++ replaceAll needle substitute (s.drop (needle.length - 1))
    else c :: replaceAll needle substitute s
termination_by s => s.length
decreasing_by all_goals simp only [List.length_drop, List.length_cons]; omega

/-- The text with its ASCII capitals made small. -/
def toLower (s : Text) : Text := s.map Char.toLower

/-! ## Positions in bytes -/

/-- The length of a text in UTF-8 bytes. -/
def utf8Length (s : Text) : Nat := s.foldl (fun n c => n + c.utf8Size) 0

/-- The split of a text after its first `n` bytes; none off a character boundary or past the
    end. -/
def splitAtByte? : Nat → Text → Option (Text × Text)
  | 0, s => some ([], s)
  | _ + 1, [] => none
  | n + 1, c :: s =>
    if c.utf8Size ≤ n + 1 then
      (splitAtByte? (n + 1 - c.utf8Size) s).map fun (head, rest) => (c :: head, rest)
    else none

end Text

end Scribe
