import Scribe.Repair.Line

set_option autoImplicit false

/-! # Condition, question and list items

When everything was typed into the inside zone of a header template, the block is taken apart: the
condition gets a plain container of its own, the question stands outside of any container, and only
the list items remain inside. Where the question begins is told by its phrases, which can misjudge
unusual wording. -/

namespace Scribe.Repair

open Text (isWhite)

/-! ## Questions -/

/-- Phrases that end a question; white space may stand between the parts of a phrase. -/
def questionPhrases : List (List Text) :=
  [ ["이에".toList, "대한".toList], ["것은".toList], ["것만을".toList], ["옳은".toList],
    ["옳지".toList], ["<".toList, "보".toList, "기".toList, ">".toList], ["보기>".toList],
    ["바르게".toList], ["짝지은".toList], ["대로".toList, "고".toList], ["고른".toList],
    ["맞게".toList], ["맞는".toList], ["틀린".toList], ["아닌".toList], ["설명으로".toList] ]

/-- Does a text start with the parts of a phrase? -/
def startsPhrase : List Text → Text → Bool
  | [], _ => true
  | part :: parts, s =>
    match Text.stripStart? part s with
    | some rest => startsPhrase parts (rest.dropWhile isWhite)
    | none => false

/-- Does a phrase occur in a text? -/
def mentionsPhrase (phrase : List Text) : Text → Bool
  | [] => phrase.isEmpty
  | c :: s => startsPhrase phrase (c :: s) || mentionsPhrase phrase s

/-- Does a literal read like a question? -/
def isQuestion (literal : Text) : Bool := questionPhrases.any (mentionsPhrase · literal)

/-! ## Kinds of lines -/

/-- Does the line only set lines apart? -/
def isSpacing (line : Text) : Bool :=
  match (CallLine.ofLine? line).bind fun call => Verb.ofName? call.name with
  | some .insertEnter | some .insertParagraph | some .insertSmallParagraph => true
  | _ => line.isBlankText

/-- Does the line only format whatever surrounds it? -/
def isFormatting (line : Text) : Bool :=
  Line.classify line == .alignJustify
    || (CallLine.ofLine? line).any fun call => call.name == Verb.name .setBold

/-- Does the line insert text or an equation? -/
def insertsContent (line : Text) : Bool := (Line.classify line).isContent

/-- Does the line insert the text of a list item? -/
def insertsListItem (line : Text) : Bool :=
  match Line.classify line with
  | .text literal => isListItem literal
  | _ => false

/-- Does the line end the block of an inside zone? -/
def endsBlock (line : Text) : Bool :=
  match Line.classify line with
  | .exit | .template _ | .focus (.zone _) => true
  | _ => false

/-! ## Taking a block apart -/

/-- How many lines at the end of a block belong to its question, given the block in reverse.
    `taken` of the `seen` lines passed already do; formatting joins a question behind it. -/
def questionLength (found : Bool) (seen taken : Nat) : List Text → Nat
  | [] => taken
  | line :: earlier =>
    if isSpacing line then questionLength found (seen + 1) taken earlier
    else if isFormatting line then
      questionLength found (seen + 1) (if found then seen + 1 else taken) earlier
    else if (Line.classify line).literal?.any isQuestion then
      questionLength true (seen + 1) (seen + 1) earlier
    else taken

/-- The condition of a block and its question, with the spacing in front of the question. -/
def splitQuestion (block : List Text) : List Text × List Text :=
  let reversed := block.reverse
  let taken := questionLength false 0 0 reversed
  let spacing := ((reversed.drop taken).takeWhile isSpacing).length
  let length := block.length - (taken + spacing)
  (block.take length, block.drop length)

/-- The pieces of a script whose header block is to be taken apart. -/
structure HeaderBlock where
  /-- The lines in front of the inside request. -/
  front : List Text
  /-- The lines from there to the first list item. -/
  block : List Text
  /-- The lines from the first list item on. -/
  items : List Text

/-- Finds the header's inside zone and its first list item. -/
def HeaderBlock.ofLines? (lines : List Text) : Option HeaderBlock :=
  let isHeader (line : Text) : Bool := Line.classify line == .template (some .header)
  let isInside (line : Text) : Bool := (Line.classify line).zone? == some .inside
  let head := lines.takeWhile fun line => !isHeader line
  match lines.dropWhile fun line => !isHeader line with
  | [] => none
  | header :: more =>
    let before := more.takeWhile fun line => !isInside line
    match more.dropWhile fun line => !isInside line with
    | [] => none
    | _ :: rest =>
      let zone := rest.takeWhile fun line => !endsBlock line
      let block := zone.takeWhile fun line => !insertsListItem line
      if block.length < zone.length then
        some ⟨head ++ header :: before, block, rest.drop block.length⟩
      else none

/-- The header block taken apart, if it holds a condition. -/
def HeaderBlock.split? (b : HeaderBlock) : Option (List Text) :=
  let (condition, question) := splitQuestion b.block
  if condition.any insertsContent then
    let question := question.filter fun line => Line.classify line != .alignJustify
    let needsBreak := question.any insertsContent && !question.getLast?.any isSpacing
    some (b.front ++ openBoxLine :: condition ++ exitBoxLine :: question
      ++ (if needsBreak then [enterLine] else [])
      ++ Zone.inside.focusLine :: alignJustifyLine :: b.items)
  else none

/-- Takes the header block apart, unless the script opens plain containers of its own. -/
def splitDualContent (lines : List Text) : List Text :=
  if lines.any fun line => Line.classify line == .opening .insertBox then lines
  else ((HeaderBlock.ofLines? lines).bind HeaderBlock.split?).getD lines

end Scribe.Repair
