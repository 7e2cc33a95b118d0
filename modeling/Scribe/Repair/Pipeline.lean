import Scribe.Repair.Physical
import Scribe.Repair.Statements
import Scribe.Repair.Zones
import Scribe.Repair.Question
import Scribe.Repair.Containers
import Scribe.Repair.Choices
import Scribe.Repair.AfterZone

set_option autoImplicit false

/-! # The repair pipeline

The repairs in their order. The physical ones work on the script as one text; then the script is
cut into trimmed lines that are not empty, and the others change the list of lines. Late repairs
move lines next to patterns that earlier ones have tidied, so the whole table is run until nothing
changes, for a limited number of rounds. -/

namespace Scribe

open Repair

/-! ## Passes -/

/-- What a pass works on. -/
inductive PassKind where
  | text (f : Text → Text)
  | lines (f : List Text → List Text)

/-- A named repair. -/
structure Pass where
  name : Text
  kind : PassKind

/-- Every repair, in order. -/
def Pass.all : List Pass :=
  [ ⟨"canonicalize_whitespace".toList, .text canonicalizeWhitespace⟩,
    ⟨"strip_code_fences".toList, .text stripCodeFences⟩,
    ⟨"join_multiline_literals".toList, .text joinMultilineLiterals⟩,
    ⟨"fold_call_newlines".toList, .text foldCallNewlines⟩,
    ⟨"close_unterminated_quotes".toList, .text closeUnterminatedQuotes⟩,
    ⟨"normalize_equation_notation".toList, .text canonicalizeEquations⟩,
    ⟨"split_concatenated_calls".toList, .lines splitConcatenatedCalls⟩,
    ⟨"promote_math_text".toList, .lines promoteMathText⟩,
    ⟨"order_placeholders".toList, .lines orderPlaceholders⟩,
    ⟨"split_dual_content".toList, .lines splitDualContent⟩,
    ⟨"compact_container_breaks".toList, .lines compactContainerBreaks⟩,
    ⟨"drop_break_after_exit".toList, .lines dropBreakAfterExit⟩,
    ⟨"close_open_containers".toList, .lines closeOpenContainers⟩,
    ⟨"isolate_score_lines".toList, .lines isolateScoreLines⟩,
    ⟨"prune_tab_indicators".toList, .lines pruneTabIndicators⟩,
    ⟨"strip_choice_leading_space".toList, .lines stripChoiceLeadingSpace⟩,
    ⟨"place_after_zone".toList, .lines placeAfterZone⟩ ]

/-! ## Running passes -/

/-- A script between two passes. -/
inductive Draft where
  | text (s : Text)
  | lines (ls : List Text)
  deriving DecidableEq, Repr

/-- The trimmed lines of a text that are not empty. -/
def Draft.cut (s : Text) : List Text :=
  ((Text.lines s).map Text.trim).filter fun l => !l.isEmpty

/-- The script as one text. -/
def Draft.toText : Draft → Text
  | .text s => s
  | .lines ls => Text.unlines ls

/-- The script as logical lines. -/
def Draft.toLines : Draft → List Text
  | .text s => Draft.cut s
  | .lines ls => ls

/-- Applies a pass. -/
def Pass.apply (pass : Pass) (draft : Draft) : Draft :=
  match pass.kind with
  | .text f => .text (f draft.toText)
  | .lines f => .lines (f draft.toLines)

/-- A sequence of repairs. -/
structure Pipeline where
  passes : List Pass

namespace Pipeline

/-- All repairs. -/
def full : Pipeline := ⟨Pass.all⟩

/-- The repairs with the given names, in the order of the full pipeline. -/
def only (names : List Text) : Pipeline := ⟨Pass.all.filter fun p => names.contains p.name⟩

/-- The first `k` repairs. -/
def first (k : Nat) : Pipeline := ⟨Pass.all.take k⟩

/-- Every repair once. -/
def runOnce (p : Pipeline) (script : Text) : Text :=
  (p.passes.foldl (fun (draft : Draft) pass => pass.apply draft) (.text script)).toText

/-- Repeats a step until it changes nothing, at most `rounds` times. -/
def settle (f : Text → Text) : Nat → Text → Text
  | 0, s => s
  | rounds + 1, s =>
    let next := f s
    if next = s then s else settle f rounds next

/-- How often the table is run at most. -/
def maxRounds : Nat := 8

/-- The repairs, repeated until the script settles. -/
def run (p : Pipeline) (script : Text) : Text :=
  settle p.runOnce (maxRounds - 1) (p.runOnce script)

/-- The texts that change as the repairs are added one by one, each with the name of the repair
    that changed it. -/
def trace (script : Text) : List (Text × Text) :=
  let texts := (List.range (Pass.all.length + 1)).map fun k => (first k).runOnce script
  let changes := (texts.zip texts.tail).zip Pass.all
  changes.filterMap fun ((earlier, later), pass) =>
    if later = earlier then none else some (pass.name, later)

end Pipeline

/-- A script with every repair made. -/
def normalize (script : Text) : Text := Pipeline.full.run script

end Scribe
