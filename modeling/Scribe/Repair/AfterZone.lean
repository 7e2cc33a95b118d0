import Scribe.Repair.Line

set_option autoImplicit false

/-! # Where the after zone is entered

With choices in a segment, a request for the after zone behind the last of them comes too late.
Without choices the after zone is entered directly behind the template's own container. -/

namespace Scribe.Repair

/-- Does the line request the after zone? -/
def requestsAfter (line : Text) : Bool := (Line.classify line).zone? == some .after

/-- Does the line insert the choices of a question? -/
def insertsChoice (line : Text) : Bool := (Line.classify line).literal?.any isChoice

/-- The lines up to the exit of the container they stand in, and the lines behind it. `depth`
    counts the plain containers open within. -/
def throughExit? (depth : Nat) : List Text → Option (List Text × List Text)
  | [] => none
  | line :: lines =>
    let goOn (depth : Nat) :=
      (throughExit? depth lines).map fun (head, rest) => (line :: head, rest)
    match Line.classify line with
    | .opening _ => goOn (depth + 1)
    | .exit => if depth = 0 then some ([line], lines) else goOn (depth - 1)
    | .template _ => none
    | _ => goOn depth

/-- The lines without breaks at their end. -/
def trimBreaks (lines : List Text) : List Text := (dropBreaks lines.reverse).reverse

/-- A segment whose after zone is entered behind the exit of its inside zone; what is missing for
    that is added. -/
def enterAfterZone (segment : List Text) : List Text :=
  match segment.findIdx? fun line => (Line.classify line).zone? == some .inside with
  | some i =>
    match throughExit? 0 (segment.drop (i + 1)) with
    | some (inner, rest) => segment.take (i + 1) ++ inner ++ Zone.after.focusLine :: rest
    | none => trimBreaks segment ++ [exitBoxLine, Zone.after.focusLine]
  | none => trimBreaks segment ++ [Zone.inside.focusLine, exitBoxLine, Zone.after.focusLine]

/-- The template that a segment starts with, if it is known. -/
def segmentTemplate? (segment : List Text) : Option Template :=
  match segment.head?.map Line.classify with
  | some (.template t) => t
  | _ => none

/-- Settles the after zone of one segment. -/
def placeInSegment (segment : List Text) : List Text :=
  let behind := (segment.reverse.takeWhile fun line => !insertsChoice line).reverse
  let choices := segment.take (segment.length - behind.length)
  if !choices.isEmpty then choices ++ behind.filter fun line => !requestsAfter line
  else
    let kept := segment.filter fun line => !requestsAfter line
    match segmentTemplate? segment with
    | some t => if t.zones.contains .after then enterAfterZone kept else kept
    | none => kept

/-- Settles the after zone of every segment. -/
def placeAfterZone (lines : List Text) : List Text := (segments lines).flatMap placeInSegment

end Scribe.Repair
