import Scribe.Repair.Line

set_option autoImplicit false

/-! # Breaks and exits of containers

Inside containers there is at most one break in a row and none before the exit; behind an exit
there is none; and plain containers that the script leaves open are closed before the next zone. -/

namespace Scribe.Repair

/-! ## Nesting -/

/-- The containers that are open at a line, as whoever carries out the script will see them: plain
    containers within an inside zone. -/
structure Nesting where
  plainDepth : Nat := 0
  inZone : Bool := false
  deriving DecidableEq, Repr

/-- Is any container open? -/
def Nesting.inside (n : Nesting) : Bool := 0 < n.plainDepth || n.inZone

/-- The nesting behind a line. -/
def Nesting.observe (n : Nesting) : Line → Nesting
  | .opening _ => { n with plainDepth := n.plainDepth + 1 }
  | .exit =>
    if 0 < n.plainDepth then { n with plainDepth := n.plainDepth - 1 }
    else { n with inZone := false }
  | .focus p => { n with inZone := p == .zone .inside }
  | .template _ => { n with inZone := false }
  | _ => n

/-! ## Breaks inside containers -/

/-- Is the last line that was written a break? -/
def endsInBreak (written : List Text) : Bool :=
  written.head?.any fun line => (Line.classify line).isBreak

/-- Handles one line: the nesting and what was written, last line first. -/
def compactStep (state : Nesting × List Text) (line : Text) : Nesting × List Text :=
  let (nesting, written) := state
  let kind := Line.classify line
  if kind.isBreak && nesting.inside then
    (nesting, if endsInBreak written then written else enterLine :: written)
  else
    let written := if kind.isExit && nesting.inside then dropBreaks written else written
    (nesting.observe kind, line :: written)

/-- Leaves at most one break in a row inside containers, and none before an exit. -/
def compactContainerBreaks (lines : List Text) : List Text :=
  (lines.foldl compactStep ({}, [])).2.reverse

/-! ## Breaks behind exits -/

/-- Handles one line; `written` is in reverse. -/
def exitStep (written : List Text) (line : Text) : List Text :=
  if (Line.classify line).isBreak && written.head?.any (fun last => (Line.classify last).isExit)
  then written
  else line :: written

/-- Drops breaks behind an exit, which moves below the container already. -/
def dropBreakAfterExit (lines : List Text) : List Text := (lines.foldl exitStep []).reverse

/-! ## Open containers -/

/-- Closes `depth` containers at the end of what was written. -/
def closeDepth (depth : Nat) (written : List Text) : List Text :=
  if depth = 0 then written else List.replicate depth exitBoxLine ++ dropBreaks written

/-- Handles one line: the open plain containers and what was written, last line first. -/
def closeStep (state : Nat × List Text) (line : Text) : Nat × List Text :=
  let (depth, written) := state
  match Line.classify line with
  | .opening _ => (depth + 1, line :: written)
  | .exit => (depth - 1, line :: written)
  | .template _ | .focus (.zone _) => (0, line :: closeDepth depth written)
  | _ => (depth, line :: written)

/-- Closes plain containers before templates, zone requests and the end. -/
def closeOpenContainers (lines : List Text) : List Text :=
  let (depth, written) := lines.foldl closeStep (0, [])
  (closeDepth depth written).reverse

end Scribe.Repair
