import Scribe.Repair.Line

set_option autoImplicit false

/-! # Zone requests in order

A template's zones must be entered once each, in the order before, inside, after. Scripts request
them in any order, forget some and repeat others. The walk over the lines arranges the requests so
that whoever carries them out only ever moves forward. -/

namespace Scribe.Repair

/-! ## The state of the walk -/

/-- What the walk knows at a line. -/
structure ZoneWalk where
  /-- The lines written so far, last one first. -/
  written : List Text := []
  /-- The template of the current segment. -/
  template : Option Template := none
  /-- The zone entered last. -/
  current : Option Zone := none
  /-- The zones whose markers are used up. -/
  consumed : List Zone := []
  /-- Is this the inside zone of a template? -/
  inContainer : Bool := false
  /-- Plain and framed containers that are open. -/
  plainDepth : Nat := 0
  /-- Requests for the inside zone still ahead in the segment. -/
  insideRequests : Nat := 0
  deriving Repr

namespace ZoneWalk

/-- The zones that can be entered; without a template, only an inside zone that the document
    already has. -/
def zones (w : ZoneWalk) : List Zone :=
  match w.template with
  | some t => t.zones
  | none => [.inside]

/-- Is the current zone one before `z`, or no zone at all? -/
def isAheadOf (w : ZoneWalk) (z : Zone) : Bool := w.current.all fun c => c.rank < z.rank

/-- Writes a line. -/
def write (w : ZoneWalk) (line : Text) : ZoneWalk := { w with written := line :: w.written }

/-- Closes every container that is open. -/
def closeContainers (w : ZoneWalk) : ZoneWalk :=
  let exits := w.plainDepth + if w.inContainer then 1 else 0
  { w with
    written := List.replicate exits exitBoxLine ++ w.written
    plainDepth := 0
    inContainer := false }

/-- Enters a zone. -/
def enter (w : ZoneWalk) (z : Zone) : ZoneWalk :=
  { w with
    written := z.focusLine :: w.written
    consumed := z :: w.consumed
    current := some z
    inContainer := z == .inside }

/-- Uses up a zone that is passed over. -/
def skip (w : ZoneWalk) (z : Zone) : ZoneWalk :=
  let w := { w with written := z.focusLine :: w.written, consumed := z :: w.consumed }
  if z = .inside then w.write exitBoxLine else w

/-- Moves forward to a zone and uses up the ones in between. -/
def advanceTo (w : ZoneWalk) (z : Zone) : ZoneWalk :=
  let w := w.closeContainers
  let passed := w.zones.filter fun y => y.rank < z.rank && !w.consumed.contains y
  (passed.foldl skip w).enter z

/-! ## Lines -/

/-- A line that requests a zone. In a script with a header and a plain template, the first of
    several inside requests opens a plain container instead. -/
def focus (w : ZoneWalk) (dual : Bool) (z : Zone) (line : Text) : ZoneWalk :=
  if w.template.isNone then
    if z = .inside then { w.write line with inContainer := true } else w
  else
    let w := if z = .inside then { w with insideRequests := w.insideRequests - 1 } else w
    if !w.zones.contains z then w
    else if w.consumed.contains z then
      if w.inContainer && w.current.any (fun c => z.rank < c.rank) then w.closeContainers else w
    else if dual && z == .inside && 1 ≤ w.insideRequests && w.plainDepth == 0
        && w.isAheadOf .inside then
      { w.write openBoxLine with plainDepth := w.plainDepth + 1 }
    else w.advanceTo z

/-- A line that inserts a literal: a list item belongs inside and choices belong after. -/
def content (w : ZoneWalk) (literal line : Text) : ZoneWalk :=
  let mayMove := w.template.isSome && w.plainDepth == 0
  if mayMove && isListItem literal && w.isAheadOf .inside && w.zones.contains .inside then
    match w.written with
    | last :: earlier =>
      if Line.classify last = .alignJustify then
        ((({ w with written := earlier }).advanceTo .inside).write last).write line
      else (w.advanceTo .inside).write line
    | [] => (w.advanceTo .inside).write line
  else if mayMove && isChoice literal && w.isAheadOf .after && w.zones.contains .after then
    (w.advanceTo .after).write line
  else w.write line

/-- Is this a plain template that is dropped beside a header? -/
def isDropped (dual : Bool) (t : Option Template) : Bool := dual && t.any (·.flavor == .plain)

/-- Does a segment start with the line? -/
def startsSegment (dual : Bool) : Line → Bool
  | .template t => !isDropped dual t
  | _ => false

/-- The requests for the inside zone up to the next segment. -/
def countInside (dual : Bool) (lines : List Text) : Nat :=
  ((lines.map Line.classify).takeWhile fun l => !startsSegment dual l).countP
    fun l => l.zone? == some .inside

/-- A line that inserts a template, with the lines behind it. -/
def start (w : ZoneWalk) (dual : Bool) (t : Option Template) (line : Text)
    (ahead : List Text) : ZoneWalk :=
  if isDropped dual t then w
  else
    let w := { w.closeContainers with
      template := t, current := none, consumed := [], insideRequests := countInside dual ahead }
    if t.isSome then (w.write line).enter .before else w.write line

/-- One line, with the lines behind it. -/
def step (w : ZoneWalk) (dual : Bool) (line : Text) (ahead : List Text) : ZoneWalk :=
  match Line.classify line with
  | .template t => w.start dual t line ahead
  | .focus (.zone z) => w.focus dual z line
  | .opening _ => { w.write line with plainDepth := w.plainDepth + 1 }
  | .exit =>
    if 0 < w.plainDepth then { w.write line with plainDepth := w.plainDepth - 1 }
    else { w.write line with inContainer := false }
  | .text literal => w.content literal line
  | .equation literal => w.content literal line
  | _ => w.write line

/-- Every line in turn. -/
def walk (dual : Bool) (w : ZoneWalk) : List Text → ZoneWalk
  | [] => w
  | line :: ahead => walk dual (w.step dual line ahead) ahead

end ZoneWalk

/-! ## The pass -/

/-- The known templates that a script inserts. -/
def templatesOf (lines : List Text) : List Template :=
  lines.filterMap fun line =>
    match Line.classify line with
    | .template t => t
    | _ => none

/-- Does a script combine the header with a plain template? -/
def isDual (lines : List Text) : Bool :=
  (templatesOf lines).contains .header && (templatesOf lines).any (·.flavor == .plain)

/-- Requests the zones of every template in order. -/
def orderPlaceholders (lines : List Text) : List Text :=
  (ZoneWalk.walk (isDual lines) {} lines).written.reverse

end Scribe.Repair
