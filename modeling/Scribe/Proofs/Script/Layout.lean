import Scribe.Proofs.Document.Markers
import Scribe.Script.Operation

set_option autoImplicit false

/-! # The life of a template

A template that is put in waits for the requests of its zones, in their order, and is used up with
the last. The after zone of a framed template is looked for ahead of the cursor only, so it counts
how many tables are opened and closed once the inside zone was requested: the marker stays ahead
as long as no more are closed than were opened since. Other placeholders may be requested before
that; what is taken out for them is no part of a marker and ends no line. -/

namespace Scribe

/-! ## Events -/

/-- What matters for the templates in a document. -/
inductive LayoutEvent where
  /-- Puts in a template; none if the name means no known fragment. -/
  | template (template : Option Template)
  | focus (placeholder : Placeholder)
  | opening
  | exit
  deriving DecidableEq, Repr

/-- What an operation means for the templates in a document. -/
def Operation.layoutEvent? : Operation → Option LayoutEvent
  | .insertTemplate template => some (.template (some template))
  | .focusPlaceholder placeholder => some (.focus placeholder)
  | .openContainer | .openFramedContainer => some .opening
  | .closeContainer => some .exit
  | _ => none

/-! ## Phases -/

/-- How far the latest template is used up. -/
inductive TemplatePhase where
  /-- There is none, or it is used up. -/
  | clean
  /-- No zone was requested. -/
  | fresh (flavor : TemplateFlavor)
  /-- The zone before was requested. -/
  | opened (flavor : TemplateFlavor)
  /-- Only the after zone is left, outside of so many tables at least. -/
  | within (depth : Nat)
  deriving DecidableEq, Repr

namespace TemplatePhase

/-- The phase behind the request for the inside zone. -/
def entered : TemplateFlavor → TemplatePhase
  | .framed => .within 1
  | .plain => .clean

/-- The phase behind an event; none where a marker may be missed from then on. -/
def step? : TemplatePhase → LayoutEvent → Option TemplatePhase
  | .clean, .template (some t) => some (.fresh t.flavor)
  | .clean, _ => some .clean
  | .fresh flavor, .focus (.zone .before) => some (.opened flavor)
  | .opened flavor, .focus (.zone .inside) => some (entered flavor)
  | .within _, .focus (.zone .after) => some .clean
  | .within depth, .opening => some (.within (depth + 1))
  | .within (depth + 1), .exit => some (.within depth)
  | .fresh flavor, .opening | .fresh flavor, .exit => some (.fresh flavor)
  | .opened flavor, .opening | .opened flavor, .exit => some (.opened flavor)
  | .fresh flavor, .focus (.custom marker) => if marker.IsInline then some (.fresh flavor) else none
  | .opened flavor, .focus (.custom marker) =>
    if marker.IsInline then some (.opened flavor) else none
  | _, _ => none

/-- The phase behind several events. -/
def run? (phase : TemplatePhase) (events : List LayoutEvent) : Option TemplatePhase :=
  events.foldlM step? phase

end TemplatePhase

/-- Do the events use up every template? -/
def Completes (events : List LayoutEvent) : Prop := TemplatePhase.clean.run? events = some .clean

instance (events : List LayoutEvent) : Decidable (Completes events) :=
  inferInstanceAs (Decidable (_ = _))

theorem TemplatePhase.run?_append (phase : TemplatePhase) (a b : List LayoutEvent) :
    phase.run? (a ++ b) = (phase.run? a).bind fun p => p.run? b := List.foldlM_append

theorem TemplatePhase.run?_singleton (phase : TemplatePhase) (e : LayoutEvent) :
    phase.run? [e] = phase.step? e := by
  simp [run?]

/-- Before its inside zone is requested, a template does not mind containers. -/
theorem TemplatePhase.run?_container {phase : TemplatePhase} {e : LayoutEvent}
    (he : e = .opening ∨ e = .exit) (hphase : ∀ n, phase ≠ .within n) :
    phase.run? [e] = some phase := by
  rw [run?_singleton]
  cases phase with
  | within n => exact absurd rfl (hphase n)
  | _ => rcases he with rfl | rfl <;> rfl

theorem Completes.append {a b : List LayoutEvent} (ha : Completes a) (hb : Completes b) :
    Completes (a ++ b) := by
  rw [Completes, TemplatePhase.run?_append, ha]
  exact hb

end Scribe
