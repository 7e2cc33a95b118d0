import Scribe.Script.Scanner

set_option autoImplicit false

/-! # Plans

A script is read by the grammar; only when the grammar rejects it as a whole does the tolerant
scanner read it instead. -/

namespace Scribe

/-- Which reader a plan comes from. -/
inductive Tier where
  | primary
  | fallback
  deriving DecidableEq, Repr

/-- An operation, or the argument error in its place. -/
abbrev Step := Except ArgumentError Operation

/-- The steps of a script. -/
structure Plan where
  tier : Tier
  steps : List Step

namespace Plan

/-- The steps that the grammar reads. -/
def primarySteps (script : Text) : Except ParseFailure (List Step) :=
  (Grammar.parseScript script).map fun found => found.map Operation.ofInvocation

/-- The steps that the tolerant scanner reads. -/
def fallbackSteps (script : Text) : Except ParseFailure (List Step) :=
  (Scanner.scan script).map fun found => found.map .ok

/-- The plan of a script. -/
def ofScript (script : Text) : Except ParseFailure Plan :=
  match primarySteps script with
  | .ok steps => .ok ⟨.primary, steps⟩
  | .error _ => (fallbackSteps script).map fun steps => ⟨.fallback, steps⟩

end Plan

end Scribe
