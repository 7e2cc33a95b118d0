import Scribe.Yaml.Token

set_option autoImplicit false

/-! # Values of a settings file

Scalars, sequences and mappings, nested in each other. A value may stand in several places, of
which one describes it and the others refer to it by a number; so a file is a graph. -/

namespace Scribe.Yaml

/-- A value of a settings file. -/
inductive Node where
  /-- The value that bears a number. -/
  | alias (number : Nat)
  | scalar (style : Style) (tag : Option Text) (text : Text)
  | sequence (items : List Node)
  | mapping (entries : List (Node × Node))

/-- What stands where nothing was written. -/
def Node.empty : Node := .scalar .plain none []

/-- The graph of a settings file: its value, and the values that bear numbers. -/
structure Graph where
  root : Node := .empty
  numbered : List (Nat × Node) := []

/-- The value that a node stands for. -/
def Graph.target (graph : Graph) : Node → Node
  | .alias number => (graph.numbered.lookup number).getD .empty
  | node => node

namespace Node

/-- Was nothing written? -/
def isEmpty : Node → Bool
  | .scalar .plain _ text => text.isEmpty
  | _ => false

/-- The text of a scalar. -/
def text? : Node → Option Text
  | .scalar _ _ text => some text
  | _ => none

/-- The text of a scalar that may be a number: one without quotes, or a literal one whose tag is
    `tag`. -/
def numeral? (tag : Text) : Node → Option Text
  | .scalar .plain _ text => some text
  | .scalar .literal written text => if written = some tag then some text else none
  | _ => none

end Node

end Scribe.Yaml
