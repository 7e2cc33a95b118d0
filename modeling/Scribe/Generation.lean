import Scribe.Decimal.Layout

set_option autoImplicit false

/-! # Generating scripts

Scripts are generated from prompts by a generator that may fail. The requests do not depend on each
other, so the results are those of one request after the other, in the order of the requests. -/

namespace Scribe

/-- A prompt to generate a script from. -/
structure GenerationRequest where
  /-- What the caller knows the request by. -/
  index : Nat
  prompt : Text
  deriving DecidableEq, Repr

/-- Why no script was generated. -/
inductive GenerationError where
  /-- The generator failed with a message. -/
  | failed (index : Nat) (message : Text)
  /-- The generator broke down. -/
  | aborted (index : Nat)
  deriving DecidableEq, Repr

/-- The wording of an error. -/
def GenerationError.message : GenerationError → Text
  | .failed index message =>
    "generation failed for item ".toList ++ Decimal.natText index ++ ": ".toList ++ message
  | .aborted index =>
    "generation task for item ".toList ++ Decimal.natText index ++ " aborted".toList

/-- What a generator makes of a prompt. -/
inductive Generated where
  | script (script : Text)
  | failure (message : Text)
  | breakdown
  deriving DecidableEq, Repr

/-- The result of a request. -/
def GenerationRequest.result (generator : GenerationRequest → Generated)
    (request : GenerationRequest) : Except GenerationError Text :=
  match generator request with
  | .script script => .ok script
  | .failure message => .error (.failed request.index message)
  | .breakdown => .error (.aborted request.index)

/-- The results of requests, in their order. -/
def generateAll (generator : GenerationRequest → Generated) (requests : List GenerationRequest) :
    List (Except GenerationError Text) :=
  requests.map (·.result generator)

end Scribe
