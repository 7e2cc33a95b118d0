import Scribe.Repair.Pipeline
import Scribe.Script.Plan
import Scribe.Typing.Apply

set_option autoImplicit false

/-! # Sessions

A session types scripts into the document that it is attached to. Before each script it looks
whether the document is still there and is the wanted one, and attaches again otherwise. When the
document is lost in the middle of a script, the session attaches again once for the operation that
failed and goes on with that operation. -/

namespace Scribe

/-! ## Outcomes -/

/-- Why a step did not succeed. -/
inductive StepError where
  | argument (error : ArgumentError)
  | typing (error : TypingError)
  /-- The document was lost and attaching again failed. -/
  | reattach (lost : TypingError) (error : TargetError)
  deriving DecidableEq, Repr

namespace StepError

/-- The wording of an error. -/
def message : StepError → Text
  | .argument error => error.message
  | .typing error => error.message
  | .reattach lost error =>
    lost.message ++ " (reattach failed: ".toList ++ error.message ++ [')']

/-- Is the document lost? -/
def isGone : StepError → Bool
  | .typing error => error.isGone
  | _ => false

end StepError

/-- Why a script was not typed to its end. What was typed before remains. -/
inductive RunError where
  | unparseable (failure : ParseFailure)
  | operationFailed (verb : Verb) (index : Nat) (cause : StepError)
  | cancelled (applied : Nat)
  | attach (error : TargetError)
  deriving DecidableEq, Repr

/-- The wording of an error. -/
def RunError.message : RunError → Text
  | .unparseable failure => "script could not be interpreted: ".toList ++ failure.message
  | .operationFailed verb index cause =>
    verb.name ++ " (operation ".toList ++ Decimal.natText index ++ ") failed: ".toList
      ++ cause.message
  | .cancelled applied =>
    "cancelled after ".toList ++ Decimal.natText applied ++ " operation(s)".toList
  | .attach error => "could not attach to document: ".toList ++ error.message

/-- What a script that was typed to its end reports. -/
structure RunReport where
  tier : Tier
  applied : Nat
  reattached : Bool
  normalized : Text

/-! ## What a session remembers -/

/-- What a session remembers from one request to the next. -/
structure SessionMemory where
  state : TypingState := {}
  attached : Bool := false
  /-- The document that was last attached to by name. -/
  document : Option Text := none
  deriving DecidableEq, Repr

/-- An action of a session: a dialogue that reads and changes what the session remembers. -/
abbrev SessionAction := StateT SessionMemory Dialogue

namespace SessionAction

/-! ## Attaching -/

/-- Attaches, to a document of a name if one is given. Another name than the last one starts from a
    fresh state of typing. -/
def attach (document : Option Text) : SessionAction (Except TargetError Unit) := do
  match ← Dialogue.asked (.connect document) with
  | .error e =>
    modify fun m => { m with attached := false }
    return .error e
  | .ok () =>
    modify fun m =>
      if document.isSome && document != m.document then { attached := true, document }
      else { m with attached := true }
    return .ok ()

/-- Is the session attached to a document that answers, and to the wanted one? -/
def isHealthy (document : Option Text) : SessionAction Bool := do
  if (← get).attached then
    match ← Dialogue.asked .identity with
    | .ok name => return document.isNone || document == name
    | .error _ => return false
  else return false

/-- Attaches unless the session is healthy. -/
def ensureAttached (document : Option Text) : SessionAction (Except TargetError Unit) := do
  if ← isHealthy document then return .ok () else attach document

/-! ## Steps -/

/-- Types, with the state that the session remembers. -/
def typing {α : Type} (m : Typing α) : SessionAction (Except TypingError α) := do
  let memory ← get
  let (result, state) ← (m.run.run memory.state : Dialogue (Except TypingError α × TypingState))
  set { memory with state }
  return result

/-- The name that a step calls. -/
def stepVerb : Step → Verb
  | .ok op => op.verb
  | .error e => e.verb

/-- The end of a run at a step that failed. -/
def halt (index : Nat) (step : Step) : StepError → RunError
  | .typing .cancelled => .cancelled index
  | e => .operationFailed (stepVerb step) index e

section

variable {σ : Type} (t : Typist σ)

/-- Tries a step: an operation is carried out, and an argument error in its place fails. -/
def attempt (step : Step) : SessionAction (Except StepError Unit) :=
  match step with
  | .error e => return .error (.argument e)
  | .ok op => return (← typing (t.operation op)).mapError .typing

/-- Types a step; a lost document is attached again, once, and the step is tried once more. The
    answer says whether that happened. -/
def typeStep (document : Option Text) (index : Nat) (step : Step) :
    SessionAction (Except RunError Bool) := do
  match ← attempt t step with
  | .ok () => return .ok false
  | .error (.typing e) =>
    if e.isGone then
      match ← attach document with
      | .error a => return .error (halt index step (.reattach e a))
      | .ok () =>
        match ← attempt t step with
        | .ok () => return .ok true
        | .error e => return .error (halt index step e)
    else return .error (halt index step (.typing e))
  | .error e => return .error (halt index step e)

/-- Types steps from an index on. -/
def typeSteps (document : Option Text) (index : Nat) (reattached : Bool) :
    List Step → SessionAction (Except RunError Bool)
  | [] => return .ok reattached
  | step :: steps => do
    match ← typeStep t document index step with
    | .error e => return .error e
    | .ok again => typeSteps document (index + 1) (reattached || again) steps

/-! ## Scripts -/

/-- Types the plan of a script. -/
def typePlan (normalized : Text) (plan : Plan) (document : Option Text) :
    SessionAction (Except RunError RunReport) := do
  if ← Dialogue.looked then return .error (.cancelled 0)
  match ← ensureAttached document with
  | .error e => return .error (.attach e)
  | .ok () =>
    match ← typeSteps t document 0 false plan.steps with
    | .error e => return .error e
    | .ok reattached =>
      return .ok { tier := plan.tier, applied := plan.steps.length, reattached, normalized }

/-- Repairs a script, reads it, and types it into a document. -/
def typeScript (repairs : Pipeline) (script : Text) (document : Option Text) :
    SessionAction (Except RunError RunReport) :=
  let normalized := repairs.run script
  match Plan.ofScript normalized with
  | .error failure => return .error (.unparseable failure)
  | .ok plan => typePlan t normalized plan document

end

end SessionAction

/-! ## Sessions -/

/-- A session on something of type `σ`. -/
structure Session (σ : Type) where
  desk : Desk σ
  attached : Bool := false
  /-- The document that was last attached to by name. -/
  document : Option Text := none

namespace Session

variable {σ : Type}

/-- The session with something else on its desk. -/
def withTarget (s : Session σ) (target : σ) : Session σ :=
  { s with desk := { s.desk with target } }

/-- What the session remembers. -/
def memory (s : Session σ) : SessionMemory := ⟨s.desk.state, s.attached, s.document⟩

/-- What the session holds its dialogues with. -/
def outside (s : Session σ) : Outside σ := ⟨s.desk.target, s.desk.token⟩

/-- The session of a memory. -/
def ofMemory (m : SessionMemory) (o : Outside σ) : Session σ :=
  { desk := { target := o.target, token := o.token, state := m.state }
    attached := m.attached
    document := m.document }

/-- Carries out an action of a session. -/
def carryOut {α : Type} (e : Editor σ) (m : SessionAction α) (s : Session σ) : α × Session σ :=
  let ((a, memory), o) := (m.run s.memory).hold e s.outside
  (a, ofMemory memory o)

/-- Attaches, to a document of a name if one is given. -/
def attach (t : Typist σ) (document : Option Text) (s : Session σ) :
    Except TargetError Unit × Session σ :=
  s.carryOut t.editor (SessionAction.attach document)

/-- The session without its attachment. -/
def close (s : Session σ) : Session σ := { s with attached := false }

/-- Repairs a script, reads it, and types it into a document. -/
def run (t : Typist σ) (repairs : Pipeline) (script : Text) (document : Option Text)
    (s : Session σ) : Except RunError RunReport × Session σ :=
  s.carryOut t.editor (SessionAction.typeScript t repairs script document)

end Session

end Scribe
