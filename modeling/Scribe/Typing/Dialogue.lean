import Scribe.Typing.Token

set_option autoImplicit false

/-! # Dialogues

Whatever is done to a document is done in a dialogue with an editor: requests are sent one at a
time, each answer decides how to go on, and now and then the cancellation token is looked at. A
dialogue is held to its end in one go, or turn by turn while others act in between. -/

namespace Scribe

/-! ## Requests -/

/-- A request to an editor. -/
inductive Request where
  | call (p : Primitive)
  /-- What is the attached document called? -/
  | identity
  /-- Attach to an open document, by name if one is given. -/
  | connect (document : Option Text)

namespace Request

/-- What a request is answered with. -/
abbrev Answer : Request → Type
  | .call _ => Except TargetError Bool
  | .identity => Except TargetError (Option Text)
  | .connect _ => Except TargetError Unit

/-- Is a request a call? -/
def isCall : Request → Bool
  | .call _ => true
  | _ => false

end Request

/-- A way to edit something of type `σ`. -/
structure Editor (σ : Type) where
  /-- Carries out a call; true unless there was nothing to act on. -/
  perform : Primitive → σ → Except TargetError Bool × σ
  /-- The name of the attached document, where the editor can tell it. -/
  identity : σ → Except TargetError (Option Text) × σ
  /-- Attaches to an open document, by name if one is given. -/
  connect : Option Text → σ → Except TargetError Unit × σ

/-- Answers a request. -/
def Editor.answer {σ : Type} (e : Editor σ) : (r : Request) → σ → r.Answer × σ
  | .call p => e.perform p
  | .identity => e.identity
  | .connect document => e.connect document

/-! ## Dialogues -/

/-- A dialogue with a result. -/
inductive Dialogue (α : Type) where
  | done (result : α)
  /-- Looks whether the token was cancelled. -/
  | look (next : Bool → Dialogue α)
  /-- Sends a request. -/
  | ask (request : Request) (next : request.Answer → Dialogue α)

namespace Dialogue

/-- One dialogue after another. -/
def bind {α β : Type} : Dialogue α → (α → Dialogue β) → Dialogue β
  | .done a, f => f a
  | .look next, f => .look fun b => (next b).bind f
  | .ask r next, f => .ask r fun a => (next a).bind f

instance : Monad Dialogue where
  pure := .done
  bind := bind

/-- The dialogue that is a single look. -/
def looked : Dialogue Bool := .look .done

/-- The dialogue that is a single request. -/
def asked (r : Request) : Dialogue r.Answer := .ask r .done

end Dialogue

/-! ## Holding a dialogue -/

/-- What a dialogue is held with: something to edit, and a token. -/
structure Outside (σ : Type) where
  target : σ
  token : Token := {}

/-- The token when a request was answered; a controller counts calls only. -/
def Token.answered (t : Token) : Request → Token
  | .call p => (t.reach p).tick
  | _ => t

namespace Outside

variable {σ : Type}

/-- Has a request answered. -/
def answer (e : Editor σ) (r : Request) (o : Outside σ) : r.Answer × Outside σ :=
  let (a, target) := e.answer r o.target
  (a, { target, token := o.token.answered r })

end Outside

/-- Holds a dialogue to its end. -/
def Dialogue.hold {σ α : Type} (e : Editor σ) : Dialogue α → Outside σ → α × Outside σ
  | .done a, o => (a, o)
  | .look next, o => (next o.token.cancelled).hold e o
  | .ask r next, o =>
    let (a, o) := o.answer e r
    (next a).hold e o

/-! ## Turns -/

/-- A turn of a dialogue, as it went. -/
inductive Turn where
  | look (cancelled : Bool)
  | ask (request : Request) (answer : request.Answer)

/-- The turns that a dialogue takes when it is held to its end. -/
def Dialogue.turns {σ α : Type} (e : Editor σ) : Dialogue α → Outside σ → List Turn
  | .done _, _ => []
  | .look next, o => .look o.token.cancelled :: (next o.token.cancelled).turns e o
  | .ask r next, o =>
    let (a, o) := o.answer e r
    .ask r a :: (next a).turns e o

end Scribe
