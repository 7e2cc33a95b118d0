import Scribe.Document.Primitive

set_option autoImplicit false

/-! # Cancellation

A token is asked before every operation and every call whether to go on. A controller cancels it
from outside, which also begins a new epoch: what was asked for in an older one is not begun any
more. A trigger says at which point of the typing the controller acts. -/

namespace Scribe

/-- When a controller cancels. -/
inductive Trigger where
  /-- So many further calls have returned. -/
  | afterCalls (count : Nat)
  /-- The next run of text reaches the editor. -/
  | atText
  deriving DecidableEq, Repr

/-- A cancellation flag with its controller. -/
structure Token where
  cancelled : Bool := false
  /-- How often the controller has cancelled. -/
  epoch : Nat := 0
  trigger : Option Trigger := none
  deriving DecidableEq, Repr

namespace Token

/-- The token in the next epoch. -/
def bump (t : Token) : Token := { t with epoch := t.epoch + 1 }

/-- The token with its flag set. -/
def trip (t : Token) : Token := { t with cancelled := true }

/-- The token after its controller cancelled. -/
def cancel (t : Token) : Token := t.bump.trip

/-- The token with its flag cleared; a controller that waits goes on waiting. -/
def reset (t : Token) : Token := { t with cancelled := false }

/-- The token whose controller waits for nothing. -/
def disarm (t : Token) : Token := { t with trigger := none }

/-- The token whose controller was given a new trigger. -/
def arm (t : Token) : Trigger → Token
  | .afterCalls 0 => t.disarm.cancel
  | trigger => { t with trigger := some trigger }

/-- The token when a call reaches the editor. -/
def reach (t : Token) (p : Primitive) : Token :=
  match t.trigger, p with
  | some .atText, .insertText _ => t.disarm.cancel
  | _, _ => t

/-- The token when a call has returned. -/
def tick (t : Token) : Token :=
  match t.trigger with
  | some (.afterCalls (count + 2)) => { t with trigger := some (.afterCalls (count + 1)) }
  | some (.afterCalls _) => t.disarm.cancel
  | _ => t

end Token

end Scribe
