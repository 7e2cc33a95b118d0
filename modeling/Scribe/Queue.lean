import Scribe.Session

set_option autoImplicit false

/-! # The typing queue

Scripts are queued for one session and typed strictly in the order in which they were submitted. A
request carries the epoch in which it was submitted: after a cancellation, requests of older epochs
are reported as cancelled and never reach the document, and the script that is being typed stops at
its next checkpoint. -/

namespace Scribe

/-- A script to type. -/
structure TypingRequest where
  /-- What the caller knows the request by. -/
  index : Nat
  script : Text
  /-- The open document to type into; the active one when nothing is given. -/
  document : Option Text := none
  deriving DecidableEq, Repr

/-- What happens to a request. -/
inductive TypingEvent where
  | started (index : Nat)
  | finished (index applied : Nat) (tier : Tier) (reattached : Bool)
  | cancelled (index applied : Nat)
  | failed (index : Nat) (error : RunError)
  deriving DecidableEq, Repr

namespace TypingEvent

/-- The request that an event is about. -/
def index : TypingEvent → Nat
  | .started index | .finished index _ _ _ | .cancelled index _ | .failed index _ => index

/-- Is an event the last one of its request? -/
def isTerminal : TypingEvent → Bool
  | .started _ => false
  | _ => true

/-- The last event of a request that was begun. -/
def ofRun (index : Nat) : Except RunError RunReport → TypingEvent
  | .ok report => .finished index report.applied report.tier report.reattached
  | .error (.cancelled applied) => .cancelled index applied
  | .error e => .failed index e

end TypingEvent

/-- A request in the queue. -/
structure Queued where
  request : TypingRequest
  epoch : Nat
  deriving DecidableEq, Repr

/-- A session with the requests that wait for it. -/
structure TypingQueue (σ : Type) where
  session : Session σ
  waiting : List Queued := []

namespace TypingQueue

variable {σ : Type}

/-- Changes the token of the session. -/
def updateToken (f : Token → Token) (s : Session σ) : Session σ :=
  { s with desk := { s.desk with token := f s.desk.token } }

/-- The queue with one more request, of the current epoch. -/
def submit (q : TypingQueue σ) (request : TypingRequest) : TypingQueue σ :=
  { q with waiting := q.waiting ++ [⟨request, q.session.desk.token.epoch⟩] }

/-- The queue after its controller cancelled. -/
def cancel (q : TypingQueue σ) : TypingQueue σ :=
  { q with session := updateToken .cancel q.session }

/-- Serves a request: one of an older epoch is reported as cancelled, and any other is typed with a
    cleared flag. -/
def serve (t : Typist σ) (repairs : Pipeline) (q : Queued) (s : Session σ) :
    List TypingEvent × Session σ :=
  if q.epoch = s.desk.token.epoch then
    let r := q.request
    let (result, s) := (updateToken .reset s).run t repairs r.script r.document
    ([.started r.index, .ofRun r.index result], s)
  else ([.cancelled q.request.index 0], s)

/-- Serves requests in order. -/
def serveAll (t : Typist σ) (repairs : Pipeline) :
    List Queued → Session σ → List TypingEvent × Session σ
  | [], s => ([], s)
  | q :: qs, s =>
    let (events, s) := serve t repairs q s
    let (later, s) := serveAll t repairs qs s
    (events ++ later, s)

/-- Serves all requests that wait. -/
def drain (t : Typist σ) (repairs : Pipeline) (q : TypingQueue σ) :
    List TypingEvent × TypingQueue σ :=
  let (events, session) := serveAll t repairs q.waiting q.session
  (events, { session })

/-- Submits requests and serves them. A controller that cancels does so when the first run of text
    of these requests reaches the document. -/
def batch (t : Typist σ) (repairs : Pipeline) (requests : List TypingRequest) (cancels : Bool)
    (q : TypingQueue σ) : List TypingEvent × TypingQueue σ :=
  let q := requests.foldl submit q
  let q := if cancels then { q with session := updateToken (·.arm .atText) q.session } else q
  let (events, q) := q.drain t repairs
  (events, { q with session := updateToken .disarm q.session })

end TypingQueue

end Scribe
