import Scribe.Queue

set_option autoImplicit false

/-! # The typing worker

A worker serves the queue while others submit requests and cancel. No party does all of its work in
one go: a submission reads the epoch and then enters its request, a cancellation begins a new epoch
and then sets the flag, and the worker takes a request, compares its epoch, clears the flag,
compares once more, and holds the dialogue of the script turn by turn. The parties move in any
order. -/

namespace Scribe

/-- A request of the queue with the number of its submission. -/
structure Ticket extends Queued where
  number : Nat
  deriving DecidableEq, Repr

/-- Where the worker is in its loop. -/
inductive Phase where
  | idle
  | taken (q : Ticket)
  /-- The epochs agreed when they were compared first. -/
  | admitted (q : Ticket)
  | cleared (q : Ticket)
  /-- The epochs agreed once more. -/
  | granted (q : Ticket)
  | refused (q : Ticket)
  | typing (q : Ticket) (dialogue : Dialogue (Except RunError RunReport × SessionMemory))

/-- The requests in service. -/
@[simp] def Phase.tickets : Phase → List Ticket
  | .idle => []
  | .taken q | .admitted q | .cleared q | .granted q | .refused q | .typing q _ => [q]

/-- What was done. -/
inductive Deed where
  /-- A submission read the epoch for its request. -/
  | submitted (number : Nat) (request : TypingRequest)
  | enqueued (number : Nat)
  /-- A cancellation began a new epoch. -/
  | bumped (canceller : Nat)
  /-- A cancellation set the flag, and returned. -/
  | tripped (canceller : Nat)
  /-- The dialogue of a script took a turn. -/
  | turned (number : Nat) (turn : Turn)
  | emitted (number : Nat) (event : TypingEvent)

/-- A move of a party. -/
inductive Move where
  /-- A submission begins. -/
  | submit (request : TypingRequest)
  /-- A submission enters its request. -/
  | enqueue (number : Nat)
  /-- A cancellation begins. -/
  | cancel
  /-- A cancellation sets the flag. -/
  | trip (canceller : Nat)
  /-- The worker makes its next step. -/
  | work
  deriving DecidableEq, Repr

/-- A worker with its queue and all who use it. -/
structure World (σ : Type) where
  target : σ
  /-- What the session remembers, unless a script is being typed. -/
  memory : SessionMemory := {}
  token : Token := {}
  phase : Phase := .idle
  waiting : List Ticket := []
  /-- The requests that are yet to be entered. -/
  submitting : List Ticket := []
  /-- The cancellations that are yet to set the flag. -/
  cancelling : List Nat := []
  /-- How many submissions began. -/
  issued : Nat := 0
  /-- How many cancellations began. -/
  begun : Nat := 0
  /-- What was done so far. -/
  log : List Deed := []

namespace World

variable {σ : Type}

/-- A worker that was just started with a session. -/
def start (s : Session σ) : World σ := { target := s.desk.target, memory := s.memory }

/-- The session of the worker. -/
def session (w : World σ) : Session σ := .ofMemory w.memory ⟨w.target, w.token⟩

/-- A submission reads the epoch. -/
def submit (request : TypingRequest) (w : World σ) : World σ :=
  { w with
    issued := w.issued + 1
    submitting := { request, epoch := w.token.epoch, number := w.issued } :: w.submitting
    log := w.log ++ [.submitted w.issued request] }

/-- A submission enters its request in the queue. -/
def enqueue (number : Nat) (w : World σ) : World σ :=
  match w.submitting.find? (·.number == number) with
  | none => w
  | some q =>
    { w with
      waiting := w.waiting ++ [q]
      submitting := w.submitting.filter (·.number != number)
      log := w.log ++ [.enqueued number] }

/-- A cancellation begins a new epoch. -/
def cancel (w : World σ) : World σ :=
  { w with
    token := w.token.bump
    begun := w.begun + 1
    cancelling := w.begun :: w.cancelling
    log := w.log ++ [.bumped w.begun] }

/-- A cancellation sets the flag. -/
def trip (canceller : Nat) (w : World σ) : World σ :=
  if canceller ∈ w.cancelling then
    { w with
      token := w.token.trip
      cancelling := w.cancelling.filter (· != canceller)
      log := w.log ++ [.tripped canceller] }
  else w

section

variable (t : Typist σ) (repairs : Pipeline)

/-- The worker makes a step. -/
def work (w : World σ) : World σ :=
  match w.phase with
  | .idle =>
    match w.waiting with
    | [] => w
    | q :: waiting => { w with phase := .taken q, waiting }
  | .taken q => { w with phase := if q.epoch = w.token.epoch then .admitted q else .refused q }
  | .admitted q => { w with phase := .cleared q, token := w.token.reset }
  | .cleared q => { w with phase := if q.epoch = w.token.epoch then .granted q else .refused q }
  | .refused q =>
    { w with
      phase := .idle
      log := w.log ++ [.emitted q.number (.cancelled q.request.index 0)] }
  | .granted q =>
    { w with
      phase := .typing q
        ((SessionAction.typeScript t repairs q.request.script q.request.document).run w.memory)
      log := w.log ++ [.emitted q.number (.started q.request.index)] }
  | .typing q (.done (result, memory)) =>
    { w with
      phase := .idle
      memory
      log := w.log ++ [.emitted q.number (.ofRun q.request.index result)] }
  | .typing q (.look next) =>
    { w with
      phase := .typing q (next w.token.cancelled)
      log := w.log ++ [.turned q.number (.look w.token.cancelled)] }
  | .typing q (.ask r next) =>
    let (a, target) := t.editor.answer r w.target
    { w with
      phase := .typing q (next a)
      target
      log := w.log ++ [.turned q.number (.ask r a)] }

/-- A party moves; a move that is not its turn changes nothing. -/
def move (w : World σ) : Move → World σ
  | .submit request => w.submit request
  | .enqueue number => w.enqueue number
  | .cancel => w.cancel
  | .trip canceller => w.trip canceller
  | .work => w.work t repairs

/-- The parties move, one after another. -/
def play (w : World σ) (moves : List Move) : World σ := moves.foldl (·.move t repairs) w

/-- The parties go on moving for ever: the world after so many moves. -/
def along (w : World σ) (schedule : Nat → Move) : Nat → World σ
  | 0 => w
  | n + 1 => (along w schedule n).move t repairs (schedule n)

end

end World

end Scribe
