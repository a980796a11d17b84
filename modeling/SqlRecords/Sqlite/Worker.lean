import SqlRecords.Sqlite.Connection

/-!
# The two sides of a cursor

The results of a query are read on a thread of their own. The cursor sends it requests over one
channel, each the size of a batch, and gets answers over another; both channels hold one message.
The worker leaves behind an answer that nothing comes after, or when the cursor closes the channel
of requests. The cursor closes it when it is done, and waits until the worker has left.

Either side takes a step when it can, and none while it has to wait for the other.
-/

namespace SqlRecords

open Sqlite

namespace SqliteCursor

/-- What the worker answers: the rows of a batch, and whether the end was come to. -/
abbrev Answer := Result (List Row × Bool)

/-- Nothing comes after an answer. -/
def Answer.isLast : Answer → Bool
  | .ok (_, false) => false
  | _ => true

/-- What a fetch makes of an answer. -/
def Answer.rows (a : Answer) : Result (List Row) := a.map (·.1)

/-- Where the worker is. -/
inductive Worker where
  /-- It waits for a request, with these results still to come. -/
  | waiting (results : Results)
  /-- It has read a batch, and sends it. -/
  | answering (answer : Answer) (results : Results)
  /-- It leaves. -/
  | leaving
  /-- It has left, and its ends of the channels are closed. -/
  | left

/-- Reads the batch that was asked for. -/
def Worker.read (size : Nat) (results : Results) : Worker :=
  match nextBatch size results with
  | .ok (rows, rest, atEnd) => .answering (.ok (rows, atEnd)) rest
  | .error e => .answering (.error e) results

/-- Where a call of the cursor is. -/
inductive Call where
  /-- It is to ask for a batch. -/
  | asking (size : Nat)
  /-- It waits for the answer. -/
  | listening
  /-- It waits for the worker to leave, and is then to give this. -/
  | joining (outcome : Result (List Row))
  /-- It has given this. -/
  | returned (outcome : Result (List Row))

/-- The cursor, its worker and the messages between them. -/
structure Sides where
  /-- Where the call is. -/
  call : Call
  /-- The cursor is done. -/
  done : Bool
  /-- The channel of requests is open. -/
  isOpen : Bool
  /-- A request on its way. -/
  request : Option Nat
  /-- An answer on its way. -/
  answer : Option Answer
  /-- Where the worker is. -/
  worker : Worker

namespace Sides

/-- The worker left without an answer. -/
def workerGone : Error := .protocol "Cursor thread exited unexpectedly"

/-- The cursor is done: it closes the channel and waits for the worker. -/
def finish (s : Sides) (outcome : Result (List Row)) : Sides :=
  { s with call := .joining outcome, done := true, isOpen := false }

/-- A step of the cursor. -/
def callStep (s : Sides) : Option Sides :=
  match s.call with
  | .asking size =>
    if s.done || !s.isOpen then some { s with call := .returned (.ok []) }
    else
      match s.worker, s.request with
      -- nobody is left to take the request
      | .left, _ => some (s.finish (.error workerGone))
      | _, some _ => none
      | _, none => some { s with call := .listening, request := some size }
  | .listening =>
    match s.answer, s.worker with
    | some a, _ =>
      let s := { s with answer := none }
      some (if a.isLast then s.finish a.rows else { s with call := .returned a.rows })
    | none, .left => some (s.finish (.error workerGone))
    | none, _ => none
  | .joining outcome =>
    match s.worker with
    | .left => some { s with call := .returned outcome }
    | _ => none
  | .returned _ => none

/-- A step of the worker. -/
def workerStep (s : Sides) : Option Sides :=
  match s.worker with
  | .waiting results =>
    match s.request with
    | some size => some { s with request := none, worker := .read size results }
    | none => if s.isOpen then none else some { s with worker := .leaving }
  | .answering a results =>
    match s.answer with
    | some _ => none
    | none =>
      some { s with answer := some a, worker := if a.isLast then .leaving else .waiting results }
  | .leaving => some { s with worker := .left }
  | .left => none

/-- One of the sides takes a step. -/
def Step (s t : Sides) : Prop := s.callStep = some t ∨ s.workerStep = some t

end Sides

variable {δ : Type}

/-- Both sides of a cursor when it is called. -/
def sides (c : SqliteCursor δ) (call : Call) : Sides :=
  if c.done then ⟨call, true, false, none, none, .left⟩
  else ⟨call, false, true, none, none, .waiting c.results⟩

end SqliteCursor

end SqlRecords
