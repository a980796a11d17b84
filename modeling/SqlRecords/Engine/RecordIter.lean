import SqlRecords.Connection.Basic
import SqlRecords.Record.Schema

/-!
# Reading records one by one

A `RecordIter` turns the rows of a cursor into records. It fetches a batch only when
nothing is buffered and the cursor has not come to its end. A row that is no record
gives an error in its place and the iteration goes on; a failed fetch gives its error
once and ends the iteration.

A cursor may give one empty batch after another, so a step is allowed a number of
fetches (`nextWithin`); what a cursor has left bounds how many it can use (`next`).
-/

namespace SqlRecords

/-- What a step of an iteration gives. -/
inductive Pull (α : Type) where
  /-- An item: a value, or an error in its place. -/
  | item (r : Result α)
  /-- There are no more items. -/
  | finished
  /-- All the fetches allowed gave empty batches. -/
  | pending
  deriving Repr

/-- An iteration over the records of a cursor. -/
structure RecordIter (s : Schema) (κ : Type) where
  /-- Where the rows come from. -/
  cursor : κ
  /-- How many rows are fetched at a time. -/
  batchSize : Nat
  /-- The rows fetched and not given yet. -/
  batch : List Row
  /-- There are no more items. -/
  ended : Bool

namespace RecordIter

variable {s : Schema} {κ : Type}

/-- The iteration over all rows of a cursor. -/
def ofCursor (cursor : κ) (batchSize : Nat) : RecordIter s κ :=
  { cursor, batchSize, batch := [], ended := false }

variable [Cursor κ]

/-- The next item, with at most so many fetches. -/
def nextWithin (fetches : Nat) (it : RecordIter s κ) : Pull s.Record × RecordIter s κ :=
  if it.ended then (.finished, it)
  else
    match it.batch with
    | row :: rest => (.item (s.fromRow row), { it with batch := rest })
    | [] =>
      if Cursor.isDone it.cursor then (.finished, { it with ended := true })
      else
        match fetches with
        | 0 => (.pending, it)
        | fetches + 1 =>
          match Cursor.fetch it.batchSize it.cursor with
          | .ok batch cursor => nextWithin fetches { it with cursor, batch }
          | .error e cursor => (.item (.error e), { it with cursor, ended := true })

/-- The next item, with as many fetches as the cursor can use. -/
def next (it : RecordIter s κ) : Pull s.Record × RecordIter s κ :=
  it.nextWithin (Cursor.remaining it.cursor)

omit [Cursor κ] in
/-- Bounds on the number of items to come: at least those buffered, and no known upper bound before
the end. -/
def sizeHint (it : RecordIter s κ) : Nat × Option Nat :=
  if it.ended then (0, some 0) else (it.batch.length, none)

/-- A cursor that has more to give than it announced. -/
def overrun : Error := .protocol "Cursor gives more than it announced"

/-- The records of at most so many items, or the first error among them. -/
def collectWithin : Nat → RecordIter s κ → Result (List s.Record) × RecordIter s κ
  | 0, it => (.error overrun, it)
  | items + 1, it =>
    match it.next with
    | (.item (.ok record), it) =>
      match collectWithin items it with
      | (.ok records, it) => (.ok (record :: records), it)
      | (.error e, it) => (.error e, it)
    | (.item (.error e), it) => (.error e, it)
    | (.finished, it) => (.ok [], it)
    | (.pending, it) => (.error overrun, it)

/-- All the records left, or the first error. -/
def collect (it : RecordIter s κ) : Result (List s.Record) × RecordIter s κ :=
  it.collectWithin (it.batch.length + Cursor.remaining it.cursor + 1)

end RecordIter

end SqlRecords
