import SqlRecords.Error

/-!
# The state of a bulk write

A bulk write is started, fed and finished, in that order and one at a time. A
`WriteState` holds what the write in progress needs, and refuses every call that
comes out of order without changing anything.
-/

namespace SqlRecords

/-- The bulk write in progress, if there is one, with what it needs to go on. -/
structure WriteState (α : Type) where
  /-- What the write needs. -/
  active : Option α
  deriving DecidableEq, Repr

namespace WriteState

variable {α : Type}

/-- No write in progress. -/
def idle : WriteState α := ⟨none⟩

/-- A write is in progress. -/
def isActive (w : WriteState α) : Bool := w.active.isSome

/-- A second write. -/
def alreadyStarted : Error := .protocol "Write already started"

/-- Rows without a write. -/
def notStarted : Error := .protocol "Write called without start_write"

/-- The end of a write that was not started. -/
def nothingToEnd : Error := .protocol "end_write called without start_write"

/-- Starts a write. -/
def start (w : WriteState α) (a : α) : Result (WriteState α) :=
  match w.active with
  | some _ => .error alreadyStarted
  | none => .ok ⟨some a⟩

/-- What the write in progress needs. -/
def current (w : WriteState α) : Result α :=
  match w.active with
  | some a => .ok a
  | none => .error notStarted

/-- Changes what the write in progress needs, and gives the new value. -/
def modify (w : WriteState α) (f : α → α) : Result (α × WriteState α) := do
  let a ← w.current
  return (f a, ⟨some (f a)⟩)

/-- Ends the write in progress and gives what it needed. -/
def finish (w : WriteState α) : Result (α × WriteState α) :=
  match w.active with
  | some a => .ok (a, idle)
  | none => .error nothingToEnd

/-- Gives up the write in progress, if there is one. -/
def abort (w : WriteState α) : Option α × WriteState α := (w.active, idle)

end WriteState

end SqlRecords
