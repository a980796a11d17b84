import SqlRecords.Dialect.Statement
import SqlRecords.Field.Basic

/-!
# Connections

A `Connection` is what the rest of the library asks of a database: transactions,
statements, prepared inserts, bulk writes and queries. Its state is a value of a type
`σ`, and each call is an `Action` on that state, which keeps what it changed even when
it fails. A query hands the connection over to a cursor, which gives it back when it
is closed.
-/

namespace SqlRecords

/-! ### Actions -/

/-- A step on a state that can fail; what it changed before it failed stays changed. -/
abbrev Action (σ α : Type) := EStateM Error σ α

namespace Action

variable {σ α : Type}

/-- Runs an action and gives its outcome as a value, so that a failure can be looked at. -/
def attempt (a : Action σ α) : Action σ (Result α) := fun s =>
  match a s with
  | .ok x s => .ok (.ok x) s
  | .error e s => .ok (.error e) s

/-- Runs an action whose failure does not matter. -/
def ignore (a : Action σ α) : Action σ Unit := do let _ ← a.attempt

/-- The outcome of an action, and the state behind it. -/
def outcome (a : Action σ α) (s : σ) : Result α × σ :=
  match a s with
  | .ok x s => (.ok x, s)
  | .error e s => (.error e, s)

/-- An action that is known by its outcome. -/
def ofResult (r : Result α) : Action σ α := fun s =>
  match r with
  | .ok x => .ok x s
  | .error e => .error e s

/-- Runs an action on a part of the state. -/
def onPart {τ : Type} (get : τ → σ) (put : τ → σ → τ) (a : Action σ α) : Action τ α := fun t =>
  match a (get t) with
  | .ok x s => .ok x (put t s)
  | .error e s => .error e (put t s)

end Action

/-! ### Connections -/

/-- A query that was opened: its cursor, which now holds the connection, or the reason why there is
none, along with the connection. -/
abbrev Opened (σ κ : Type) := Except (Error × σ) κ

/-- The rows of a query, fetched in batches. -/
class Cursor (κ : Type) where
  /-- Fetches at most so many rows. A batch may be empty although there are more rows. -/
  fetch : Nat → Action κ (List Row)
  /-- All rows have been given. -/
  isDone : κ → Bool
  /-- The cursor has at most so many rows and fetches of at least one row left, counted together. -/
  remaining : κ → Nat

/-- A connection to a database, with `κ` as its cursors. -/
class Connection (σ : Type) (κ : outParam Type) extends Cursor κ where
  /-- The dialect its statements are written in. -/
  dialect : σ → Dialect
  /-- Begins a transaction. -/
  beginTransaction : Action σ Unit
  /-- Commits the transaction. -/
  commit : Action σ Unit
  /-- Rolls the transaction back. -/
  rollback : Action σ Unit
  /-- Executes a statement; the rows it gives are dropped. -/
  execute : Statement → Action σ Unit
  /-- Executes a text. -/
  executeText : String → Action σ Unit
  /-- Inserts rows with a prepared statement, outside of any bulk write. -/
  insert : Insert → List Row → Action σ Unit
  /-- Begins a bulk write in a transaction of its own. -/
  startWrite : Write → Action σ Unit
  /-- Sends rows to the bulk write. If it fails, the bulk write is rolled back and given up. -/
  write : List Row → Action σ Unit
  /-- Ends the bulk write and commits its transaction. -/
  endWrite : Action σ Unit
  /-- Opens a query. -/
  query : Select → σ → Opened σ κ
  /-- Closes a cursor. -/
  close : κ → σ

end SqlRecords
