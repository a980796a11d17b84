import SqlRecords.Connection.Basic

/-!
# Transactions

A `Transaction` holds a connection and knows whether it has a transaction open on it.
It begins one only when none is open, and commits or rolls back only when one is.
When it is dropped with a transaction open, that is rolled back.
-/

namespace SqlRecords

/-- A connection held for a transaction. -/
structure Transaction (σ : Type) where
  /-- The connection. -/
  connection : σ
  /-- A transaction is open. -/
  isOpen : Bool
  deriving DecidableEq, Repr

namespace Transaction

variable {σ κ : Type}

/-- A second transaction. -/
def alreadyOpen : Error := .protocol "Transaction already open"

/-- A commit without a transaction. -/
def commitClosed : Error := .protocol "Commit on a closed transaction"

/-- A rollback without a transaction. -/
def rollbackClosed : Error := .protocol "Rollback on a closed transaction"

/-- Holds a connection without a transaction. -/
def ofConnection (c : σ) : Transaction σ := ⟨c, false⟩

/-- Runs an action on the connection that is held. -/
def onConnection {α : Type} (a : Action σ α) : Action (Transaction σ) α :=
  Action.onPart connection (fun t connection => { t with connection }) a

variable [Connection σ κ]

/-- Begins a transaction. -/
def beginTransaction : Action (Transaction σ) Unit := do
  if (← get).isOpen then throw alreadyOpen
  onConnection Connection.beginTransaction
  modify fun t => { t with isOpen := true }

/-- Commits the transaction. It stays open if that fails. -/
def commit : Action (Transaction σ) Unit := do
  unless (← get).isOpen do throw commitClosed
  onConnection Connection.commit
  modify fun t => { t with isOpen := false }

/-- Rolls the transaction back. It is closed even if that fails. -/
def rollback : Action (Transaction σ) Unit := do
  unless (← get).isOpen do throw rollbackClosed
  modify fun t => { t with isOpen := false }
  onConnection Connection.rollback

/-- Gives the connection back. An open transaction is rolled back; whether that fails does not
matter. -/
def drop (t : Transaction σ) : σ :=
  if t.isOpen then (Connection.rollback.outcome t.connection).2 else t.connection

/-- Holds a connection and begins a transaction on it; if that fails it is given back. -/
def begin (c : σ) : Opened σ (Transaction σ) :=
  match beginTransaction (ofConnection c) with
  | .ok () t => .ok t
  | .error e t => .error (e, t.drop)

/-- Runs an action inside a transaction that is dropped behind it. -/
def around {α : Type} (a : Action (Transaction σ) α) : Action σ α := fun c =>
  match begin c with
  | .error (e, c) => .error e c
  | .ok t =>
    match a t with
    | .ok x t => .ok x t.drop
    | .error e t => .error e t.drop

end Transaction

end SqlRecords
