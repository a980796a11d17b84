import SqlRecords.Config
import SqlRecords.Connection.Basic

/-!
# Pools of connections

A `Pool` opens its connections when it is made and lends them out one by one. A
session is the lease of one slot: while it lasts nobody else gets that connection,
and the next one to get it finds it as it was left.

All calls come one after the other, so while somebody waits for a connection none is
given back.
-/

namespace SqlRecords

/-- A connection of a pool. -/
structure Slot (σ : Type) where
  /-- The connection. -/
  connection : σ
  /-- It is lent out. -/
  leased : Bool
  deriving DecidableEq, Repr

/-- A pool of `n` connections. -/
structure Pool (σ : Type) (n : Nat) where
  /-- Its settings. -/
  config : PoolConfig
  /-- Its connections. -/
  slots : Vector (Slot σ) n

/-- The lease of a slot. -/
abbrev Lease (n : Nat) := Fin n

namespace Pool

variable {σ φ : Type} {n : Nat}

/-- Opens connections, the first one first, up to the first that fails. -/
def openSlots (factory : Action φ σ) : (n : Nat) → Action φ (Vector (Slot σ) n)
  | 0 => pure #v[]
  | n + 1 => do
    let slots ← openSlots factory n
    let connection ← factory
    return slots.push ⟨connection, false⟩

/-- A pool with some settings, its connections opened by the factory. -/
def create (config : PoolConfig) (factory : Action φ σ) : Action φ (Pool σ config.size) := do
  Action.ofResult config.validate
  return ⟨config, ← openSlots factory config.size⟩

/-- How many connections there are. -/
def size (_ : Pool σ n) : Nat := n

/-- The slot is lent out. -/
def isLeased (p : Pool σ n) (l : Lease n) : Bool := p.slots[l].leased

/-- How many connections are lent out. -/
def numLeased (p : Pool σ n) : Nat := (List.finRange n).countP p.isLeased

/-- The pool with the slot lent out or not. -/
def mark (p : Pool σ n) (l : Lease n) (leased : Bool) : Pool σ n :=
  { p with slots := p.slots.set l { p.slots[l] with leased } }

/-- Lends out the first connection that is free. -/
def tryAcquire (p : Pool σ n) : Option (Lease n × Pool σ n) :=
  ((List.finRange n).find? fun l => !p.isLeased l).map fun l => (l, p.mark l true)

/-- No connection became free. -/
def exhausted (p : Pool σ n) : Error :=
  (((Error.new "Timed out waiting for a connection").withKind .poolExhausted).withField "size"
    (toString p.size)).withField "attempts" (toString p.config.numAttempts)

/-- Lends out the first connection that is free, looking again after each of so many waits; also
how many waits were left. -/
def acquireWithin (p : Pool σ n) : Nat → Option (Lease n × Pool σ n) × Nat
  | 0 => (p.tryAcquire, 0)
  | waits + 1 =>
    match p.tryAcquire with
    | some lent => (some lent, waits + 1)
    | none => p.acquireWithin waits

/-- Lends out the first connection that is free, waiting for one as often as the settings say. -/
def acquire : Action (Pool σ n) (Lease n) := fun p =>
  match (p.acquireWithin p.config.numAttempts).1 with
  | some (l, p) => .ok l p
  | none => .error p.exhausted p

/-- Gives a connection back. -/
def release (p : Pool σ n) (l : Lease n) : Pool σ n := p.mark l false

/-- Runs an action on a connection that was lent out. -/
def onLease {α : Type} (l : Lease n) (a : Action σ α) : Action (Pool σ n) α :=
  Action.onPart (fun p => p.slots[l].connection)
    (fun p connection => { p with slots := p.slots.set l { p.slots[l] with connection } }) a

end Pool

end SqlRecords
