import SqlRecords.Codec.Shape
import SqlRecords.Error
import SqlRecords.Json.Parser

/-!
# Settings

The settings of an engine, of a pool of connections and of a SQLite database, their
defaults and bounds, and how they are read from JSON: every setting may be left out,
none may be unknown or given twice.
-/

namespace SqlRecords

/-! ### Engine -/

/-- The settings of an engine. -/
structure EngineConfig where
  /-- How many rows travel together. -/
  batchSize : Nat
  deriving DecidableEq, Repr

namespace EngineConfig

/-- The settings of an engine that is given none. -/
def default : EngineConfig := ⟨50000⟩

/-- The least batch size. -/
def minBatchSize : Nat := 1

/-- The greatest batch size. -/
def maxBatchSize : Nat := 1000000

/-- The batch size has to be within its bounds. -/
def validate (c : EngineConfig) : Result Unit :=
  if c.batchSize < minBatchSize then
    .error (.config ("Batch size cannot be less than " ++ toString minBatchSize))
  else if maxBatchSize < c.batchSize then
    .error (.config ("Batch size cannot be greater than " ++ toString maxBatchSize))
  else .ok ()

/-- Settings with a batch size within its bounds. -/
def withBatchSize (n : Nat) : Result EngineConfig := do
  EngineConfig.validate ⟨n⟩
  return ⟨n⟩

end EngineConfig

/-! ### Pool -/

/-- The settings of a pool of connections. -/
structure PoolConfig where
  /-- How many connections there are. -/
  size : Nat
  /-- How often to wait for one to become free. -/
  numAttempts : Nat
  /-- How long each wait is, in milliseconds. -/
  waitTimeMs : Nat
  deriving DecidableEq, Repr

namespace PoolConfig

/-- The settings of a pool that is given none. -/
def default : PoolConfig := ⟨4, 10, 100⟩

/-- The least size of a pool. -/
def minSize : Nat := 1

/-- The greatest size of a pool. -/
def maxSize : Nat := 1024

/-- The size has to be within its bounds, and there has to be an attempt. -/
def validate (c : PoolConfig) : Result Unit :=
  if c.size < minSize then .error (.config ("Pool size cannot be less than " ++ toString minSize))
  else if maxSize < c.size then
    .error (.config ("Pool size cannot be greater than " ++ toString maxSize))
  else if c.numAttempts = 0 then .error (.config "Number of attempts cannot be zero")
  else .ok ()

end PoolConfig

/-! ### SQLite -/

/-- The settings of a SQLite database. -/
structure SqliteConfig where
  /-- The file of the database; it lives in memory if there is none. -/
  path : Option String
  /-- How long to wait for a lock, in milliseconds. -/
  busyTimeoutMs : Nat
  deriving DecidableEq, Repr

namespace SqliteConfig

/-- A database in memory. -/
def inMemory : SqliteConfig := ⟨none, 5000⟩

/-- A database in a file. -/
def withPath (path : String) : SqliteConfig := { inMemory with path := some path }

end SqliteConfig

/-! ### Reading settings -/

namespace Codec

/-- A document whose settings are all known and given at most once; they may be given in order
instead, the last ones left out. -/
def settings? (known : List String) : Decoder (List (String × Json))
  | .obj members =>
    let names := members.map (·.1)
    if names.all known.contains && names.eraseDups.length == names.length then some members
    else none
  | .arr items => if items.length ≤ known.length then some (known.zip items) else none
  | _ => none

/-- A setting, or its default if it is left out. -/
def setting? {α : Type} (settings : List (String × Json)) (name : String) (read : Decoder α)
    (default : α) : Option α :=
  match settings.lookup name with
  | some j => read j
  | none => some default

/-- A count of 64 bits. -/
def count? : Decoder Nat := fun j => (int? 0 (UInt64.size - 1) j).map Int.toNat

/-- Reads the settings of an engine. -/
def engineConfig? : Decoder EngineConfig := fun j => do
  let s ← settings? ["batch_size"] j
  return ⟨← setting? s "batch_size" count? EngineConfig.default.batchSize⟩

/-- Reads the settings of a pool. -/
def poolConfig? : Decoder PoolConfig := fun j => do
  let s ← settings? ["size", "num_attempts", "wait_time_ms"] j
  return {
    size := ← setting? s "size" count? PoolConfig.default.size
    numAttempts := ← setting? s "num_attempts" count? PoolConfig.default.numAttempts
    waitTimeMs := ← setting? s "wait_time_ms" count? PoolConfig.default.waitTimeMs }

/-- Reads the settings of a SQLite database. -/
def sqliteConfig? : Decoder SqliteConfig := fun j => do
  let s ← settings? ["path", "busy_timeout_ms"] j
  return {
    path := ← setting? s "path" (option? string?) SqliteConfig.inMemory.path
    busyTimeoutMs := ← setting? s "busy_timeout_ms" count? SqliteConfig.inMemory.busyTimeoutMs }

/-- Reads settings from the text of a JSON document. -/
def ofText? {α : Type} (read : Decoder α) (text : String) : Option α :=
  (Json.parse 127 text).bind read

end Codec

end SqlRecords
