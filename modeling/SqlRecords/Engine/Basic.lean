import SqlRecords.Config
import SqlRecords.Engine.RecordIter

/-!
# The engine

An `Engine` works with records on a connection: it makes and drops their tables,
inserts them, loads them in bulk and reads them back, so many rows at a time as it is
set to.
-/

namespace SqlRecords

/-- The settings of an engine, within their bounds. -/
structure Engine where
  /-- The settings. -/
  config : EngineConfig
  /-- They are within their bounds. -/
  valid : config.validate = .ok ()

namespace Engine

/-- An engine with some settings, if they are within their bounds. -/
def ofConfig (config : EngineConfig) : Result Engine :=
  match h : config.validate with
  | .ok () => .ok ⟨config, h⟩
  | .error e => .error e

/-- An engine that is given no settings. -/
def default : Engine := ⟨.default, rfl⟩

/-- How many rows travel together. -/
def batchSize (e : Engine) : Nat := e.config.batchSize

theorem batchSize_pos (e : Engine) : 0 < e.batchSize := by
  refine Nat.pos_of_ne_zero fun h => ?_
  have hv := e.valid
  rw [EngineConfig.validate, if_pos (by rw [show e.config.batchSize = 0 from h]; decide)] at hv
  cases hv

variable {σ κ : Type} [Connection σ κ]

/-! ### Tables -/

/-- Makes the table of a record. -/
def createTable (s : Schema) (ifNotExists : Bool) : Action σ Unit :=
  Connection.execute (.createTable (s.createTable ifNotExists))

/-- Drops the table of a record. -/
def dropTable (s : Schema) (ifExists : Bool) : Action σ Unit :=
  Connection.execute (.drop (s.drop ifExists))

/-! ### Inserting -/

/-- A list cut into pieces of the given size, the last one maybe shorter. -/
def chunks {α : Type} (size : Nat) : List α → List (List α)
  | [] => []
  | a :: rest => (a :: rest.take (size - 1)) :: chunks size (rest.drop (size - 1))
termination_by xs => xs.length
decreasing_by simp only [List.length_drop, List.length_cons]; omega

/-- Inserts the rows of some records, piece by piece, up to the first piece that fails. -/
def insertWith (e : Engine) (i : Insert) (rows : List Row) : Action σ Unit :=
  (chunks e.batchSize rows).forM (Connection.insert i)

/-- Inserts records. -/
def insert (e : Engine) (s : Schema) (records : List s.Record) : Action σ Unit :=
  e.insertWith (s.insert false) (records.map s.toRow)

/-- Inserts records, overwriting rows that are there already. -/
def insertOrReplace (e : Engine) (s : Schema) (records : List s.Record) : Action σ Unit :=
  e.insertWith (s.insert true) (records.map s.toRow)

/-! ### Bulk writes -/

/-- Sends the rows of records as they come, each time so many are buffered, and at last the rest. -/
def send (e : Engine) (s : Schema) : List s.Record → List Row → Action σ Unit
  | [], buffer => if buffer.isEmpty then pure () else Connection.write buffer
  | record :: records, buffer => do
    let buffer := buffer ++ [s.toRow record]
    if buffer.length == e.batchSize then
      Connection.write buffer
      send e s records []
    else send e s records buffer

/-- Loads records in bulk into their table, which is made if it is not there. -/
def write (e : Engine) (s : Schema) (records : List s.Record) : Action σ Unit := do
  createTable s true
  Connection.startWrite s.write
  e.send s records []
  Connection.endWrite

/-! ### Reading -/

/-- Reads the records of a query one by one. -/
def readIter (e : Engine) (s : Schema) (q : Select) (c : σ) : Opened σ (RecordIter s κ) :=
  (Connection.query q c).map fun cursor => .ofCursor cursor e.batchSize

/-- Reads all records of a query, or fails with the first error. -/
def readAll (e : Engine) (s : Schema) (q : Select) : Action σ (List s.Record) := fun c =>
  match e.readIter s q c with
  | .error (err, c) => .error err c
  | .ok it =>
    match it.collect with
    | (.ok records, it) => .ok records (Connection.close it.cursor)
    | (.error err, it) => .error err (Connection.close it.cursor)

/-- Reads all records of their table. -/
def selectAll (e : Engine) (s : Schema) : Action σ (List s.Record) := e.readAll s s.select

/-! ### Changing -/

/-- Updates rows. -/
def update (u : Update) : Action σ Unit := Connection.execute (.update u)

/-- Deletes rows. -/
def deleteFrom (d : DeleteFrom) : Action σ Unit := Connection.execute (.delete d)

end Engine

end SqlRecords
