import SqlRecords.Config
import SqlRecords.Connection.Basic
import SqlRecords.Connection.WriteState
import SqlRecords.Sqlite.Store
import SqlRecords.Text.Integer

/-!
# Connections to SQLite databases

A connection sends its calls to a database and wraps the texts of failures in errors
that say what was being done. Rows are checked before they are sent: they have to be
as wide as the INSERT, and unsigned numbers have to fit in a signed one. The
statements prepared last are kept, so that they need not be prepared again.
-/

namespace SqlRecords

open Sqlite

/-- A connection to a database of type `δ`. -/
structure SqliteConnection (δ : Type) where
  /-- The database. -/
  database : δ
  /-- The INSERT of the bulk write in progress. -/
  writing : WriteState Insert
  /-- The texts of the statements kept prepared, the one used last first. -/
  prepared : List String

namespace SqliteConnection

variable {δ : Type}

/-- A connection to a database that was opened. -/
def ofDatabase (database : δ) : SqliteConnection δ := ⟨database, .idle, []⟩

/-- How many statements are kept prepared. -/
def keptPrepared : Nat := 16

/-- The text of an INSERT. -/
def insertText (i : Insert) : String := Dialect.text .sqlite (Dialect.insert .sqlite i)

/-- The INSERT that a bulk write sends its rows with. -/
def insertOf (w : Write) : Insert := ⟨w.table, w.columns, false, []⟩

/-- A step of the database, whose failure becomes an error. -/
def onDatabase {α : Type} (fault : String → Error) (step : Step δ α) :
    Action (SqliteConnection δ) α := fun c =>
  match step c.database with
  | .ok a database => .ok a { c with database }
  | .error text database => .error (fault text) { c with database }

/-- A statement that failed. -/
def executeFault (sql text : String) : Error :=
  (Error.driver "Failed to execute statement" text).withField "sql" sql

variable [Database δ]

/-! ### Statements -/

/-- Begins a transaction. -/
def beginTransaction : Action (SqliteConnection δ) Unit :=
  onDatabase (executeFault "BEGIN TRANSACTION;") Database.begin

/-- Commits the transaction. -/
def commit : Action (SqliteConnection δ) Unit :=
  onDatabase (executeFault "COMMIT;") Database.commit

/-- Rolls the transaction back. -/
def rollback : Action (SqliteConnection δ) Unit :=
  onDatabase (executeFault "ROLLBACK;") Database.rollback

/-- Executes a statement. -/
def execute (s : Statement) : Action (SqliteConnection δ) Unit :=
  onDatabase (executeFault (Dialect.compile .sqlite s)) (Database.execute s)

/-- Executes a text. -/
def executeText (sql : String) : Action (SqliteConnection δ) Unit :=
  onDatabase (executeFault sql) (Database.executeText sql)

/-! ### Inserting -/

/-- An INSERT that cannot be prepared. -/
def prepareFault (sql text : String) : Error :=
  (Error.driver "Failed to prepare insert" text).withField "sql" sql

/-- A row of the wrong width. -/
def wrongWidth (expected actual : Nat) : Error :=
  ((Error.protocol "Row doesn't match the number of insert columns").withField "expected"
    (toString expected)).withField "actual" (toString actual)

/-- An unsigned number above the greatest signed one. -/
def outOfRange (field value : String) : Error :=
  ((Error.marshal "Unsigned value exceeds SQLite's integer range").withField "field"
    field).withField "value" value

/-- A row that the database refused. -/
def insertFault (text : String) : Error := .driver "Failed to insert row" text

/-- An error with the number of the row it came up in. -/
def inRow (row : Nat) (e : Error) : Error := e.withField "row" (toString row)

/-- The text is a whole number of 64 bits without a sign bit, but not one with. -/
def exceedsSigned (text : String) : Bool :=
  let read (lo hi : Int) : Bool := (Text.readInteger lo hi text.toList).toOption.isSome
  !read Int64.minValue.toInt Int64.maxValue.toInt && read 0 (UInt64.size - 1)

/-- The unsigned numbers of a row fit in signed ones. -/
def checkRange : List Column → Row → Result Unit
  | c :: columns, cell :: cells =>
    match cell with
    | some text =>
      if c.type.kind == .uint64 && exceedsSigned text then .error (outOfRange c.name text)
      else checkRange columns cells
    | none => checkRange columns cells
  | _, _ => .ok ()

/-- A row can be sent with an INSERT of some columns. -/
def checkRow (columns : List Column) (row : Row) : Result Unit :=
  if row.length = columns.length then checkRange columns row
  else .error (wrongWidth columns.length row.length)

/-- Sends rows, the first of them number `row`, up to the first one that is refused. -/
def sendRows (i : Insert) : Nat → List Row → Action (SqliteConnection δ) Unit
  | _, [] => pure ()
  | n, row :: rest => do
    Action.ofResult ((checkRow i.columns row).mapError (inRow n))
    onDatabase (fun text => inRow n (insertFault text)) (Database.insertRow i row)
    sendRows i (n + 1) rest

/-- Prepares an INSERT unless it is kept prepared, and keeps it. -/
def prepareInsert (i : Insert) : Action (SqliteConnection δ) Unit := do
  let sql := insertText i
  unless (← get).prepared.contains sql do
    onDatabase (prepareFault sql) (Database.prepare i)
  modify fun c => { c with prepared := (sql :: c.prepared.erase sql).take keptPrepared }

/-- Inserts rows. -/
def insertRows (i : Insert) (rows : List Row) : Action (SqliteConnection δ) Unit := do
  prepareInsert i
  sendRows i 0 rows

/-! ### Bulk writes -/

omit [Database δ] in
/-- Gives up the bulk write. -/
def abort : Action (SqliteConnection δ) Unit :=
  modify fun c => { c with writing := c.writing.abort.2 }

/-- Begins a bulk write. If its transaction cannot be begun, it is given up again. -/
def startWrite (w : Write) : Action (SqliteConnection δ) Unit := do
  let writing ← Action.ofResult ((← get).writing.start (insertOf w))
  modify fun c => { c with writing }
  match ← beginTransaction.attempt with
  | .ok () => pure ()
  | .error e => do
    abort
    throw e

/-- Sends rows to the bulk write. If that fails, it is given up and rolled back. -/
def write (rows : List Row) : Action (SqliteConnection δ) Unit := do
  let i ← Action.ofResult (← get).writing.current
  match ← (insertRows i rows).attempt with
  | .ok () => pure ()
  | .error e => do
    abort
    rollback.ignore
    throw e

/-- Ends the bulk write and commits. -/
def endWrite : Action (SqliteConnection δ) Unit := do
  let (_, writing) ← Action.ofResult (← get).writing.finish
  modify fun c => { c with writing }
  commit

end SqliteConnection

/-! ### Cursors -/

/-- A query on a connection. -/
structure SqliteCursor (δ : Type) where
  /-- The connection. -/
  connection : SqliteConnection δ
  /-- The results still to come. -/
  results : Results
  /-- The last fetch came to the end, or failed. -/
  done : Bool

namespace SqliteCursor

variable {δ : Type}

/-- A result that the database failed to give. -/
def fetchFault (text : String) : Error := .driver "Failed to fetch row" text

/-- The row of a result. -/
def rowOf : Except String (List Stored) → Result Row
  | .ok values => Stored.toRow values
  | .error text => .error (fetchFault text)

/-- The rows of so many results, what is left behind them, and whether the end was come to. -/
def nextBatch : Nat → Results → Result (List Row × Results × Bool)
  | 0, results => .ok ([], results, false)
  | _ + 1, [] => .ok ([], [], true)
  | size + 1, result :: rest => do
    let row ← rowOf result
    let (rows, rest, atEnd) ← nextBatch size rest
    return (row :: rows, rest, atEnd)

/-- Fetches a batch. The rows of a batch that fails are lost, and nothing comes after it. -/
def fetch (size : Nat) : Action (SqliteCursor δ) (List Row) := fun c =>
  if c.done then .ok [] c
  else
    match nextBatch size c.results with
    | .ok (rows, results, done) => .ok rows { c with results, done }
    | .error e => .error e { c with done := true }

instance : Cursor (SqliteCursor δ) where
  fetch := fetch
  isDone := done
  remaining c := 2 * c.results.length + 2

end SqliteCursor

namespace SqliteConnection

variable {δ : Type} [Database δ]

/-- A query that cannot be prepared. -/
def queryFault (sql text : String) : Error :=
  (Error.driver "Failed to prepare query" text).withField "sql" sql

/-- Opens a query. -/
def query (s : Select) (c : SqliteConnection δ) : Opened (SqliteConnection δ) (SqliteCursor δ) :=
  let sql := Dialect.text .sqlite (Dialect.select .sqlite s)
  match onDatabase (queryFault sql) (Database.query s) c with
  | .ok results connection => .ok ⟨connection, results, false⟩
  | .error e c => .error (e, c)

instance : Connection (SqliteConnection δ) (SqliteCursor δ) where
  dialect _ := .sqlite
  beginTransaction := beginTransaction
  commit := commit
  rollback := rollback
  execute := execute
  executeText := executeText
  insert := insertRows
  startWrite := startWrite
  write := write
  endWrite := endWrite
  query := query
  close := SqliteCursor.connection

end SqliteConnection

/-- Opens a database. Files are kept in memory too; there are no directories, so a path that leads
through one cannot be opened. -/
def SqliteConfig.connect (c : SqliteConfig) : Result (SqliteConnection Store) :=
  if c.path.any fun path => path.toList.contains '/' then
    .error (.driver "Failed to open database"
      ("unable to open database file: " ++ c.path.getD ""))
  else .ok (.ofDatabase .empty)

end SqlRecords
