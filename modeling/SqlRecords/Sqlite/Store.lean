import SqlRecords.Sqlite.Database
import SqlRecords.Sqlite.Insertion
import SqlRecords.Sqlite.Query

/-!
# A database in memory

A `Store` holds tables and, inside a transaction, the tables as they were when it
began. Every statement either succeeds or leaves the tables as they are. A statement
may not add rows whose foreign keys have nothing to refer to.

Joins, subqueries, grouping, views and indexes are not covered: statements with them
fail (`unsupported`).
-/

namespace SqlRecords.Sqlite

open StoredTable

/-- The tables of a database. -/
abbrev Tables := List StoredTable

namespace Tables

/-- The table of a name. -/
def find? (ts : Tables) (name : String) : Option StoredTable :=
  List.find? (fun t => sameName t.rule.name name) ts

/-- No table has the name. -/
def noSuchTable (name : String) : String := "no such table: " ++ name

/-- The schema that all tables are in. -/
def mainSchema : String := "main"

/-- The table that a statement mentions, if it is there. -/
def mentioned? (ts : Tables) (t : Table) : Option StoredTable :=
  if t.schema.all (sameName mainSchema) then ts.find? t.name else none

/-- A table as errors show it, behind its schema if that is given. -/
def shownName (t : Table) : String :=
  match t.schema with
  | some s => s ++ "." ++ t.name
  | none => t.name

/-- The table that a statement mentions, which has to be there. -/
def get (ts : Tables) (t : Table) : Except String StoredTable :=
  match ts.mentioned? t with
  | some t => .ok t
  | none => .error (noSuchTable (shownName t))

/-- The tables with one put in place of that of the same name. -/
def put (ts : Tables) (t : StoredTable) : Tables :=
  ts.map fun u => if sameName u.rule.name t.rule.name then t else u

/-! ### Foreign keys -/

/-- The values of a column that others refer to, and its affinity. -/
def referred (ts : Tables) (r : Reference) : Option (List Stored × Affinity) := do
  let parent ← ts.find? r.table
  let i ← parent.rule.find? r.column
  return (parent.rows.map fun row => row.value i, parent.rule.affinity i)

/-- How many rows of a table refer to nothing by a foreign key. -/
def danglingBy (ts : Tables) (t : StoredTable) (k : ForeignKey) : Nat :=
  let (values, affinity) := (ts.referred k.target).getD ([], .none)
  t.rows.countP fun row =>
    let v := row.value k.column
    !v.isNull && !values.any (affinity.apply v).same

/-- How many references to nothing there are. -/
def dangling (ts : Tables) : Nat :=
  List.foldl (fun n t => t.rule.foreignKeys.foldl (fun n k => n + ts.danglingBy t k) n) 0 ts

/-- The tables after a statement, which may not add references to nothing. -/
def checkReferences (before after : Tables) : Except String Tables :=
  if before.dangling < after.dangling then .error "FOREIGN KEY constraint failed" else .ok after

/-- The column that a foreign key refers to is a key of its table. -/
def isKey (t : StoredTable) (column : String) : Bool :=
  (t.rule.find? column).any fun i => t.rule.rowId == some i || t.rule.uniques.contains [i]

/-- The tables that the foreign keys of a table refer to have to be there. -/
def checkTargets (ts : Tables) (t : TableRule) : List ForeignKey → Except String Unit
  | [] => .ok ()
  | k :: rest =>
    match ts.find? k.target.table with
    | none => .error (noSuchTable ("main." ++ k.target.table))
    | some parent =>
      if isKey parent k.target.column then ts.checkTargets t rest
      else
        .error
          ("foreign key mismatch - \"" ++ t.name ++ "\" referencing \"" ++ k.target.table ++ "\"")

/-! ### Tables -/

/-- The text of an error with the place in the statement where it came up. -/
def located (message sql : String) (offset : Nat) : String :=
  message ++ " in " ++ sql ++ " at offset " ++ toString offset

/-- The text of a syntax error at a place in a statement. -/
def syntaxError (near sql : String) (offset : Nat) : String :=
  located ("near \"" ++ near ++ "\": syntax error") sql offset

/-- How many bytes a piece of SQL has. -/
def byteCount (sql : Sql) : Nat := (Dialect.text .sqlite sql).utf8ByteSize

/-- A CREATE TABLE that names a schema which is not there. -/
def unknownSchema (schema sql : String) (s : CreateTable) : String :=
  located ("unknown database " ++ Dialect.text .sqlite [.name schema]) sql
    (byteCount (.word "CREATE TABLE " :: Dialect.optionalWord s.ifNotExists "IF NOT EXISTS "))

/-- A CREATE TABLE whose table is there already. -/
def alreadyExists (sql : String) (t : Table) : String :=
  let name : Sql := [.name t.name]
  located ("table " ++ Dialect.text .sqlite name ++ " already exists") sql
    (byteCount (.word "CREATE TABLE " :: Dialect.tableName t) - byteCount name)

/-- The names beginning like this are the database's own. -/
def isReserved (name : String) : Bool := sameName "sqlite_" (String.ofList (name.toList.take 7))

/-- CREATE TABLE. A table needs a column: without one the bracket that ends the list is where the
text goes wrong. -/
def createTable (ts : Tables) (s : CreateTable) : Except String Tables := do
  let sql := Dialect.compile .sqlite (.createTable s)
  let present := (ts.mentioned? s.table).isSome
  if let some schema := s.table.schema then
    unless sameName mainSchema schema do throw (unknownSchema schema sql s)
  if isReserved s.table.name then throw ("object name reserved for internal use: " ++ s.table.name)
  if present && !s.ifNotExists then throw (alreadyExists sql s.table)
  if s.columns.isEmpty then throw (syntaxError ")" sql (sql.utf8ByteSize - 2))
  if present then return ts
  return ts ++ [⟨← TableRule.ofStatement s, [], 0⟩]

/-- DROP TABLE, which deletes all rows first. There are no views. -/
def drop (ts : Tables) (s : Drop) : Except String Tables :=
  match s.kind, ts.mentioned? s.table with
  | .view, none => if s.ifExists then .ok ts else .error ("no such view: " ++ shownName s.table)
  | .view, some t => .error ("use DROP TABLE to delete table " ++ t.rule.name)
  | .table, none => if s.ifExists then .ok ts else .error (noSuchTable (shownName s.table))
  | .table, some t => do
    let _ ← checkReferences ts (ts.put { t with rows := [] })
    return List.filter (fun u => !sameName u.rule.name s.table.name) ts

/-! ### Rows -/

/-- Where the text of an INSERT without columns goes wrong: at the bracket that ends their list. -/
def emptyListOffset (i : Insert) : Nat :=
  let opening :=
    if i.orReplace && i.constraints.isEmpty then "INSERT OR REPLACE INTO " else "INSERT INTO "
  byteCount (.word opening :: Dialect.tableName i.table) + 2

/-- Looks an INSERT up. -/
def prepare (ts : Tables) (i : Insert) : Except String (StoredTable × Insertion) := do
  if i.columns.isEmpty then
    throw (syntaxError ")" (Dialect.text .sqlite (Dialect.insert .sqlite i)) (emptyListOffset i))
  let t ← ts.get i.table
  let insertion ← Insertion.ofStatement t.rule i
  ts.checkTargets t.rule t.rule.foreignKeys
  return (t, insertion)

/-- Inserts one row. -/
def insertRow (ts : Tables) (i : Insert) (row : List Stored) : Except String Tables := do
  let (t, insertion) ← ts.prepare i
  checkReferences ts (ts.put (← t.insert insertion row))

/-- Looks up the new values of an UPDATE. -/
def assignments (s : Scope) : List Assignment → Except String (List (Nat × Expr Nat))
  | [] => .ok []
  | a :: rest =>
    match s.rule.find? a.column.name with
    | none => .error ("no such column: " ++ a.column.name)
    | some i => do
      let e ← s.operation a.value
      return (i, e) :: (← assignments s rest)

/-- Updates one row after the other, each from the values it had. -/
def updateRows (s : Scope) (sets : List (Nat × Expr Nat)) :
    List StoredRow → StoredTable → Except String StoredTable
  | [], t => .ok t
  | row :: rest, t => do
    let values ← sets.reverse.mapM fun (i, e) => do return (i, ← s.eval e row)
    let t ← t.change row (sets.map (·.1)) fun i => (values.lookup i).getD .null
    updateRows s sets rest t

/-- UPDATE. -/
def update (ts : Tables) (u : Update) : Except String Tables := do
  let t ← ts.get u.table
  let s := Scope.ofTable t.rule u.table
  let sets ← assignments s u.sets
  let filter ← s.condition u.filter
  ts.checkTargets t.rule (t.rule.foreignKeys.filter fun k => sets.any (·.1 == k.column))
  let rows ← Query.allOrError (s.matching filter t.rows)
  checkReferences ts (ts.put (← updateRows s sets rows t))

/-- DELETE. -/
def delete (ts : Tables) (d : DeleteFrom) : Except String Tables := do
  let t ← ts.get d.table
  let s := Scope.ofTable t.rule d.table
  let filter ← s.condition d.filter
  ts.checkTargets t.rule t.rule.foreignKeys
  let rows ← Query.allOrError (s.matching filter t.rows)
  let gone := rows.map (·.id)
  checkReferences ts (ts.put { t with rows := t.rows.filter fun r => !gone.contains r.id })

/-! ### Queries -/

/-- Looks a query up. -/
def query (ts : Tables) (q : Select) : Except String Results :=
  match q.source with
  | .query _ _ => .error unsupported
  | .table table => do
    let t ← ts.get table
    return (← Query.ofStatement (.ofTable t.rule table) q).run t.rows

/-- Executes a statement. Values not bound are NULL; of a query the first row is fetched. -/
def execute (ts : Tables) : Statement → Except String Tables
  | .createTable s => ts.createTable s
  | .insert i => ts.insertRow i (i.columns.map fun _ => .null)
  | .write w =>
    ts.insertRow ⟨w.table, w.columns, false, []⟩ (w.columns.map fun _ => .null)
  | .select q => do
    match ← ts.query q with
    | .error e :: _ => throw e
    | _ => return ts
  | .update u => ts.update u
  | .delete d => ts.delete d
  | .drop d => ts.drop d
  | .createIndex _ | .createAs _ => .error unsupported

/-- The first word of a text that is no statement is where it goes wrong. -/
def executeText (ts : Tables) (sql : String) : Except String Tables :=
  let blank (c : Char) : Bool := isSpace c || c == ';'
  let rest := sql.toList.dropWhile blank
  let offset := sql.utf8ByteSize - (String.ofList rest).utf8ByteSize
  match Lexeme.readFirst rest with
  | none => if rest.isEmpty then .ok ts else .error unsupported
  | some (_, behind) =>
    .error (syntaxError (String.ofList (rest.take (rest.length - behind.length))) sql offset)

end Tables

/-! ### Transactions -/

/-- A database in memory. -/
structure Store where
  /-- Its tables. -/
  tables : Tables
  /-- Inside a transaction, the tables as they were when it began. -/
  saved : Option Tables
  deriving DecidableEq, Repr

namespace Store

/-- A database without tables. -/
def empty : Store := ⟨[], none⟩

/-- Begins a transaction. -/
def begin (s : Store) : Except String Store :=
  match s.saved with
  | some _ => .error "cannot start a transaction within a transaction"
  | none => .ok { s with saved := some s.tables }

/-- Commits the transaction. -/
def commit (s : Store) : Except String Store :=
  match s.saved with
  | some _ => .ok { s with saved := none }
  | none => .error "cannot commit - no transaction is active"

/-- Rolls the transaction back. -/
def rollback (s : Store) : Except String Store :=
  match s.saved with
  | some tables => .ok ⟨tables, none⟩
  | none => .error "cannot rollback - no transaction is active"

/-- Changes the tables, or leaves the database as it is. -/
def changing (f : Tables → Except String Tables) (s : Store) : Except String Store :=
  (f s.tables).map fun tables => { s with tables }

/-- A step of the database that changes nothing if it fails. -/
def step (f : Store → Except String Store) : Step Store Unit := fun s =>
  match f s with
  | .ok s => .ok () s
  | .error e => .error e s

instance : Database Store where
  begin := step begin
  commit := step commit
  rollback := step rollback
  execute s := step (changing fun ts => ts.execute s)
  executeText sql := step (changing fun ts => ts.executeText sql)
  prepare i := step (changing fun ts => (ts.prepare i).map fun _ => ts)
  insertRow i row := step (changing fun ts => ts.insertRow i (row.map .ofCell))
  query q := fun s =>
    match s.tables.query q with
    | .ok results => .ok results s
    | .error e => .error e s

end Store

end SqlRecords.Sqlite
