import SqlRecords.Dialect.Query
import SqlRecords.Statement.Basic

/-!
# Statements in each dialect

Every statement can be written in every dialect. Where a dialect lacks a feature it
is left out: SQLite neither replaces views nor cascades, MySQL has no partial
indexes.
-/

namespace SqlRecords.Dialect

/-- The names of some columns. -/
def columnNames (columns : List Column) : Sql := Sql.commas (columns.map fun c => [.name c.name])

/-- A word that stands only when a flag is set. -/
def optionalWord (flag : Bool) (text : String) : Sql := if flag then [.word text] else []

/-! ### Tables, indexes and views -/

/-- The columns that the clause for the whole table names as primary key. In SQLite an automatically
numbered column is the primary key by its own definition. -/
def primaryColumns (d : Dialect) (columns : List Column) : List Column :=
  columns.filter fun c =>
    match d with
    | .sqlite => c.type.properties.primary && !c.type.properties.autoIncrement
    | .mysql | .postgres => c.type.properties.primary

/-- The clause that names the primary key, if there is one. -/
def primaryKeyClause (d : Dialect) (columns : List Column) : List Sql :=
  match d.primaryColumns columns with
  | [] => []
  | key => [Sql.between "PRIMARY KEY (" (columnNames key) ")"]

/-- The clause that ties a column to one of another table. -/
def foreignKeyClause (c : Column) : Option Sql :=
  c.type.properties.foreignKey.map fun r =>
    [.word "FOREIGN KEY (", .name c.name, .word ") REFERENCES ", .name r.table, .word "(",
      .name r.column, .word ")"]

/-- What stands between the parentheses of a table definition. -/
def tableDefinition (d : Dialect) (columns : List Column) : Sql :=
  Sql.commas (columns.map d.columnDefinition ++ d.primaryKeyClause columns ++
    columns.filterMap foreignKeyClause)

/-- CREATE TABLE. -/
def createTable (d : Dialect) (s : CreateTable) : Sql :=
  .word "CREATE TABLE " :: optionalWord s.ifNotExists "IF NOT EXISTS " ++ tableName s.table ++
    Sql.between " (" (d.tableDefinition s.columns) ")" ++ [.word ";"]

/-- CREATE INDEX. -/
def createIndex (d : Dialect) (s : CreateIndex) : Sql :=
  let mysql := d == .mysql
  .word "CREATE " :: optionalWord s.unique "UNIQUE " ++ .word "INDEX " ::
    optionalWord (s.ifNotExists && !mysql) "IF NOT EXISTS " ++ .name s.name :: .word " ON " ::
      tableName s.table ++ Sql.between "(" (columnNames s.columns) ")" ++
        (if mysql then [] else d.whereClause s.filter) ++ [.word ";"]

/-- The words that make a table or a view out of a query. -/
def createAsWords (d : Dialect) (s : CreateAs) : String :=
  match d, s.kind with
  | .sqlite, .table => if s.ifNotExists then "CREATE TABLE IF NOT EXISTS " else "CREATE TABLE "
  | .sqlite, .view => if s.ifNotExists then "CREATE VIEW IF NOT EXISTS " else "CREATE VIEW "
  | _, .table => if s.ifNotExists then "CREATE TABLE IF NOT EXISTS " else "CREATE TABLE "
  | _, .view => if s.orReplace then "CREATE OR REPLACE VIEW " else "CREATE VIEW "

/-- CREATE TABLE or CREATE VIEW with a query. -/
def createAs (d : Dialect) (s : CreateAs) : Sql :=
  .word (d.createAsWords s) :: tableName s.table ++ .word " AS " :: d.select s.query ++ [.word ";"]

/-- The word of a kind of relation. -/
def relationWord : RelationKind → String
  | .table => "TABLE "
  | .view => "VIEW "

/-- DROP. -/
def drop (d : Dialect) (s : Drop) : Sql :=
  .word ("DROP " ++ relationWord s.kind) :: optionalWord s.ifExists "IF EXISTS " ++
    tableName s.table ++ optionalWord (s.cascade && d != .sqlite) " CASCADE" ++ [.word ";"]

/-! ### Rows -/

/-- The places of so many bound values. -/
def places (count : Nat) : Sql :=
  Sql.commas ((List.range count).map fun i => [.place (i + 1)])

/-- The part of an INSERT that all of them share. -/
def insertRows (opening : String) (table : Table) (columns : List Column) : Sql :=
  .word opening :: tableName table ++ Sql.between " (" (columnNames columns) ")" ++
    Sql.between " VALUES (" (places columns.length) ")"

/-- The columns that an INSERT overwrites: those that do not decide which row is meant. -/
def overwritten (s : Insert) : List Column :=
  s.columns.filter fun c => !s.constraints.any (·.name == c.name)

/-- The new value of a column that an INSERT overwrites. -/
def overwrite (d : Dialect) (c : Column) : Sql :=
  match d with
  | .sqlite => [.name c.name, .word "=excluded.", .name c.name]
  | .postgres => [.name c.name, .word "=EXCLUDED.", .name c.name]
  | .mysql => [.name c.name, .word "=VALUES(", .name c.name, .word ")"]

/-- What is done with a row whose key columns are taken. -/
def onConflict (d : Dialect) (s : Insert) : Sql :=
  Sql.between " ON CONFLICT (" (columnNames s.constraints) ")" ++
    match overwritten s with
    | [] => [.word " DO NOTHING"]
    | columns => .word " DO UPDATE SET " :: Sql.commas (columns.map d.overwrite)

/-- INSERT, which overwrites rows in each dialect's own way. MySQL finds the conflicting key by
itself. -/
def insert (d : Dialect) (s : Insert) : Sql :=
  let plain := insertRows "INSERT INTO " s.table s.columns
  (if !s.orReplace then plain
    else
      match d, s.constraints with
      | .sqlite, [] => insertRows "INSERT OR REPLACE INTO " s.table s.columns
      | .postgres, [] => plain ++ [.word " ON CONFLICT DO NOTHING"]
      | .sqlite, _ | .postgres, _ => plain ++ d.onConflict s
      | .mysql, _ =>
        match overwritten s with
        | [] => insertRows "INSERT IGNORE INTO " s.table s.columns
        | columns =>
          plain ++ .word " ON DUPLICATE KEY UPDATE " :: Sql.commas (columns.map d.overwrite)) ++
    [.word ";"]

/-- A bulk load: COPY in PostgreSQL, a plain INSERT elsewhere. -/
def write (d : Dialect) (s : Write) : Sql :=
  match d with
  | .postgres =>
    .word "COPY " :: tableName s.table ++ Sql.between "(" (columnNames s.columns) ")" ++
      [.word " FROM STDIN WITH (FORMAT csv, DELIMITER E", .fixed "\\t", .word ", NULL ",
        .fixed "\\N", .word ", QUOTE ", .fixed "\"", .word ")", .word ";"]
  | .sqlite | .mysql => insertRows "INSERT INTO " s.table s.columns ++ [.word ";"]

/-- A column and its new value. -/
def assignment (d : Dialect) (a : Assignment) : Sql :=
  .name a.column.name :: .word " = " :: d.operation a.value

/-- UPDATE. -/
def update (d : Dialect) (s : Update) : Sql :=
  .word "UPDATE " :: tableName s.table ++ .word " SET " :: Sql.commas (s.sets.map d.assignment) ++
    d.whereClause s.filter ++ [.word ";"]

/-- DELETE. -/
def delete (d : Dialect) (s : DeleteFrom) : Sql :=
  .word "DELETE FROM " :: tableName s.table ++ d.whereClause s.filter ++ [.word ";"]

/-! ### All statements -/

/-- A statement with the semicolon that ends it. -/
def statement (d : Dialect) : Statement → Sql
  | .createTable s => d.createTable s
  | .createIndex s => d.createIndex s
  | .createAs s => d.createAs s
  | .insert s => d.insert s
  | .write s => d.write s
  | .select s => d.select s ++ [.word ";"]
  | .update s => d.update s
  | .delete s => d.delete s
  | .drop s => d.drop s

/-- The text of a statement. -/
def compile (d : Dialect) (s : Statement) : String := d.text (d.statement s)

end SqlRecords.Dialect
