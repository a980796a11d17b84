import SqlRecords.Statement.Select

/-!
# Statements

The statements of the library: those that define tables, indexes and views, those
that change rows, and queries. They are plain data, the same for every dialect.
-/

namespace SqlRecords

/-- CREATE TABLE with its columns. -/
structure CreateTable where
  /-- The new table. -/
  table : Table
  /-- Its columns. -/
  columns : List Column
  /-- A table that is there already is left alone. -/
  ifNotExists : Bool
  deriving DecidableEq, Repr

/-- CREATE INDEX. -/
structure CreateIndex where
  /-- The new index. -/
  name : String
  /-- The table it belongs to. -/
  table : Table
  /-- The columns it is over. -/
  columns : List Column
  /-- No two rows share their values. -/
  unique : Bool
  /-- An index that is there already is left alone. -/
  ifNotExists : Bool
  /-- The rows it covers. -/
  filter : Option Condition
  deriving Repr

/-- What a statement makes or drops. -/
inductive RelationKind where
  | table
  | view
  deriving DecidableEq, Repr, Inhabited

/-- The kinds of relation, each once. -/
def RelationKind.all : List RelationKind := [.table, .view]

/-- CREATE TABLE or CREATE VIEW with the rows of a query. -/
structure CreateAs where
  /-- What is made. -/
  kind : RelationKind
  /-- Its name. -/
  table : Table
  /-- The query that gives its rows. -/
  query : Select
  /-- One that is there already is replaced. -/
  orReplace : Bool
  /-- One that is there already is left alone. -/
  ifNotExists : Bool
  deriving Repr

/-- INSERT of rows whose values are bound later. -/
structure Insert where
  /-- The table. -/
  table : Table
  /-- The columns that get values. -/
  columns : List Column
  /-- A row that is there already is overwritten. -/
  orReplace : Bool
  /-- The columns that decide which row that is. -/
  constraints : List Column
  deriving DecidableEq, Repr

/-- A bulk load of rows into a table. -/
structure Write where
  /-- The table. -/
  table : Table
  /-- The columns that get values. -/
  columns : List Column
  deriving DecidableEq, Repr

/-- One column of an UPDATE and its new value. -/
structure Assignment where
  /-- The column. -/
  column : Column
  /-- What it is set to. -/
  value : Operation
  deriving Repr

/-- UPDATE. -/
structure Update where
  /-- The table. -/
  table : Table
  /-- The new values. -/
  sets : List Assignment
  /-- The rows that are changed. -/
  filter : Option Condition
  deriving Repr

/-- DELETE. -/
structure DeleteFrom where
  /-- The table. -/
  table : Table
  /-- The rows that go. -/
  filter : Option Condition
  deriving Repr

/-- DROP TABLE or DROP VIEW. -/
structure Drop where
  /-- What is dropped. -/
  kind : RelationKind
  /-- Its name. -/
  table : Table
  /-- One that is not there is no error. -/
  ifExists : Bool
  /-- What depends on it goes too. -/
  cascade : Bool
  deriving DecidableEq, Repr

/-- A statement. -/
inductive Statement where
  | createTable (s : CreateTable)
  | createIndex (s : CreateIndex)
  | createAs (s : CreateAs)
  | insert (s : Insert)
  | write (s : Write)
  | select (s : Select)
  | update (s : Update)
  | delete (s : DeleteFrom)
  | drop (s : Drop)
  deriving Repr

/-- The name of a kind of statement. -/
def Statement.kindName : Statement → String
  | .createTable _ => "create_table"
  | .createIndex _ => "create_index"
  | .createAs _ => "create_as"
  | .insert _ => "insert"
  | .write _ => "write"
  | .select _ => "select"
  | .update _ => "update"
  | .delete _ => "delete"
  | .drop _ => "drop"

end SqlRecords
