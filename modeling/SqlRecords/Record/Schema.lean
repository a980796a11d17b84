import SqlRecords.Record.Row
import SqlRecords.Statement.Basic
import SqlRecords.Statement.Build

/-!
# Records

A `Schema` describes the records of a table: the name of the table and its fields in
order, each with a name and a type of values. A record has a value for each field.
Rows are turned into records and back, and the statements that create, fill, query
and drop the table follow from the schema.
-/

namespace SqlRecords

/-- A field of a record. -/
structure NamedField where
  /-- Its name, which is that of its column. -/
  name : String
  /-- The type of its values. -/
  Value : Type
  /-- How they are stored. -/
  field : Field Value

/-- The column of a field. -/
def NamedField.column (f : NamedField) : Column := .define f.name f.field.columnType

/-- A value for each of some fields. -/
def Values : List NamedField → Type
  | [] => Unit
  | f :: rest => f.Value × Values rest

namespace Values

/-- Reads a value for each field, the first one first, up to the first that fails. -/
def read : (fields : List NamedField) → RowReader → Result (Values fields) × RowReader
  | [], r => (.ok (), r)
  | f :: rest, r =>
    match r.read f.field f.name with
    | (.ok a, r) =>
      match read rest r with
      | (.ok as, r) => (.ok (a, as), r)
      | (.error e, r) => (.error e, r)
    | (.error e, r) => (.error e, r)

/-- Writes the value of each field. -/
def write : (fields : List NamedField) → Values fields → RowWriter → RowWriter
  | [], _, w => w
  | f :: rest, (a, as), w => write rest as (w.write f.field a)

/-- The cells of all the values, those the database gives included. -/
def cells : (fields : List NamedField) → Values fields → List Cell
  | [], _ => []
  | f :: rest, (a, as) => f.field.toCell a :: cells rest as

end Values

/-- The records of a table. -/
structure Schema where
  /-- The name of the table. -/
  table : String
  /-- The fields, in order. -/
  fields : List NamedField

namespace Schema

/-- A record: a value for each field. -/
abbrev Record (s : Schema) : Type := Values s.fields

/-- The columns of the table. -/
def columns (s : Schema) : List Column := s.fields.map NamedField.column

/-- How many columns the table has. -/
def numColumns (s : Schema) : Nat := s.fields.length

/-- The columns that get their values from records. -/
def insertable (s : Schema) : List Column :=
  s.columns.filter fun c => !c.type.properties.autoIncrement

/-- The record that a row holds. -/
def fromRow (s : Schema) (row : Row) : Result s.Record := do
  let reader ← RowReader.ofRow row s.numColumns
  (Values.read s.fields reader).1

/-- The row of a record, without the values the database gives. -/
def toRow (s : Schema) (record : s.Record) : Row :=
  (Values.write s.fields record .empty).finish

/-- All the cells of a record. -/
def cells (s : Schema) (record : s.Record) : List Cell := Values.cells s.fields record

/-! ### Statements -/

/-- Creates the table. -/
def createTable (s : Schema) (ifNotExists : Bool) : CreateTable :=
  ⟨.named s.table, s.columns, ifNotExists⟩

/-- The columns that decide which row a record overwrites: the primary key if there is one, else the
first unique column. -/
def conflictTarget (columns : List Column) : List Column :=
  match columns.filter (·.type.properties.primary) with
  | [] => (columns.find? (·.type.properties.unique)).toList
  | key => key

/-- Inserts records, maybe overwriting rows that are there already. -/
def insert (s : Schema) (orReplace : Bool) : Insert :=
  { table := .named s.table
    columns := s.insertable
    orReplace
    constraints := if orReplace then conflictTarget s.insertable else [] }

/-- Loads records in bulk. -/
def write (s : Schema) : Write := ⟨.named s.table, s.insertable⟩

/-- Queries all records. -/
def select (s : Schema) : Select :=
  .of (.table (.named s.table)) (SqlRecords.fields (s.columns.map (·.name)))

/-- Drops the table. -/
def drop (s : Schema) (ifExists : Bool) : Drop := ⟨.table, .named s.table, ifExists, false⟩

end Schema

end SqlRecords
