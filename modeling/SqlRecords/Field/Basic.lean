import SqlRecords.Statement.Kind

/-!
# Fields

Rows travel as text: a cell is a text or NULL, a row is a list of cells. A `Field`
says how the values of a type live in a column: the type of the column, how a cell
is read, how a value is written. Reading is strict and may fail, writing never
fails.
-/

namespace SqlRecords

/-- A value as it travels: a text, or NULL. -/
abbrev Cell := Option String

/-- A row as it travels. -/
abbrev Row := List Cell

/-- How the values of a type live in a column. -/
structure Field (α : Type) where
  /-- The type of the column. -/
  columnType : ColumnType
  /-- The database gives the values, so that none are written. -/
  autoIncrement : Bool
  /-- Reads a cell. -/
  fromCell : Cell → Result α
  /-- Writes a value. -/
  toCell : α → Cell

namespace Field

/-- NULL where there has to be a value. -/
def unexpectedNull : Error := .marshal "Unexpected NULL for a non-nullable field"

/-- A cell whose text is not that of a value; `reason` says why. -/
def unreadable (what text reason : String) : Error :=
  ((Error.marshal ("Failed to parse " ++ what)).withField "value" text).withField "reason" reason

/-- A cell whose text is not that of a value. -/
def unreadableText (what text : String) : Error :=
  (Error.marshal ("Failed to parse " ++ what)).withField "value" text

/-- A field without special properties whose cells are never NULL. -/
def ofText {α : Type} (kind : Kind) (read : String → Result α) (write : α → String) : Field α where
  columnType := .ofKind kind
  autoIncrement := false
  fromCell
    | some text => read text
    | none => .error unexpectedNull
  toCell a := some (write a)

end Field

end SqlRecords
