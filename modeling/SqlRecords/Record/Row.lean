import SqlRecords.Field.Basic

/-!
# Reading and writing rows

A `RowReader` hands out the cells of a row from left to right, each to a field, and
counts the fields that took theirs; an error says which field failed and how far the
reader had come. A `RowWriter` collects cells, leaving out those that the database
fills in.
-/

namespace SqlRecords

/-! ### Reading -/

/-- The cells of a row that are still to be read. -/
structure RowReader where
  /-- The cells left. -/
  cells : List Cell
  /-- How many fields have been read. -/
  assigned : Nat
  deriving DecidableEq, Repr

namespace RowReader

/-- A row with the wrong number of cells. -/
def wrongWidth (expected actual : Nat) : Error :=
  ((Error.marshal "Row has an unexpected number of cells").withField "expected"
    (toString expected)).withField "actual" (toString actual)

/-- A reader of a row that has to have so many cells. -/
def ofRow (row : Row) (expected : Nat) : Result RowReader :=
  if row.length = expected then .ok ⟨row, 0⟩ else .error (wrongWidth expected row.length)

/-- An error with the name of the field it came up in, and where that was. -/
def located (e : Error) (name : String) (position : Nat) : Error :=
  ((e.withField "field" name).withField "position" (toString position)).withField "assigned"
    (toString position)

/-- A field without a cell. -/
def noCell : Error := .marshal "Row has no cell left for field"

/-- Reads the next cell. A cell that cannot be read is used up all the same. -/
def read {α : Type} (r : RowReader) (f : Field α) (name : String) : Result α × RowReader :=
  match r.cells with
  | [] => (.error (located noCell name r.assigned), r)
  | cell :: rest =>
    match f.fromCell cell with
    | .ok a => (.ok a, ⟨rest, r.assigned + 1⟩)
    | .error e => (.error (located e name r.assigned), { r with cells := rest })

end RowReader

/-! ### Writing -/

/-- The cells written so far. -/
structure RowWriter where
  /-- The cells, in order. -/
  cells : List Cell
  deriving DecidableEq, Repr

namespace RowWriter

/-- A writer with no cells. -/
def empty : RowWriter := ⟨[]⟩

/-- Writes a value, unless the database gives it. -/
def write {α : Type} (w : RowWriter) (f : Field α) (a : α) : RowWriter :=
  if f.autoIncrement then w else ⟨w.cells ++ [f.toCell a]⟩

/-- The row that was written. -/
def finish (w : RowWriter) : Row := w.cells

end RowWriter

end SqlRecords
