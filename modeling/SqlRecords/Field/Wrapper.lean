import SqlRecords.Field.Basic

/-!
# Fields made from other fields

NULL, keys and references are added to a field from outside. Each wrapper changes
the column type and leaves the cells of a value as they are; only `Field.optional`
and `Field.numbered` add a value that is written as NULL.
-/

namespace SqlRecords.Field

variable {α β : Type}

/-- A value that may be missing, NULL when it is. -/
def optional (f : Field α) : Field (Option α) where
  columnType := f.columnType.nullable
  autoIncrement := f.autoIncrement
  fromCell
    | some text => (f.fromCell (some text)).map some
    | none => .ok none
  toCell a := a.bind f.toCell

/-- A part of the primary key. -/
def primaryKey (f : Field α) : Field α := { f with columnType := f.columnType.primaryKey }

/-- A primary key that the database numbers. A value has no number until it was stored; a number is
never written. -/
def numbered (f : Field α) : Field (Option α) where
  columnType := f.columnType.autoIncrement
  autoIncrement := true
  fromCell cell := (f.fromCell cell).map some
  toCell a := a.bind f.toCell

/-- A value that no two rows share. -/
def unique (f : Field α) : Field α := { f with columnType := f.columnType.unique }

/-- A value that is also in a column of another table. -/
def references (f : Field α) (r : Reference) : Field α :=
  { f with columnType := f.columnType.references r }

/-- A value kept behind a shared reference, stored as the value itself. -/
def shared (f : Field α) : Field α := f

/-- A type that is stored as another one. Not every stored value need be one of the type. -/
def reflected (f : Field β) (decode : β → Result α) (encode : α → β) : Field α where
  columnType := f.columnType
  autoIncrement := f.autoIncrement
  fromCell cell := f.fromCell cell >>= decode
  toCell a := f.toCell (encode a)

end SqlRecords.Field
