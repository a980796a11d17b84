import SqlRecords.Statement.Kind

/-!
# Tables and columns

Tables and columns as statements mention them, with the names they are given
there. `Column.checkReference` holds a foreign key against the columns of the
table it points to.
-/

namespace SqlRecords

/-- A table as a statement mentions it. -/
structure Table where
  /-- The table's own name. -/
  name : String
  /-- The name it goes by in the statement. -/
  asName : Option String
  /-- The schema it lives in. -/
  schema : Option String
  deriving DecidableEq, Repr, Inhabited

/-- A table mentioned by its name alone. -/
def Table.named (name : String) : Table := ⟨name, none, none⟩

/-- A column, in a definition or in a reference. -/
structure Column where
  /-- The column's own name. -/
  name : String
  /-- The name it is selected under. -/
  asName : Option String
  /-- The table, or name of a table, it is taken from. -/
  tableAlias : Option String
  /-- Its type. -/
  type : ColumnType
  deriving DecidableEq, Repr, Inhabited

namespace Column

/-- The definition of a column. -/
def define (name : String) (type : ColumnType) : Column := ⟨name, none, none, type⟩

/-- A column mentioned by name, of unknown type. -/
def named (name : String) : Column := define name .unknown

/-- The column under another name. -/
def withAlias (c : Column) (asName : String) : Column := { c with asName := some asName }

/-- The column of a named table. -/
def withTableAlias (c : Column) (asName : String) : Column := { c with tableAlias := some asName }

/-- The column does not exist in the table it should. -/
def missingReference (c : Column) (r : Reference) : Error :=
  (((Error.new "Foreign key references a missing column").withField "column" c.name).withField
    "table" r.table).withField "referenced" r.column

/-- The column pointed to is not part of the primary key. -/
def referenceNotPrimary (c : Column) (r : Reference) : Error :=
  ((Error.new "Foreign key must reference a primary key column").withField "column"
    c.name).withField "referenced" r.column

/-- The column pointed to holds something else. -/
def referenceKindMismatch (c : Column) (expected : Kind) : Error :=
  (((Error.new "Foreign key type mismatch").withField "column" c.name).withField
    "expected" expected.describe).withField "got" c.type.kind.describe

/-- A foreign key has to name a column of the target that is part of the primary key and
of the same kind; a column without a foreign key is always fine. -/
def checkReference (c : Column) (target : List Column) : Result Unit :=
  match c.type.properties.foreignKey with
  | none => .ok ()
  | some r =>
    match target.find? (·.name == r.column) with
    | none => .error (c.missingReference r)
    | some t =>
      if !t.type.properties.primary then .error (c.referenceNotPrimary r)
      else if t.type.kind ≠ c.type.kind then .error (c.referenceKindMismatch t.type.kind)
      else .ok ()

end Column

end SqlRecords
