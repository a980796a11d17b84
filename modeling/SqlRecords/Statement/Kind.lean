import SqlRecords.Error

/-!
# Column types

A column type is a `Kind`, the same for every dialect, together with `Properties`:
whether the column may hold NULL, is part of the primary key, is unique, numbers
its rows by itself, or refers to a column of another table.

Types are built step by step. Two steps have a condition (`ColumnType.Fault`): a
primary key column may not be nullable, and only whole numbers can be numbered
automatically. `ColumnType.step` checks the condition; the plain functions such as
`ColumnType.primaryKey` make the change alone, for callers that know it holds.
-/

namespace SqlRecords

/-- What a column holds, in terms every dialect can express. -/
inductive Kind where
  | boolean
  | int8
  | int16
  | int32
  | int64
  | uint8
  | uint16
  | uint32
  | uint64
  | float32
  | float64
  | text
  /-- Text of at most so many characters. -/
  | varchar (length : UInt32)
  | date
  | timestamp
  | timestampWithTz
  | json
  /-- A kind that is not known, as in a bare reference to a column. -/
  | unknown
  deriving DecidableEq, Repr, Inhabited

namespace Kind

/-- The whole number kinds. -/
def isIntegral : Kind → Bool
  | .int8 | .int16 | .int32 | .int64 | .uint8 | .uint16 | .uint32 | .uint64 => true
  | _ => false

/-- The whole number kinds without negative numbers. -/
def isUnsigned : Kind → Bool
  | .uint8 | .uint16 | .uint32 | .uint64 => true
  | _ => false

/-- The floating point kinds. -/
def isFloat : Kind → Bool
  | .float32 | .float64 => true
  | _ => false

/-- The name of a kind without its length. -/
def name : Kind → String
  | .boolean => "Boolean"
  | .int8 => "Int8"
  | .int16 => "Int16"
  | .int32 => "Int32"
  | .int64 => "Int64"
  | .uint8 => "UInt8"
  | .uint16 => "UInt16"
  | .uint32 => "UInt32"
  | .uint64 => "UInt64"
  | .float32 => "Float32"
  | .float64 => "Float64"
  | .text => "Text"
  | .varchar _ => "Varchar"
  | .date => "Date"
  | .timestamp => "Timestamp"
  | .timestampWithTz => "TimestampWithTz"
  | .json => "Json"
  | .unknown => "Unknown"

/-- The kinds that are known by their name alone. -/
def plain : List Kind :=
  [.boolean, .int8, .int16, .int32, .int64, .uint8, .uint16, .uint32, .uint64, .float32, .float64,
    .text, .date, .timestamp, .timestampWithTz, .json, .unknown]

/-- A kind as a user reads it, `Varchar(16)` with its length. -/
def describe : Kind → String
  | .varchar n => "Varchar(" ++ toString n.toNat ++ ")"
  | k => k.name

end Kind

/-- The column of another table that a column points to. -/
structure Reference where
  /-- The other table. -/
  table : String
  /-- The column there. -/
  column : String
  deriving DecidableEq, Repr, Inhabited

/-- What a column promises about its values. -/
structure Properties where
  /-- The column may hold NULL. -/
  nullable : Bool
  /-- The column is part of the primary key. -/
  primary : Bool
  /-- No two rows share a value that is not NULL. -/
  unique : Bool
  /-- The database numbers the rows. -/
  autoIncrement : Bool
  /-- The column of another table whose values this one repeats. -/
  foreignKey : Option Reference
  deriving DecidableEq, Repr, Inhabited

/-- Nothing promised, NULL not allowed. -/
def Properties.none : Properties := ⟨false, false, false, false, .none⟩

/-- The type of a column. -/
structure ColumnType where
  /-- What it holds. -/
  kind : Kind
  /-- What it promises. -/
  properties : Properties
  deriving DecidableEq, Repr, Inhabited

namespace ColumnType

/-- A kind with no properties. -/
def ofKind (kind : Kind) : ColumnType := ⟨kind, .none⟩

/-- The type of a column that is only mentioned by name. -/
def unknown : ColumnType := ofKind .unknown

/-- Why a building step is refused. -/
inductive Fault where
  /-- A nullable column cannot be part of the primary key. -/
  | nullablePrimary
  /-- Only whole numbers can be numbered automatically. -/
  | notIntegral (kind : Kind)
  deriving DecidableEq, Repr

/-- The text of a refusal. -/
def Fault.message : Fault → String
  | .nullablePrimary => "primary key columns cannot be nullable"
  | .notIntegral kind => "auto increment requires an integral type, got " ++ kind.describe

/-- The column may hold NULL. -/
def nullable (t : ColumnType) : ColumnType :=
  { t with properties := { t.properties with nullable := true } }

/-- The column is part of the primary key. -/
def primaryKey (t : ColumnType) : ColumnType :=
  { t with properties := { t.properties with primary := true } }

/-- The column is the primary key and the database numbers it. -/
def autoIncrement (t : ColumnType) : ColumnType :=
  { t with properties := { t.properties with primary := true, autoIncrement := true } }

/-- No two rows share a value of the column. -/
def unique (t : ColumnType) : ColumnType :=
  { t with properties := { t.properties with unique := true } }

/-- The column repeats values of another table's column. -/
def references (t : ColumnType) (r : Reference) : ColumnType :=
  { t with properties := { t.properties with foreignKey := some r } }

/-- One step in the building of a column type. -/
inductive Step where
  | nullable
  | primaryKey
  | autoIncrement
  | unique
  | references (r : Reference)
  deriving DecidableEq, Repr

/-- A building step, refused when its condition does not hold. -/
def step (t : ColumnType) : Step → Except Fault ColumnType
  | .nullable => .ok t.nullable
  | .primaryKey => if t.properties.nullable then .error .nullablePrimary else .ok t.primaryKey
  | .autoIncrement =>
    if t.kind.isIntegral then .ok t.autoIncrement else .error (.notIntegral t.kind)
  | .unique => .ok t.unique
  | .references r => .ok (t.references r)

/-- A type as a user reads it: the kind, and a question mark when NULL is allowed. -/
def describe (t : ColumnType) : String :=
  t.kind.describe ++ if t.properties.nullable then "?" else ""

end ColumnType

end SqlRecords
