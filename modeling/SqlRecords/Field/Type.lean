import SqlRecords.Field.Scalar
import SqlRecords.Field.Structured
import SqlRecords.Field.Wrapper

/-!
# The field types

All field types that are built from the basic ones by wrapping: `FieldType` is their
syntax, `FieldType.Value` the type of their values and `FieldType.field` the field.
Not every nesting makes sense: `FieldType.Admissible` says which do. A primary key
cannot be NULL, NULL can be added only once, and only whole numbers can be numbered
by the database.
-/

namespace SqlRecords

/-- A basic field type, or one made by wrapping another. -/
inductive FieldType where
  | bool
  | int (w : IntSize)
  | float32
  | float
  | text
  | varchar (max : UInt32)
  | date
  | timestamp
  | instant
  | document
  | optional (t : FieldType)
  | primaryKey (t : FieldType)
  | numbered (t : FieldType)
  | unique (t : FieldType)
  | references (t : FieldType) (r : Reference)
  | shared (t : FieldType)
  deriving DecidableEq, Repr

namespace FieldType

/-- The values of a field type. -/
def Value : FieldType → Type
  | .bool => Bool
  | .int w => w.Number
  | .float32 => Float32
  | .float => Float
  | .text => String
  | .varchar max => Field.BoundedText max
  | .date => Date
  | .timestamp => Timestamp
  | .instant => Timestamp
  | .document => Json
  | .optional t => Option t.Value
  | .primaryKey t => t.Value
  | .numbered t => Option t.Value
  | .unique t => t.Value
  | .references t _ => t.Value
  | .shared t => t.Value

/-- The field of a field type. -/
def field : (t : FieldType) → Field t.Value
  | .bool => Field.bool
  | .int w => Field.int w
  | .float32 => Field.float32
  | .float => Field.float
  | .text => Field.text
  | .varchar max => Field.varchar max
  | .date => Field.date
  | .timestamp => Field.timestamp
  | .instant => Field.instant
  | .document => Field.document
  | .optional t => t.field.optional
  | .primaryKey t => t.field.primaryKey
  | .numbered t => t.field.numbered
  | .unique t => t.field.unique
  | .references t r => t.field.references r
  | .shared t => t.field.shared

/-- Values of the type are never NULL, and the type is not a key yet. -/
def notNull : FieldType → Bool
  | .optional _ | .primaryKey _ | .numbered _ => false
  | .unique t | .references t _ | .shared t => t.notNull
  | _ => true

/-- The type is one of whole numbers, without any wrapper. -/
def integral : FieldType → Bool
  | .int _ => true
  | _ => false

/-- The nesting makes sense. -/
def admissible : FieldType → Bool
  | .optional t | .primaryKey t => t.notNull && t.admissible
  | .numbered t => t.integral
  | .unique t | .references t _ | .shared t => t.admissible
  | _ => true

/-- The nesting makes sense. -/
def Admissible (t : FieldType) : Prop := t.admissible = true

instance (t : FieldType) : Decidable t.Admissible := inferInstanceAs (Decidable (_ = true))

/-- The column type, built step by step with each step's condition checked. -/
def buildColumnType : FieldType → Except ColumnType.Fault ColumnType
  | .optional t => do (← t.buildColumnType).step .nullable
  | .primaryKey t => do (← t.buildColumnType).step .primaryKey
  | .numbered t => do (← t.buildColumnType).step .autoIncrement
  | .unique t => do (← t.buildColumnType).step .unique
  | .references t r => do (← t.buildColumnType).step (.references r)
  | .shared t => t.buildColumnType
  | t => .ok t.field.columnType

end FieldType

end SqlRecords
