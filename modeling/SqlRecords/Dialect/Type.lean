import SqlRecords.Dialect.Token
import SqlRecords.Statement.Table

/-!
# Column types in each dialect

The names of column types, what a column definition says behind them, and the types
that values are cast to.
-/

namespace SqlRecords.Dialect

/-- The name of a kind in a column definition. SQLite knows three classes of values only. -/
def typeName : Dialect → Kind → String
  | .sqlite, .float32 | .sqlite, .float64 => "REAL"
  | .sqlite, .text | .sqlite, .varchar _ | .sqlite, .date | .sqlite, .timestamp
  | .sqlite, .timestampWithTz | .sqlite, .json | .sqlite, .unknown => "TEXT"
  | .sqlite, _ => "INTEGER"
  | .mysql, .boolean => "BOOLEAN"
  | .mysql, .int8 => "TINYINT"
  | .mysql, .int16 => "SMALLINT"
  | .mysql, .int32 => "INT"
  | .mysql, .int64 => "BIGINT"
  | .mysql, .uint8 => "TINYINT UNSIGNED"
  | .mysql, .uint16 => "SMALLINT UNSIGNED"
  | .mysql, .uint32 => "INT UNSIGNED"
  | .mysql, .uint64 => "BIGINT UNSIGNED"
  | .mysql, .float32 => "FLOAT"
  | .mysql, .float64 => "DOUBLE"
  | .mysql, .text | .mysql, .unknown => "TEXT"
  | .mysql, .varchar n => "VARCHAR(" ++ toString n.toNat ++ ")"
  | .mysql, .date => "DATE"
  | .mysql, .timestamp => "DATETIME"
  | .mysql, .timestampWithTz => "TIMESTAMP"
  | .mysql, .json => "JSON"
  | .postgres, .boolean => "BOOLEAN"
  | .postgres, .int8 | .postgres, .int16 | .postgres, .uint8 => "SMALLINT"
  | .postgres, .int32 | .postgres, .uint16 => "INTEGER"
  | .postgres, .int64 | .postgres, .uint32 | .postgres, .uint64 => "BIGINT"
  | .postgres, .float32 => "REAL"
  | .postgres, .float64 => "DOUBLE PRECISION"
  | .postgres, .text | .postgres, .unknown => "TEXT"
  | .postgres, .varchar n => "VARCHAR(" ++ toString n.toNat ++ ")"
  | .postgres, .date => "DATE"
  | .postgres, .timestamp => "TIMESTAMP"
  | .postgres, .timestampWithTz => "TIMESTAMP WITH TIME ZONE"
  | .postgres, .json => "JSONB"

/-- The name of a kind that values are cast to. -/
def castName : Dialect → Kind → String
  | .sqlite, kind => typeName .sqlite kind
  | .postgres, kind => typeName .postgres kind
  | .mysql, .boolean | .mysql, .int8 | .mysql, .int16 | .mysql, .int32 | .mysql, .int64 => "SIGNED"
  | .mysql, .uint8 | .mysql, .uint16 | .mysql, .uint32 | .mysql, .uint64 => "UNSIGNED"
  | .mysql, .float32 | .mysql, .float64 => "DOUBLE"
  | .mysql, .text | .mysql, .unknown => "CHAR"
  | .mysql, .varchar n => "CHAR(" ++ toString n.toNat ++ ")"
  | .mysql, .date => "DATE"
  | .mysql, .timestamp | .mysql, .timestampWithTz => "DATETIME"
  | .mysql, .json => "JSON"

/-- What makes the database number the rows of a column. In SQLite this also makes the column the
primary key. -/
def autoIncrementWords : Dialect → String
  | .sqlite => " PRIMARY KEY AUTOINCREMENT"
  | .mysql => " NOT NULL AUTO_INCREMENT"
  | .postgres => " NOT NULL GENERATED BY DEFAULT AS IDENTITY"

/-- What a column definition says behind the type. -/
def propertyWords (d : Dialect) (p : Properties) : String :=
  if p.autoIncrement then d.autoIncrementWords
  else (if p.nullable then "" else " NOT NULL") ++ if p.unique then " UNIQUE" else ""

/-- The definition of a column. -/
def columnDefinition (d : Dialect) (c : Column) : Sql :=
  [.name c.name, .word " ", .word (d.typeName c.type.kind),
    .word (d.propertyWords c.type.properties)]

end SqlRecords.Dialect
