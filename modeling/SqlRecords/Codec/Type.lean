import SqlRecords.Codec.Shape
import SqlRecords.Statement.Table
import SqlRecords.Statement.Value

/-!
# The JSON form of types, literals, tables and columns
-/

namespace SqlRecords.Codec

/-- The fields of a reference. -/
def referenceFields : List String := ["table", "column"]

/-- Reads a reference. -/
def reference? : Decoder Reference := fun j => do
  return {
    table := ← required? referenceFields "table" string? j
    column := ← required? referenceFields "column" string? j }

/-- Writes a reference. -/
def ofReference (r : Reference) : Json := .obj [("table", .str r.table), ("column", .str r.column)]

/-- The fields of the properties of a column. -/
def propertyFields : List String :=
  ["nullable", "primary", "unique", "auto_increment", "foreign_key"]

/-- Reads the properties of a column. -/
def properties? : Decoder Properties := fun j => do
  return {
    nullable := ← required? propertyFields "nullable" bool? j
    primary := ← required? propertyFields "primary" bool? j
    unique := ← required? propertyFields "unique" bool? j
    autoIncrement := ← required? propertyFields "auto_increment" bool? j
    foreignKey := ← optional? propertyFields "foreign_key" reference? j }

/-- Writes the properties of a column. -/
def ofProperties (p : Properties) : Json :=
  .obj [("nullable", .bool p.nullable), ("primary", .bool p.primary), ("unique", .bool p.unique),
    ("auto_increment", .bool p.autoIncrement), ("foreign_key", ofOption ofReference p.foreignKey)]

/-- Reads a kind: its name, or for a text of limited length the length. -/
def kind? : Decoder Kind := fun j =>
  match tagged? Kind.plain Kind.name j with
  | some k => some k
  | none => do
    let (name, ⟨content, _⟩) ← j.variant?
    if name == "Varchar" then return .varchar (← uint32? content) else none

/-- Writes a kind. -/
def ofKind : Kind → Json
  | .varchar n => ofVariant "Varchar" (.int n.toNat)
  | k => .str k.name

/-- The fields of a column type. -/
def typeFields : List String := ["kind", "properties"]

/-- Reads a column type. -/
def type? : Decoder ColumnType := fun j => do
  return {
    kind := ← required? typeFields "kind" kind? j
    properties := ← required? typeFields "properties" properties? j }

/-- Writes a column type. -/
def ofType (t : ColumnType) : Json :=
  .obj [("kind", ofKind t.kind), ("properties", ofProperties t.properties)]

/-- Reads a literal. -/
def value? : Decoder Value := fun j => do
  let (name, ⟨content, _⟩) ← j.variant?
  match name with
  | "Integer" => (int64? content).map .integer
  | "Float" => (float? content).map .float
  | "String" => (string? content).map .string
  | _ => none

/-- Writes a literal. No JSON number is infinite or not a number. -/
def ofValue : Value → Json
  | .integer n => ofVariant "Integer" (.int n.toInt)
  | .float x => ofVariant "Float" (if x.isFinite then .float x else .null)
  | .string s => ofVariant "String" (.str s)

/-- The fields of a table. -/
def tableFields : List String := ["name", "alias", "schema"]

/-- Reads a table. -/
def table? : Decoder Table := fun j => do
  return {
    name := ← required? tableFields "name" string? j
    asName := ← optional? tableFields "alias" string? j
    schema := ← optional? tableFields "schema" string? j }

/-- Writes a table. -/
def ofTable (t : Table) : Json :=
  .obj [("name", .str t.name), ("alias", ofOption .str t.asName),
    ("schema", ofOption .str t.schema)]

/-- The fields of a column. -/
def columnFields : List String := ["name", "alias", "table_alias", "typ"]

/-- Reads a column. -/
def column? : Decoder Column := fun j => do
  return {
    name := ← required? columnFields "name" string? j
    asName := ← optional? columnFields "alias" string? j
    tableAlias := ← optional? columnFields "table_alias" string? j
    type := ← required? columnFields "typ" type? j }

/-- Writes a column. -/
def ofColumn (c : Column) : Json :=
  .obj [("name", .str c.name), ("alias", ofOption .str c.asName),
    ("table_alias", ofOption .str c.tableAlias), ("typ", ofType c.type)]

end SqlRecords.Codec
