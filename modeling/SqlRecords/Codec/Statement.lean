import SqlRecords.Codec.Expression
import SqlRecords.Statement.Basic

/-!
# The JSON form of queries and statements
-/

namespace SqlRecords.Codec

/-! ### Queries -/

/-- The fields of a field of a query. -/
def selectFieldFields : List String := ["op", "alias"]

/-- Reads a field of a query. -/
def selectField? : Decoder SelectField := fun j => do
  return {
    op := ← required? selectFieldFields "op" operation? j
    asName := ← optional? selectFieldFields "alias" string? j }

/-- Writes a field of a query. -/
def ofSelectField (f : SelectField) : Json :=
  .obj [("op", ofOperation f.op), ("alias", ofOption .str f.asName)]

/-- The name of a kind of join. -/
def joinTag : JoinKind → String
  | .inner => "Inner"
  | .leftOuter => "Left"
  | .rightOuter => "Right"
  | .fullOuter => "Full"

/-- Reads a kind of join. -/
def joinKind? : Decoder JoinKind := tagged? JoinKind.all joinTag

/-- The fields of an ordering. -/
def orderByFields : List String := ["column", "desc"]

/-- Reads an ordering. -/
def orderBy? : Decoder OrderBy := fun j => do
  return {
    column := ← required? orderByFields "column" column? j
    desc := ← required? orderByFields "desc" bool? j }

/-- Writes an ordering. -/
def ofOrderBy (o : OrderBy) : Json := .obj [("column", ofColumn o.column), ("desc", .bool o.desc)]

/-- The fields of a query. -/
def selectFields : List String :=
  ["source", "fields", "joins", "where_clause", "group_by", "order_by", "limit"]

/-- The fields of a join. -/
def joinFields : List String := ["kind", "source", "on"]

mutual

/-- Reads a query. -/
def select? (j : Json) : Option Select := do
  let ⟨source, _⟩ ← j.part? selectFields "source"
  let ⟨joins, _⟩ ← j.part? selectFields "joins"
  return {
    source := ← source? source
    fields := ← required? selectFields "fields" (list? selectField?) j
    joins := ← (← joins.parts?).mapM fun ⟨item, _⟩ => join? item
    filter := ← optional? selectFields "where_clause" condition? j
    groupBy := ← required? selectFields "group_by" (list? column?) j
    orderBy := ← required? selectFields "order_by" (list? orderBy?) j
    limit := ← optional? selectFields "limit" uint64? j }
termination_by sizeOf j

/-- Reads a source. -/
def source? (j : Json) : Option Source := do
  let (name, ⟨content, _⟩) ← j.variant?
  match name with
  | "Table" => return .table (← table? content)
  | "Query" =>
    let ⟨query, _⟩ ← content.named? "query"
    return .query (← select? query) (← named? "alias" string? content)
  | _ => none
termination_by sizeOf j

/-- Reads a join. -/
def join? (j : Json) : Option Join := do
  let ⟨source, _⟩ ← j.part? joinFields "source"
  return {
    kind := ← required? joinFields "kind" joinKind? j
    source := ← source? source
    condition := ← required? joinFields "on" condition? j }
termination_by sizeOf j

end

mutual

/-- Writes a query. -/
def ofSelect : Select → Json
  | ⟨source, fields, joins, filter, groupBy, orderBy, limit⟩ =>
    .obj [("source", ofSource source), ("fields", ofList ofSelectField fields),
      ("joins", .arr (ofJoins joins)), ("where_clause", ofOption ofCondition filter),
      ("group_by", ofList ofColumn groupBy), ("order_by", ofList ofOrderBy orderBy),
      ("limit", ofOption (fun n => .int n.toNat) limit)]

/-- Writes a source. -/
def ofSource : SourceOf Select → Json
  | .table t => ofVariant "Table" (ofTable t)
  | .query q name => ofVariant "Query" (.obj [("query", ofSelect q), ("alias", .str name)])

/-- Writes joins one by one. -/
def ofJoins : List (JoinOf Select) → List Json
  | [] => []
  | j :: rest => ofJoin j :: ofJoins rest

/-- Writes a join. -/
def ofJoin : JoinOf Select → Json
  | ⟨kind, source, condition⟩ =>
    .obj [("kind", .str (joinTag kind)), ("source", ofSource source), ("on", ofCondition condition)]

end

/-! ### Tables, indexes and views -/

/-- The fields of a table definition. -/
def createTableFields : List String := ["table", "columns", "if_not_exists"]

/-- Reads a table definition. -/
def createTable? : Decoder CreateTable := fun j => do
  return {
    table := ← required? createTableFields "table" table? j
    columns := ← required? createTableFields "columns" (list? column?) j
    ifNotExists := ← required? createTableFields "if_not_exists" bool? j }

/-- Writes a table definition. -/
def ofCreateTable (s : CreateTable) : Json :=
  .obj [("table", ofTable s.table), ("columns", ofList ofColumn s.columns),
    ("if_not_exists", .bool s.ifNotExists)]

/-- The fields of an index definition. -/
def createIndexFields : List String :=
  ["name", "table", "columns", "unique", "if_not_exists", "where_clause"]

/-- Reads an index definition. -/
def createIndex? : Decoder CreateIndex := fun j => do
  return {
    name := ← required? createIndexFields "name" string? j
    table := ← required? createIndexFields "table" table? j
    columns := ← required? createIndexFields "columns" (list? column?) j
    unique := ← required? createIndexFields "unique" bool? j
    ifNotExists := ← required? createIndexFields "if_not_exists" bool? j
    filter := ← optional? createIndexFields "where_clause" condition? j }

/-- Writes an index definition. -/
def ofCreateIndex (s : CreateIndex) : Json :=
  .obj [("name", .str s.name), ("table", ofTable s.table), ("columns", ofList ofColumn s.columns),
    ("unique", .bool s.unique), ("if_not_exists", .bool s.ifNotExists),
    ("where_clause", ofOption ofCondition s.filter)]

/-- The name of a kind of relation. -/
def relationTag : RelationKind → String
  | .table => "Table"
  | .view => "View"

/-- Reads a kind of relation. -/
def relationKind? : Decoder RelationKind := tagged? RelationKind.all relationTag

/-- The fields of a definition by a query. -/
def createAsFields : List String := ["kind", "table", "query", "or_replace", "if_not_exists"]

/-- Reads a definition by a query. -/
def createAs? : Decoder CreateAs := fun j => do
  return {
    kind := ← required? createAsFields "kind" relationKind? j
    table := ← required? createAsFields "table" table? j
    query := ← required? createAsFields "query" select? j
    orReplace := ← required? createAsFields "or_replace" bool? j
    ifNotExists := ← required? createAsFields "if_not_exists" bool? j }

/-- Writes a definition by a query. -/
def ofCreateAs (s : CreateAs) : Json :=
  .obj [("kind", .str (relationTag s.kind)), ("table", ofTable s.table),
    ("query", ofSelect s.query), ("or_replace", .bool s.orReplace),
    ("if_not_exists", .bool s.ifNotExists)]

/-- The fields of a drop. -/
def dropFields : List String := ["kind", "table", "if_exists", "cascade"]

/-- Reads a drop. -/
def drop? : Decoder Drop := fun j => do
  return {
    kind := ← required? dropFields "kind" relationKind? j
    table := ← required? dropFields "table" table? j
    ifExists := ← required? dropFields "if_exists" bool? j
    cascade := ← required? dropFields "cascade" bool? j }

/-- Writes a drop. -/
def ofDrop (s : Drop) : Json :=
  .obj [("kind", .str (relationTag s.kind)), ("table", ofTable s.table),
    ("if_exists", .bool s.ifExists), ("cascade", .bool s.cascade)]

/-! ### Rows -/

/-- The fields of an insert. -/
def insertFields : List String := ["table", "columns", "or_replace", "constraints"]

/-- Reads an insert. -/
def insert? : Decoder Insert := fun j => do
  return {
    table := ← required? insertFields "table" table? j
    columns := ← required? insertFields "columns" (list? column?) j
    orReplace := ← required? insertFields "or_replace" bool? j
    constraints := ← required? insertFields "constraints" (list? column?) j }

/-- Writes an insert. -/
def ofInsert (s : Insert) : Json :=
  .obj [("table", ofTable s.table), ("columns", ofList ofColumn s.columns),
    ("or_replace", .bool s.orReplace), ("constraints", ofList ofColumn s.constraints)]

/-- The fields of a bulk load. -/
def writeFields : List String := ["table", "columns"]

/-- Reads a bulk load. -/
def write? : Decoder Write := fun j => do
  return {
    table := ← required? writeFields "table" table? j
    columns := ← required? writeFields "columns" (list? column?) j }

/-- Writes a bulk load. -/
def ofWrite (s : Write) : Json :=
  .obj [("table", ofTable s.table), ("columns", ofList ofColumn s.columns)]

/-- The fields of a new value. -/
def assignmentFields : List String := ["column", "to"]

/-- Reads a new value. -/
def assignment? : Decoder Assignment := fun j => do
  return {
    column := ← required? assignmentFields "column" column? j
    value := ← required? assignmentFields "to" operation? j }

/-- Writes a new value. -/
def ofAssignment (a : Assignment) : Json :=
  .obj [("column", ofColumn a.column), ("to", ofOperation a.value)]

/-- The fields of an update. -/
def updateFields : List String := ["table", "sets", "where_clause"]

/-- Reads an update. -/
def update? : Decoder Update := fun j => do
  return {
    table := ← required? updateFields "table" table? j
    sets := ← required? updateFields "sets" (list? assignment?) j
    filter := ← optional? updateFields "where_clause" condition? j }

/-- Writes an update. -/
def ofUpdate (s : Update) : Json :=
  .obj [("table", ofTable s.table), ("sets", ofList ofAssignment s.sets),
    ("where_clause", ofOption ofCondition s.filter)]

/-- The fields of a deletion. -/
def deleteFields : List String := ["table", "where_clause"]

/-- Reads a deletion. -/
def delete? : Decoder DeleteFrom := fun j => do
  return {
    table := ← required? deleteFields "table" table? j
    filter := ← optional? deleteFields "where_clause" condition? j }

/-- Writes a deletion. -/
def ofDelete (s : DeleteFrom) : Json :=
  .obj [("table", ofTable s.table), ("where_clause", ofOption ofCondition s.filter)]

/-! ### Statements -/

/-- Reads a statement. -/
def statement? : Decoder Statement := fun j => do
  let (name, ⟨content, _⟩) ← j.variant?
  match name with
  | "CreateTable" => (createTable? content).map .createTable
  | "CreateIndex" => (createIndex? content).map .createIndex
  | "CreateAs" => (createAs? content).map .createAs
  | "Insert" => (insert? content).map .insert
  | "Write" => (write? content).map .write
  | "SelectFrom" => (select? content).map .select
  | "Update" => (update? content).map .update
  | "DeleteFrom" => (delete? content).map .delete
  | "Drop" => (drop? content).map .drop
  | _ => none

/-- Writes a statement. -/
def ofStatement : Statement → Json
  | .createTable s => ofVariant "CreateTable" (ofCreateTable s)
  | .createIndex s => ofVariant "CreateIndex" (ofCreateIndex s)
  | .createAs s => ofVariant "CreateAs" (ofCreateAs s)
  | .insert s => ofVariant "Insert" (ofInsert s)
  | .write s => ofVariant "Write" (ofWrite s)
  | .select s => ofVariant "SelectFrom" (ofSelect s)
  | .update s => ofVariant "Update" (ofUpdate s)
  | .delete s => ofVariant "DeleteFrom" (ofDelete s)
  | .drop s => ofVariant "Drop" (ofDrop s)

end SqlRecords.Codec
