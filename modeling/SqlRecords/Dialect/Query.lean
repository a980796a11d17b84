import SqlRecords.Dialect.Expression
import SqlRecords.Statement.Select

/-!
# Queries in each dialect

The clauses of a query in their fixed order. The dialects agree here; they differ in
the operations and in the quotes alone.
-/

namespace SqlRecords.Dialect

/-- The name of a table behind that of its schema. -/
def tableName (t : Table) : Sql :=
  match t.schema with
  | some s => [.name s, .word ".", .name t.name]
  | none => [.name t.name]

/-- A table as a source, with the name it goes by. -/
def tableSource (t : Table) : Sql :=
  match t.asName with
  | some a => tableName t ++ [.word " ", .name a]
  | none => tableName t

/-- The name a field goes by: its own, or that of the column it shows. -/
def fieldName (f : SelectField) : Option String :=
  match f.asName with
  | some a => some a
  | none =>
    match f.op with
    | .column c => c.asName
    | _ => none

/-- A field of a query. -/
def selectField (d : Dialect) (f : SelectField) : Sql :=
  d.operation f.op ++
    match fieldName f with
    | some a => [.word " AS ", .name a]
    | none => []

/-- The fields of a query, a star when there are none. -/
def selectFields (d : Dialect) : List SelectField → Sql
  | [] => [.word "*"]
  | fields => Sql.commas (fields.map d.selectField)

/-- The words of a kind of join. -/
def joinWords : JoinKind → String
  | .inner => "INNER JOIN"
  | .leftOuter => "LEFT JOIN"
  | .rightOuter => "RIGHT JOIN"
  | .fullOuter => "FULL JOIN"

/-- The clause that filters rows, if there is a condition. -/
def whereClause (d : Dialect) : Option Condition → Sql
  | some c => .word " WHERE " :: d.condition c
  | none => []

/-- The clause that groups rows, if there is anything to group by. -/
def groupByClause : List Column → Sql
  | [] => []
  | columns => .word " GROUP BY " :: Sql.commas (columns.map columnName)

/-- The clause that orders rows, if there is anything to order by. -/
def orderByClause : List OrderBy → Sql
  | [] => []
  | orders =>
    .word " ORDER BY " ::
      Sql.commas (orders.map fun o => columnName o.column ++ if o.desc then [.word " DESC"] else [])

/-- The clause that cuts off rows, if there is a limit. -/
def limitClause : Option UInt64 → Sql
  | some n => [.word (" LIMIT " ++ toString n.toNat)]
  | none => []

mutual

/-- A query. -/
def select (d : Dialect) : Select → Sql
  | ⟨source, fields, joins, filter, groupBy, orderBy, limit⟩ =>
    .word "SELECT " :: d.selectFields fields ++ .word " FROM " :: d.source source ++
      d.joins joins ++ d.whereClause filter ++ groupByClause groupBy ++
      orderByClause orderBy ++ limitClause limit

/-- A source of a query. -/
def source (d : Dialect) : SourceOf Select → Sql
  | .table t => tableSource t
  | .query q name => .word "(" :: d.select q ++ [.word ") ", .name name]

/-- The joins of a query. -/
def joins (d : Dialect) : List (JoinOf Select) → Sql
  | [] => []
  | j :: rest => .word " " :: d.join j ++ d.joins rest

/-- A join. -/
def join (d : Dialect) : JoinOf Select → Sql
  | ⟨kind, source, condition⟩ =>
    .word (joinWords kind ++ " ") :: d.source source ++ .word " ON " :: d.condition condition

end

end SqlRecords.Dialect
