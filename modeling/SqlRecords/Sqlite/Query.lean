import SqlRecords.Sqlite.Reader
import SqlRecords.Sqlite.Table

/-!
# Queries on a table

A query over one table: its rows in the order of their ids or as ORDER BY says, those
that the condition holds for, at most so many. The expressions of a statement are
read back from the SQL text that they are sent as. Rows come one by one, so the
result is a list in which a row can be an error.
-/

namespace SqlRecords.Sqlite

/-- A statement that is not covered. -/
def unsupported : String := "statement is not supported"

/-! ### Expressions of a statement -/

/-- A table as the expressions of a statement see it. -/
structure Scope where
  /-- What the table is like. -/
  rule : TableRule
  /-- The name it goes by. -/
  name : String

namespace Scope

/-- The scope of a table that a statement mentions. -/
def ofTable (rule : TableRule) (t : Table) : Scope := ⟨rule, t.asName.getD t.name⟩

/-- Looks up a column. A name alone that is no column stands for itself as a text. -/
def look (s : Scope) (c : ColumnName) : Except String (Expr Nat) :=
  match c.table with
  | none => .ok (((s.rule.find? c.name).map Expr.column).getD (.literal (.text c.name)))
  | some t =>
    match if sameName s.name t then s.rule.find? c.name else none with
    | some i => .ok (.column i)
    | none => .error ("no such column: " ++ t ++ "." ++ c.name)

/-- The expression that a piece of SQL spells. -/
def read (s : Scope) (sql : Sql) : Except String (Expr Nat) :=
  match Written.ofText? (Dialect.text .sqlite sql) with
  | some e => e.resolve s.look
  | none => .error unsupported

/-- The expression of an operation. -/
def operation (s : Scope) : Operation → Except String (Expr Nat)
  | .column c => s.look ⟨c.tableAlias, c.name⟩
  | op => s.read (Dialect.operation .sqlite op)

/-- The expression of a condition, if there is one. -/
def condition (s : Scope) : Option Condition → Except String (Option (Expr Nat))
  | some c => (s.read (Dialect.condition .sqlite c)).map some
  | none => .ok none

/-- What an expression gives on a row. -/
def eval (s : Scope) (e : Expr Nat) (row : StoredRow) : Except String Stored :=
  e.eval s.rule.affinity row.value

/-- The row is one that the condition holds for. -/
def keeps (s : Scope) (filter : Option (Expr Nat)) (row : StoredRow) : Except String Bool :=
  match filter with
  | none => .ok true
  | some e => (s.eval e row).map fun v => v.truth == some true

/-- The rows that a condition holds for; a row that it fails on is an error. -/
def matching (s : Scope) (filter : Option (Expr Nat)) (rows : List StoredRow) :
    List (Except String StoredRow) :=
  rows.filterMap fun row =>
    match s.keeps filter row with
    | .ok true => some (.ok row)
    | .ok false => none
    | .error e => some (.error e)

end Scope

/-! ### Aggregates -/

/-- The greatest value, or with `.gt` the least, among those that are not NULL. -/
def extreme (better : Ordering) (values : List Stored) : Stored :=
  values.foldl (fun best v =>
    if v.isNull then best
    else if best.isNull || best.compare v == better then v else best) .null

/-- An aggregate over all rows. -/
inductive Summary where
  | count
  | countOf (e : Expr Nat)
  | greatest (e : Expr Nat)
  | least (e : Expr Nat)

namespace Summary

/-- The aggregate of a statement. -/
def ofAggregation (s : Scope) : Aggregation → Except String Summary
  | .count _ none => .ok .count
  | .count false (some x) => (s.read (Dialect.operand x)).map .countOf
  | .of .max x => (s.read (Dialect.operand x)).map .greatest
  | .of .min x => (s.read (Dialect.operand x)).map .least
  | _ => .error unsupported

/-- What the aggregate gives over some rows. -/
def eval (s : Scope) (rows : List StoredRow) : Summary → Except String Stored
  | .count => .ok (.integer (Int64.ofInt rows.length))
  | .countOf e => do
    let values ← rows.mapM (s.eval e)
    return .integer (Int64.ofInt (values.countP fun v => !v.isNull))
  | .greatest e => do return extreme .lt (← rows.mapM (s.eval e))
  | .least e => do return extreme .gt (← rows.mapM (s.eval e))

end Summary

/-! ### Results -/

/-- What a query shows. -/
inductive Shown where
  /-- All columns of each row. -/
  | columns
  /-- An expression for each column of the result. -/
  | expressions (es : List (Expr Nat))
  /-- A single row of aggregates. -/
  | summary (xs : List Summary)

/-- The aggregates of a query that shows nothing else. -/
def aggregations? (fields : List SelectField) : Option (List Aggregation) :=
  fields.mapM fun f =>
    match f.op with
    | .aggregate a => some a
    | _ => none

/-- A term that rows are ordered by. -/
structure SortTerm where
  /-- What is compared. -/
  expr : Expr Nat
  /-- Greatest first. -/
  desc : Bool

/-- A query as it was looked up in its table. -/
structure Query where
  /-- The table. -/
  scope : Scope
  /-- What it shows. -/
  shown : Shown
  /-- The rows it shows. -/
  filter : Option (Expr Nat)
  /-- Their order. -/
  order : List SortTerm
  /-- How many at most. -/
  limit : Option Nat

namespace Query

/-- Looks up what a query shows. -/
def shownOf (s : Scope) (fields : List SelectField) : Except String Shown :=
  match fields, aggregations? fields with
  | [], _ => .ok .columns
  | _, some as => (as.mapM (Summary.ofAggregation s)).map .summary
  | fields, none => (fields.mapM fun f => s.operation f.op).map .expressions

/-- Looks up a term of the order, which may be the name that a column of the result goes by. -/
def sortTerm (s : Scope) (fields : List SelectField) (o : OrderBy) : Except String SortTerm := do
  let named := fields.find? fun f =>
    o.column.tableAlias.isNone && (Dialect.fieldName f).any (sameName o.column.name)
  let expr ←
    match named with
    | some f => s.operation f.op
    | none => s.look ⟨o.column.tableAlias, o.column.name⟩
  return ⟨expr, o.desc⟩

/-- Looks a query up in its table. -/
def ofStatement (s : Scope) (q : Select) : Except String Query := do
  unless q.joins.isEmpty && q.groupBy.isEmpty do throw unsupported
  let shown ← shownOf s q.fields
  let filter ← s.condition q.filter
  let order ← q.orderBy.mapM (sortTerm s q.fields)
  return ⟨s, shown, filter, order, q.limit.map UInt64.toNat⟩

/-- Compares two rows by the terms of an order. -/
def compareBy (s : Scope) : List SortTerm → StoredRow → StoredRow → Ordering
  | [], _, _ => .eq
  | t :: rest, a, b =>
    let value (r : StoredRow) : Stored := (s.eval t.expr r).toOption.getD .null
    let o := (value a).compare (value b)
    (if t.desc then o.swap else o).then (compareBy s rest a b)

/-- The order begins with the row id, so that the rows need no sorting. -/
def byRowId (q : Query) : Option Bool :=
  match q.order with
  | t :: _ => if q.scope.rule.rowId.map .column == some t.expr then some t.desc else none
  | [] => some false

/-- All of some results, or the first error among them. -/
def allOrError {α : Type} : List (Except String α) → Except String (List α)
  | [] => .ok []
  | .ok a :: rest => (allOrError rest).map (a :: ·)
  | .error e :: _ => .error e

/-- The values shown of a row. -/
def project (s : Scope) (es : List (Expr Nat)) (row : StoredRow) : Except String (List Stored) :=
  es.mapM fun e => s.eval e row

/-- The results of rows that have to be sorted; an error in any of them comes first. -/
def sorted (q : Query) (show' : StoredRow → Except String (List Stored))
    (rows : List (Except String StoredRow)) : List (Except String (List Stored)) :=
  let results := rows.map fun r => do
    let row ← r
    return (row, ← show' row)
  match allOrError results with
  | .error e => [.error e]
  | .ok pairs =>
    (pairs.mergeSort fun a b => compareBy q.scope q.order a.1 b.1 != .gt).map fun p => .ok p.2

/-- The results of a query that shows rows. -/
def rowResults (q : Query) (show' : StoredRow → Except String (List Stored))
    (rows : List (Except String StoredRow)) : List (Except String (List Stored)) :=
  match q.byRowId with
  | some desc => (if desc then rows.reverse else rows).map fun r => do show' (← r)
  | none => q.sorted show' rows

/-- The results of a query before any are cut off. -/
def results (q : Query) (rows : List StoredRow) : List (Except String (List Stored)) :=
  let kept := q.scope.matching q.filter rows
  match q.shown with
  | .columns => q.rowResults (fun row => .ok row.values) kept
  | .expressions es => q.rowResults (project q.scope es) kept
  | .summary xs =>
    [do
      let rows ← allOrError kept
      xs.mapM (·.eval q.scope rows)]

/-- Runs a query. A limit has to be a number of 64 bits with a sign. -/
def run (q : Query) (rows : List StoredRow) : List (Except String (List Stored)) :=
  match q.limit with
  | none => q.results rows
  | some n => if fits n then (q.results rows).take n else [.error "datatype mismatch"]

end Query

end SqlRecords.Sqlite
