import SqlRecords.Statement.Basic

/-!
# Building statements by hand

Short functions that put operations, conditions, queries and updates together, so
that a statement reads from left to right: `col "n" |>.plus (.value v) |>.gt other`.
-/

namespace SqlRecords

/-- A column by its name. -/
def col (name : String) : Operation := .column (.named name)

/-- A column of a named table. -/
def qcol (tableAlias name : String) : Operation :=
  .column ((Column.named name).withTableAlias tableAlias)

/-- A field that shows an operation. -/
def showing (op : Operation) : SelectField := ⟨op, none⟩

/-- Fields that show columns by their names. -/
def fields (names : List String) : List SelectField := names.map fun n => showing (col n)

namespace Operation

/-- An aggregate as an operation. -/
def aggregateOf (f : AggregateFunction) (operand : Operand) : Operation :=
  .aggregate (.of f operand)

/-- The sum of two numbers. -/
def plus (lhs rhs : Operation) : Operation := .arith .plus lhs rhs

/-- The difference of two numbers. -/
def minus (lhs rhs : Operation) : Operation := .arith .minus lhs rhs

/-- The product of two numbers. -/
def multiplies (lhs rhs : Operation) : Operation := .arith .multiplies lhs rhs

/-- The quotient of two numbers. -/
def divides (lhs rhs : Operation) : Operation := .arith .divides lhs rhs

/-- The remainder of two numbers. -/
def modulo (lhs rhs : Operation) : Operation := .arith .modulo lhs rhs

/-- A text without blanks at its ends. -/
def strip (arg : Operation) : Operation := .trim .both arg " "

/-- The two are equal. -/
def eq (lhs rhs : Operation) : Condition := .compare .equal lhs rhs

/-- The two are different. -/
def ne (lhs rhs : Operation) : Condition := .compare .notEqual lhs rhs

/-- The first is the smaller one. -/
def lt (lhs rhs : Operation) : Condition := .compare .less lhs rhs

/-- The first is not the greater one. -/
def le (lhs rhs : Operation) : Condition := .compare .lessEqual lhs rhs

/-- The first is the greater one. -/
def gt (lhs rhs : Operation) : Condition := .compare .greater lhs rhs

/-- The first is not the smaller one. -/
def ge (lhs rhs : Operation) : Condition := .compare .greaterEqual lhs rhs

end Operation

namespace Select

/-- The query joined with one more source. -/
def join (s : Select) (kind : JoinKind) (source : Source) (condition : Condition) : Select :=
  { s with joins := s.joins ++ [⟨kind, source, condition⟩] }

/-- The query with one more field. -/
def addField (s : Select) (f : SelectField) : Select := { s with fields := s.fields ++ [f] }

/-- The query with one more condition, which has to hold together with those before. -/
def addFilter (s : Select) (c : Condition) : Select :=
  { s with filter := some (match s.filter with | some old => .and old c | none => c) }

/-- The query grouped by one more column. -/
def addGroupBy (s : Select) (c : Column) : Select := { s with groupBy := s.groupBy ++ [c] }

/-- The query ordered by one more column. -/
def addOrderBy (s : Select) (c : Column) (desc : Bool) : Select :=
  { s with orderBy := s.orderBy ++ [⟨c, desc⟩] }

/-- The query cut off after some rows. -/
def withLimit (s : Select) (n : UInt64) : Select := { s with limit := some n }

/-- The query as a source of another one. -/
def asSource (s : Select) (asName : String) : Source := .query s asName

end Select

namespace Update

/-- An update of a table that changes nothing yet. -/
def of (table : Table) : Update := ⟨table, [], none⟩

/-- The update with one more new value. -/
def assign (u : Update) (column : Column) (value : Operation) : Update :=
  { u with sets := u.sets ++ [⟨column, value⟩] }

/-- The update of the rows that meet a condition, whatever was asked before. -/
def withFilter (u : Update) (c : Condition) : Update := { u with filter := some c }

end Update

end SqlRecords
