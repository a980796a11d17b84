import SqlRecords.Statement.Condition

/-!
# Queries

A query takes fields from a source, which is a table or another query, joined with
further sources, filtered, grouped, ordered and cut off. `SourceOf` and `JoinOf` are
written over any type of query, so that `Select` can contain itself.
-/

namespace SqlRecords

/-- One column of a result. -/
structure SelectField where
  /-- What it shows. -/
  op : Operation
  /-- The name it goes by. -/
  asName : Option String
  deriving Repr, Inhabited

/-- The ways to join two sources. -/
inductive JoinKind where
  | inner
  | leftOuter
  | rightOuter
  | fullOuter
  deriving DecidableEq, Repr, Inhabited

/-- The kinds of join, each once. -/
def JoinKind.all : List JoinKind := [.inner, .leftOuter, .rightOuter, .fullOuter]

/-- Where rows come from, over a type `α` of queries. -/
inductive SourceOf (α : Type) where
  | table (t : Table)
  | query (q : α) (asName : String)
  deriving Repr

instance {α : Type} : Inhabited (SourceOf α) := ⟨.table default⟩

/-- A further source and the condition that ties its rows to those before, over a type `α`
of queries. -/
structure JoinOf (α : Type) where
  /-- Which rows without a partner are kept. -/
  kind : JoinKind
  /-- The source joined. -/
  source : SourceOf α
  /-- When two rows belong together. -/
  condition : Condition
  deriving Repr

/-- A column that rows are ordered by. -/
structure OrderBy where
  /-- The column. -/
  column : Column
  /-- Greatest first. -/
  desc : Bool
  deriving DecidableEq, Repr, Inhabited

/-- A query. -/
structure Select where
  /-- Where the rows come from. -/
  source : SourceOf Select
  /-- What is shown of them; everything when the list is empty. -/
  fields : List SelectField
  /-- The sources joined, in order. -/
  joins : List (JoinOf Select)
  /-- Which rows are kept. -/
  filter : Option Condition
  /-- What rows are grouped by. -/
  groupBy : List Column
  /-- What rows are ordered by. -/
  orderBy : List OrderBy
  /-- How many rows are shown at most. -/
  limit : Option UInt64
  deriving Repr

/-- Where the rows of a query come from. -/
abbrev Source := SourceOf Select

/-- A source joined to a query. -/
abbrev Join := JoinOf Select

/-- A query with nothing but a source and fields. -/
def Select.of (source : Source) (fields : List SelectField) : Select :=
  { source, fields, joins := [], filter := none, groupBy := [], orderBy := [], limit := none }

instance : Inhabited Select := ⟨.of default []⟩

end SqlRecords
