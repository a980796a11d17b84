import Mathlib.Logic.Function.Basic
import SqlRecords.Proofs.Dialect.Apart

/-!
# Strings of a statement go into quotes and nowhere else

`Statement.mapStrings f` puts other strings in the place of all those that a statement
holds: the names of tables, schemas, columns, indexes and results, the texts it
compares with, the patterns and the characters to trim. What a dialect writes for it
differs from what it writes for the statement itself in the contents of quoted tokens
alone (`statement_mapStrings`).

One place of the library looks at strings before it writes them: an INSERT that
overwrites rows leaves out the columns that have the name of a constraint. This is why
`f` has to tell different strings apart.

Together with what a reader of quotes sees of tokens, this gives the main result,
`compile_mapStrings`: nothing that a string can hold makes a reader take it for
anything but one string.
-/

namespace SqlRecords

variable (f : String → String)

/-! ### Other strings in a statement -/

/-- The column with other names. -/
def Column.mapStrings (c : Column) : Column where
  name := f c.name
  asName := c.asName.map f
  tableAlias := c.tableAlias.map f
  type :=
    { c.type with
      properties :=
        { c.type.properties with
          foreignKey := c.type.properties.foreignKey.map fun r => ⟨f r.table, f r.column⟩ } }

/-- The table with other names. -/
def Table.mapStrings (t : Table) : Table := ⟨f t.name, t.asName.map f, t.schema.map f⟩

/-- The literal with another text, if it is one. -/
def Value.mapStrings : Value → Value
  | .string s => .string (f s)
  | v => v

/-- The operand of an aggregate with other strings. -/
def Operand.mapStrings : Operand → Operand
  | .column c => .column (c.mapStrings f)
  | .value v => .value (v.mapStrings f)

/-- The aggregate with other strings. -/
def Aggregation.mapStrings : Aggregation → Aggregation
  | .of g x => .of g (x.mapStrings f)
  | .count distinct x => .count distinct (x.map (Operand.mapStrings f))

mutual

/-- The operation with other strings. -/
def Operation.mapStrings : Operation → Operation
  | .call g arg => .call g arg.mapStrings
  | .part p arg => .part p arg.mapStrings
  | .arith o lhs rhs => .arith o lhs.mapStrings rhs.mapStrings
  | .cast arg kind => .cast arg.mapStrings kind
  | .coalesce args => .coalesce (Operation.mapStringsAll args)
  | .concat args => .concat (Operation.mapStringsAll args)
  | .datePlus date durations => .datePlus date.mapStrings durations
  | .daysBetween start finish => .daysBetween start.mapStrings finish.mapStrings
  | .replaceAll arg piece substitute =>
    .replaceAll arg.mapStrings piece.mapStrings substitute.mapStrings
  | .round arg decimals => .round arg.mapStrings decimals
  | .trim side arg chars => .trim side arg.mapStrings (f chars)
  | .aggregate a => .aggregate (a.mapStrings f)
  | .column c => .column (c.mapStrings f)
  | .value v => .value (v.mapStrings f)

/-- Operations with other strings. -/
def Operation.mapStringsAll : List Operation → List Operation
  | [] => []
  | op :: rest => op.mapStrings :: Operation.mapStringsAll rest

end

/-- The condition with other strings. -/
def Condition.mapStrings : Condition → Condition
  | .and lhs rhs => .and lhs.mapStrings rhs.mapStrings
  | .or lhs rhs => .or lhs.mapStrings rhs.mapStrings
  | .not c => .not c.mapStrings
  | .compare o lhs rhs => .compare o (lhs.mapStrings f) (rhs.mapStrings f)
  | .isNull arg => .isNull (arg.mapStrings f)
  | .isNotNull arg => .isNotNull (arg.mapStrings f)
  | .like arg pattern => .like (arg.mapStrings f) (f pattern)
  | .notLike arg pattern => .notLike (arg.mapStrings f) (f pattern)

/-- The field with other strings. -/
def SelectField.mapStrings (x : SelectField) : SelectField := ⟨x.op.mapStrings f, x.asName.map f⟩

/-- The order with other strings. -/
def OrderBy.mapStrings (o : OrderBy) : OrderBy := { o with column := o.column.mapStrings f }

mutual

/-- The query with other strings. -/
def Select.mapStrings : Select → Select
  | ⟨source, fields, joins, filter, groupBy, orderBy, limit⟩ =>
    ⟨Select.mapStringsSource source, fields.map (SelectField.mapStrings f),
      Select.mapStringsJoins joins, filter.map (Condition.mapStrings f),
      groupBy.map (Column.mapStrings f), orderBy.map (OrderBy.mapStrings f), limit⟩

/-- The source with other strings. -/
def Select.mapStringsSource : SourceOf Select → SourceOf Select
  | .table t => .table (t.mapStrings f)
  | .query q name => .query (Select.mapStrings q) (f name)

/-- The joins with other strings. -/
def Select.mapStringsJoins : List (JoinOf Select) → List (JoinOf Select)
  | [] => []
  | j :: rest => Select.mapStringsJoin j :: Select.mapStringsJoins rest

/-- The join with other strings. -/
def Select.mapStringsJoin : JoinOf Select → JoinOf Select
  | ⟨kind, source, condition⟩ => ⟨kind, Select.mapStringsSource source, condition.mapStrings f⟩

end

/-- The INSERT with other strings. -/
def Insert.mapStrings (s : Insert) : Insert :=
  { s with
    table := s.table.mapStrings f
    columns := s.columns.map (Column.mapStrings f)
    constraints := s.constraints.map (Column.mapStrings f) }

/-- The statement with other strings. -/
def Statement.mapStrings : Statement → Statement
  | .createTable s =>
    .createTable
      { s with table := s.table.mapStrings f, columns := s.columns.map (Column.mapStrings f) }
  | .createIndex s =>
    .createIndex
      { s with
        name := f s.name
        table := s.table.mapStrings f
        columns := s.columns.map (Column.mapStrings f)
        filter := s.filter.map (Condition.mapStrings f) }
  | .createAs s =>
    .createAs { s with table := s.table.mapStrings f, query := s.query.mapStrings f }
  | .insert s => .insert (s.mapStrings f)
  | .write s => .write ⟨s.table.mapStrings f, s.columns.map (Column.mapStrings f)⟩
  | .select q => .select (q.mapStrings f)
  | .update s =>
    .update
      { table := s.table.mapStrings f
        sets := s.sets.map fun a => ⟨a.column.mapStrings f, a.value.mapStrings f⟩
        filter := s.filter.map (Condition.mapStrings f) }
  | .delete s => .delete ⟨s.table.mapStrings f, s.filter.map (Condition.mapStrings f)⟩
  | .drop s => .drop { s with table := s.table.mapStrings f }

/-! ### Other strings in quotes -/

/-- The token with another content, if it is a name or a string of the statement. -/
def Token.mapStrings : Token → Token
  | .name n => .name (f n)
  | .string s => .string (f s)
  | t => t

/-- The tokens with other contents. -/
def Sql.mapStrings (sql : Sql) : Sql := sql.map (Token.mapStrings f)

namespace Sql

variable {f}

@[simp] theorem mapStrings_nil : mapStrings f [] = [] := rfl

@[simp] theorem mapStrings_word (w : String) (sql : Sql) :
    mapStrings f (.word w :: sql) = .word w :: mapStrings f sql := rfl

@[simp] theorem mapStrings_name (n : String) (sql : Sql) :
    mapStrings f (.name n :: sql) = .name (f n) :: mapStrings f sql := rfl

@[simp] theorem mapStrings_string (s : String) (sql : Sql) :
    mapStrings f (.string s :: sql) = .string (f s) :: mapStrings f sql := rfl

@[simp] theorem mapStrings_fixed (s : String) (sql : Sql) :
    mapStrings f (.fixed s :: sql) = .fixed s :: mapStrings f sql := rfl

@[simp] theorem mapStrings_place (i : Nat) (sql : Sql) :
    mapStrings f (.place i :: sql) = .place i :: mapStrings f sql := rfl

@[simp] theorem mapStrings_append (a b : Sql) :
    mapStrings f (a ++ b) = mapStrings f a ++ mapStrings f b := List.map_append

@[simp] theorem mapStrings_between (before after : String) (sql : Sql) :
    mapStrings f (between before sql after) = between before (mapStrings f sql) after := by
  simp [between]

@[simp] theorem mapStrings_separated (w : String) : ∀ pieces : List Sql,
    mapStrings f (separated w pieces) = separated w (pieces.map (mapStrings f))
  | [] => rfl
  | [_] => rfl
  | p :: q :: rest => by
    have ih := mapStrings_separated w (q :: rest)
    rw [List.map_cons] at ih
    simp [separated, ih]

@[simp] theorem mapStrings_commas (pieces : List Sql) :
    mapStrings f (commas pieces) = commas (pieces.map (mapStrings f)) := mapStrings_separated ..

/-- Pieces made of members with other strings. -/
theorem commas_map_map {α : Type} {g : α → Sql} {change : α → α}
    (h : ∀ x, g (change x) = mapStrings f (g x)) (xs : List α) :
    commas ((xs.map change).map g) = mapStrings f (commas (xs.map g)) := by
  rw [mapStrings_commas, List.map_map, List.map_map]
  exact congrArg commas (List.map_congr_left fun x _ => h x)

end Sql

namespace Dialect

variable {f} (d : Dialect)

/-! ### Operations -/

@[simp] theorem literal_mapStrings (v : Value) :
    literal (v.mapStrings f) = (literal v).mapStrings f := by
  cases v <;> rfl

@[simp] theorem columnName_mapStrings (c : Column) :
    columnName (c.mapStrings f) = (columnName c).mapStrings f := by
  unfold columnName Column.mapStrings
  cases c.tableAlias <;> rfl

@[simp] theorem operand_mapStrings (x : Operand) :
    operand (x.mapStrings f) = (operand x).mapStrings f := by
  cases x
  · exact columnName_mapStrings _
  · exact literal_mapStrings _

@[simp] theorem aggregation_mapStrings (a : Aggregation) :
    aggregation (a.mapStrings f) = (aggregation a).mapStrings f := by
  rcases a with ⟨g, x⟩ | ⟨_ | _, _ | x⟩ <;> simp [Aggregation.mapStrings, aggregation]

@[simp] theorem part_mapStrings (p : DatePart) (arg : Sql) :
    d.part p (arg.mapStrings f) = (d.part p arg).mapStrings f := by
  cases d <;> cases p <;> simp [part]

@[simp] theorem arith_mapStrings (o : Arithmetic) (lhs rhs : Sql) :
    d.arith o (lhs.mapStrings f) (rhs.mapStrings f) = (d.arith o lhs rhs).mapStrings f := by
  cases d <;> cases o <;> simp [arith]

@[simp] theorem round_mapStrings (arg : Sql) (decimals : UInt32) :
    d.round (arg.mapStrings f) decimals = (d.round arg decimals).mapStrings f := by
  cases d <;> simp [round]

@[simp] theorem trim_mapStrings (side : TrimSide) (arg : Sql) (chars : String) :
    d.trim side (arg.mapStrings f) (f chars) = (d.trim side arg chars).mapStrings f := by
  cases d <;> simp [trim]

@[simp] theorem concat_mapStrings (args : List Sql) :
    d.concat (args.map (Sql.mapStrings f)) = (d.concat args).mapStrings f := by
  cases d <;> simp [concat]

@[simp] theorem daysBetween_mapStrings (start finish : Sql) :
    d.daysBetween (start.mapStrings f) (finish.mapStrings f) =
      (d.daysBetween start finish).mapStrings f := by
  cases d <;> simp [daysBetween]

@[simp] theorem datePlus_mapStrings (date : Sql) (durations : List Duration) :
    d.datePlus (date.mapStrings f) durations = (d.datePlus date durations).mapStrings f := by
  cases d with
  | mysql =>
    unfold datePlus
    induction durations generalizing date with
    | nil => rfl
    | cons u rest ih =>
      rw [List.foldl_cons, List.foldl_cons, ← Sql.mapStrings_between]
      exact ih _
  | _ => simp [datePlus, Function.comp_def]

mutual

/-- An operation with other strings is written with other contents of quotes. -/
@[simp] theorem operation_mapStrings : ∀ op : Operation,
    d.operation (op.mapStrings f) = (d.operation op).mapStrings f
  | .call g arg => by simp [Operation.mapStrings, operation, operation_mapStrings arg]
  | .part p arg => by simp [Operation.mapStrings, operation, operation_mapStrings arg]
  | .arith o lhs rhs => by
    simp [Operation.mapStrings, operation, operation_mapStrings lhs, operation_mapStrings rhs]
  | .cast arg kind => by simp [Operation.mapStrings, operation, operation_mapStrings arg]
  | .coalesce args => by simp [Operation.mapStrings, operation, operations_mapStrings args]
  | .concat args => by simp [Operation.mapStrings, operation, operations_mapStrings args]
  | .datePlus date durations => by
    simp [Operation.mapStrings, operation, operation_mapStrings date]
  | .daysBetween start finish => by
    simp [Operation.mapStrings, operation, operation_mapStrings start, operation_mapStrings finish]
  | .replaceAll arg piece substitute => by
    simp [Operation.mapStrings, operation, operation_mapStrings arg, operation_mapStrings piece,
      operation_mapStrings substitute]
  | .round arg decimals => by simp [Operation.mapStrings, operation, operation_mapStrings arg]
  | .trim side arg chars => by simp [Operation.mapStrings, operation, operation_mapStrings arg]
  | .aggregate a => by simp [Operation.mapStrings, operation]
  | .column c => by simp [Operation.mapStrings, operation]
  | .value v => by simp [Operation.mapStrings, operation]

/-- So is each of some operations. -/
theorem operations_mapStrings : ∀ ops : List Operation,
    d.operations (Operation.mapStringsAll f ops) = (d.operations ops).map (Sql.mapStrings f)
  | [] => by simp [Operation.mapStringsAll, operations]
  | op :: rest => by
    simp [Operation.mapStringsAll, operations, operation_mapStrings op, operations_mapStrings rest]

end

/-! ### Conditions and queries -/

@[simp] theorem condition_mapStrings (c : Condition) :
    d.condition (c.mapStrings f) = (d.condition c).mapStrings f := by
  induction c with
  | and lhs rhs ihl ihr | or lhs rhs ihl ihr => simp [Condition.mapStrings, condition, ihl, ihr]
  | not c ih => simp [Condition.mapStrings, condition, ih]
  | _ => simp [Condition.mapStrings, condition]

@[simp] theorem tableName_mapStrings (t : Table) :
    tableName (t.mapStrings f) = (tableName t).mapStrings f := by
  unfold tableName Table.mapStrings
  cases t.schema <;> rfl

@[simp] theorem tableSource_mapStrings (t : Table) :
    tableSource (t.mapStrings f) = (tableSource t).mapStrings f := by
  have hname := tableName_mapStrings (f := f) t
  unfold tableSource
  rw [hname]
  unfold Table.mapStrings
  cases t.asName <;> simp

@[simp] theorem fieldName_mapStrings (x : SelectField) :
    fieldName (x.mapStrings f) = (fieldName x).map f := by
  obtain ⟨op, _ | a⟩ := x
  · cases op <;> simp [fieldName, SelectField.mapStrings, Operation.mapStrings, Column.mapStrings]
  · rfl

@[simp] theorem selectField_mapStrings (x : SelectField) :
    d.selectField (x.mapStrings f) = (d.selectField x).mapStrings f := by
  unfold selectField
  rw [fieldName_mapStrings]
  cases fieldName x <;> simp [SelectField.mapStrings]

@[simp] theorem selectFields_mapStrings (xs : List SelectField) :
    d.selectFields (xs.map (SelectField.mapStrings f)) = (d.selectFields xs).mapStrings f := by
  cases xs with
  | nil => rfl
  | cons x rest => exact Sql.commas_map_map (selectField_mapStrings d) (x :: rest)

@[simp] theorem whereClause_mapStrings (c : Option Condition) :
    d.whereClause (c.map (Condition.mapStrings f)) = (d.whereClause c).mapStrings f := by
  cases c <;> simp [whereClause]

@[simp] theorem groupByClause_mapStrings (columns : List Column) :
    groupByClause (columns.map (Column.mapStrings f)) = (groupByClause columns).mapStrings f := by
  cases columns with
  | nil => rfl
  | cons c rest =>
    exact congrArg (.word " GROUP BY " :: ·) (Sql.commas_map_map columnName_mapStrings (c :: rest))

@[simp] theorem orderByClause_mapStrings (orders : List OrderBy) :
    orderByClause (orders.map (OrderBy.mapStrings f)) = (orderByClause orders).mapStrings f := by
  cases orders with
  | nil => rfl
  | cons o rest =>
    refine congrArg (.word " ORDER BY " :: ·) (Sql.commas_map_map (fun o => ?_) (o :: rest))
    cases h : o.desc <;> simp [OrderBy.mapStrings, h]

@[simp] theorem limitClause_mapStrings (limit : Option UInt64) :
    (limitClause limit).mapStrings f = limitClause limit := by
  cases limit <;> rfl

mutual

/-- A query with other strings is written with other contents of quotes, -/
@[simp] theorem select_mapStrings : ∀ q : Select,
    d.select (q.mapStrings f) = (d.select q).mapStrings f
  | ⟨source, fields, js, filter, groupBy, orderBy, limit⟩ => by
    simp [Select.mapStrings, select, source_mapStrings source, joins_mapStrings js]

/-- and so is a source, -/
theorem source_mapStrings : ∀ s : SourceOf Select,
    d.source (Select.mapStringsSource f s) = (d.source s).mapStrings f
  | .table t => by simp [Select.mapStringsSource, source]
  | .query q name => by simp [Select.mapStringsSource, source, select_mapStrings q]

/-- and so are joins -/
theorem joins_mapStrings : ∀ js : List (JoinOf Select),
    d.joins (Select.mapStringsJoins f js) = (d.joins js).mapStrings f
  | [] => by simp [Select.mapStringsJoins, joins]
  | j :: rest => by
    simp [Select.mapStringsJoins, joins, join_mapStrings j, joins_mapStrings rest]

/-- and a join. -/
theorem join_mapStrings : ∀ j : JoinOf Select,
    d.join (Select.mapStringsJoin f j) = (d.join j).mapStrings f
  | ⟨kind, source, condition⟩ => by
    simp [Select.mapStringsJoin, join, source_mapStrings source]

end

/-! ### Statements -/

@[simp] theorem optionalWord_mapStrings (flag : Bool) (w : String) :
    (optionalWord flag w).mapStrings f = optionalWord flag w := by
  cases flag <;> rfl

@[simp] theorem columnNames_mapStrings (columns : List Column) :
    columnNames (columns.map (Column.mapStrings f)) = (columnNames columns).mapStrings f := by
  unfold columnNames
  exact Sql.commas_map_map (α := Column) (fun _ => rfl) columns

@[simp] theorem tableDefinition_mapStrings (columns : List Column) :
    d.tableDefinition (columns.map (Column.mapStrings f)) =
      (d.tableDefinition columns).mapStrings f := by
  have hdefinition (c : Column) :
      d.columnDefinition (c.mapStrings f) = (d.columnDefinition c).mapStrings f := rfl
  have hkey : d.primaryColumns (columns.map (Column.mapStrings f)) =
      (d.primaryColumns columns).map (Column.mapStrings f) := by
    rw [primaryColumns, primaryColumns, List.filter_map]
    rfl
  have hclause : d.primaryKeyClause (columns.map (Column.mapStrings f)) =
      (d.primaryKeyClause columns).map (Sql.mapStrings f) := by
    unfold primaryKeyClause
    rw [hkey]
    generalize d.primaryColumns columns = key
    cases key with
    | nil => rfl
    | cons c rest => simp only [List.map_cons, ← columnNames_mapStrings, Sql.mapStrings_between]; rfl
  have hforeign (c : Column) :
      foreignKeyClause (c.mapStrings f) = (foreignKeyClause c).map (Sql.mapStrings f) := by
    unfold foreignKeyClause Column.mapStrings
    cases c.type.properties.foreignKey <;> rfl
  simp [tableDefinition, hdefinition, hclause, hforeign, List.filterMap_map, List.map_filterMap,
    Function.comp_def]

@[simp] theorem insertRows_mapStrings (opening : String) (t : Table) (columns : List Column) :
    insertRows opening (t.mapStrings f) (columns.map (Column.mapStrings f)) =
      (insertRows opening t columns).mapStrings f := by
  have hplaces (n : Nat) : (places n).mapStrings f = places n := by
    simp [places, Function.comp_def]
  simp [insertRows, hplaces]

@[simp] theorem overwrite_mapStrings (c : Column) :
    d.overwrite (c.mapStrings f) = (d.overwrite c).mapStrings f := by
  cases d <;> rfl

/-- Different columns stay different. -/
theorem overwritten_mapStrings (hf : Function.Injective f) (s : Insert) :
    overwritten (s.mapStrings f) = (overwritten s).map (Column.mapStrings f) := by
  have hname (c : Column) :
      (s.mapStrings f).constraints.any (·.name == (c.mapStrings f).name) =
        s.constraints.any (·.name == c.name) := by
    simp only [Insert.mapStrings, List.any_map]
    exact congrArg (List.any s.constraints) (funext fun k => hf.beq_eq)
  unfold overwritten
  rw [show (s.mapStrings f).columns = s.columns.map (Column.mapStrings f) from rfl, List.filter_map]
  refine congrArg _ (List.filter_congr fun c _ => ?_)
  rw [Function.comp, hname]

theorem onConflict_mapStrings (hf : Function.Injective f) (s : Insert) :
    d.onConflict (s.mapStrings f) = (d.onConflict s).mapStrings f := by
  unfold onConflict
  rw [overwritten_mapStrings hf]
  rw [Sql.mapStrings_append, Sql.mapStrings_between, ← columnNames_mapStrings]
  congr 1
  cases overwritten s with
  | nil => rfl
  | cons c rest =>
    exact congrArg (.word " DO UPDATE SET " :: ·)
      (Sql.commas_map_map (overwrite_mapStrings d) (c :: rest))

theorem insert_mapStrings (hf : Function.Injective f) (s : Insert) :
    d.insert (s.mapStrings f) = (d.insert s).mapStrings f := by
  have hplain (opening : String) :
      insertRows opening (s.mapStrings f).table (s.mapStrings f).columns =
        (insertRows opening s.table s.columns).mapStrings f := insertRows_mapStrings ..
  have hreplace : (s.mapStrings f).orReplace = s.orReplace := rfl
  have hconstraints : (s.mapStrings f).constraints = s.constraints.map (Column.mapStrings f) := rfl
  simp only [insert, hplain, hreplace, hconstraints, overwritten_mapStrings hf,
    onConflict_mapStrings d hf, Sql.mapStrings_append]
  refine congrArg (· ++ [Token.word ";"]) ?_
  split
  · rfl
  · cases d with
    | mysql =>
      cases overwritten s with
      | nil => rfl
      | cons c rest => simp [Function.comp_def]
    | sqlite | postgres =>
      cases s.constraints with
      | nil => simp
      | cons k rest => simp

/-- **A statement with other strings is written with other contents of quotes**, and with nothing
else changed. -/
theorem statement_mapStrings (hf : Function.Injective f) (s : Statement) :
    d.statement (s.mapStrings f) = (d.statement s).mapStrings f := by
  cases s with
  | createTable s => simp [Statement.mapStrings, statement, createTable]
  | createIndex s => cases d <;> simp [Statement.mapStrings, statement, createIndex]
  | createAs s => simp [Statement.mapStrings, statement, createAs, createAsWords]
  | insert s => exact insert_mapStrings d hf s
  | write s => cases d <;> simp [Statement.mapStrings, statement, write]
  | select q => simp [Statement.mapStrings, statement]
  | update s =>
    have hset (a : Assignment) : d.assignment ⟨a.column.mapStrings f, a.value.mapStrings f⟩ =
        (d.assignment a).mapStrings f := by
      simp [assignment, Column.mapStrings]
    simp only [Statement.mapStrings, statement, update, tableName_mapStrings,
      whereClause_mapStrings, Sql.commas_map_map hset, Sql.mapStrings_append, Sql.mapStrings_word,
      Sql.mapStrings_nil]
  | delete s => simp [Statement.mapStrings, statement, delete]
  | drop s => simp [Statement.mapStrings, statement, drop]

/-! ### What a reader sees -/

theorem map_emptied_glyphs (sql : Sql) :
    (d.glyphs (sql.mapStrings f)).map Glyph.emptied = (d.glyphs sql).map Glyph.emptied := by
  induction sql with
  | nil => rfl
  | cons t rest ih =>
    have ht : ((t.mapStrings f).glyphs d).map Glyph.emptied = (t.glyphs d).map Glyph.emptied := by
      cases t <;> rfl
    rw [show Sql.mapStrings f (t :: rest) = t.mapStrings f :: Sql.mapStrings f rest from rfl]
    simp only [glyphs_cons, List.map_append, ht, ih]

theorem scan_compile (s : Statement) : d.scan (d.compile s) = some (d.glyphs (d.statement s)) := by
  obtain ⟨body, ⟨b, hfits⟩, hs⟩ := isEnded_statement d s
  rw [compile, hs]
  exact scan_text hfits

/-- **A compiled statement cannot be injected into.** A reader of the compiled text who knows the
quotes of the dialect alone comes to its end outside of quotes, sees every name and string of the
statement as one quoted token that stands for just this name or string, and sees no semicolon
outside of quotes but the last character. If the statement holds other strings, different ones for
different ones, the reader sees these in the same tokens, and sees everything outside of quotes
and every quote where it was. -/
theorem compile_mapStrings (s : Statement) (hf : Function.Injective f) :
    d.scan (d.compile s) = some (d.glyphs (d.statement s)) ∧
      (∃ seen, d.glyphs (d.statement s) = seen ++ [.plain ';'] ∧ .plain ';' ∉ seen) ∧
      d.scan (d.compile (s.mapStrings f)) = some (d.glyphs ((d.statement s).mapStrings f)) ∧
      d.outline (d.compile (s.mapStrings f)) = d.outline (d.compile s) := by
  have hmapped : d.scan (d.compile (s.mapStrings f)) =
      some (d.glyphs ((d.statement s).mapStrings f)) := by
    rw [scan_compile, statement_mapStrings d hf]
  refine ⟨scan_compile d s, ?_, hmapped, ?_⟩
  · obtain ⟨body, ⟨b, hfits⟩, hs⟩ := isEnded_statement d s
    refine ⟨d.glyphs body, ?_, semicolon_notMem_glyphs hfits⟩
    rw [hs, glyphs_append]
    rfl
  · rw [outline, outline, hmapped, scan_compile, Option.map_some, Option.map_some,
      map_emptied_glyphs]

/-- Behind every string a quote and another statement. -/
theorem compile_mapStrings_hostile :
    Function.Injective (fun s : String => s ++ "'; DROP TABLE users; --") ∧
      Dialect.mysql.outline (Dialect.mysql.compile
        (.delete ⟨.named "users'; DROP TABLE users; --", some (.like (.column
          (.named "name'; DROP TABLE users; --")) "a%'; DROP TABLE users; --")⟩)) =
      Dialect.mysql.outline (Dialect.mysql.compile
        (.delete ⟨.named "users", some (.like (.column (.named "name")) "a%")⟩)) := by
  have hf : Function.Injective (fun s : String => s ++ "'; DROP TABLE users; --") :=
    fun a b h => by simpa using h
  exact ⟨hf, (compile_mapStrings .mysql
    (.delete ⟨.named "users", some (.like (.column (.named "name")) "a%")⟩) hf).2.2.2⟩

end Dialect

end SqlRecords
