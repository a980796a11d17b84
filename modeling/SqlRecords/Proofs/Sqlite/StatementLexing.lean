import Mathlib.Data.List.Forall2
import SqlRecords.Proofs.Sqlite.Reading
import SqlRecords.Sqlite.StatementReader

/-!
# Texts of statements and their lexemes

The text of a statement is cut into the keywords of its clauses and the names, places and
expressions between them. What a statement looks like in writing (`WrittenInsert.ofStatement` and
the like) says which lexemes these are.

## What is proved

* `spells_commas`: pieces with commas between them, each cut by itself.
* **`Lexeme.read_insert`**, **`Lexeme.read_createTable`**, **`Lexeme.read_query`**: the lexemes of
  the texts that the SQLite dialect writes.
-/

namespace SqlRecords

/-- A query on one table, whose fields and condition are among those that are covered. -/
structure Select.IsBasic (s : Schema) (t : Table) (q : Select) : Prop where
  source : q.source = .table t
  fields : ∀ f ∈ q.fields, f.op.IsBasic s
  joins : q.joins = []
  filter : ∀ c ∈ q.filter, c.IsBasic s
  groupBy : q.groupBy = []

namespace Sqlite

open Text

/-! ### Statements in writing -/

namespace WrittenInsert

/-- What is written about conflicts. -/
def conflictOf (i : Insert) : WrittenConflict :=
  if i.orReplace then
    match i.constraints with
    | [] => .replace
    | key => .resolve (key.map (·.name)) ((Dialect.overwritten i).map (·.name))
  else .refuse

/-- An INSERT in writing. -/
def ofStatement (i : Insert) : WrittenInsert :=
  ⟨{ i.table with asName := none }, i.columns.map (·.name), conflictOf i⟩

end WrittenInsert

namespace WrittenTable

/-- The word that a type is written as. -/
def typeWord (kind : Kind) : String :=
  match TableRule.affinityOf kind with
  | .integer => "integer"
  | .real => "real"
  | _ => "text"

/-- A column definition in writing. -/
def columnOf (c : Column) : WrittenColumn :=
  let p := c.type.properties
  { name := c.name
    type := typeWord c.type.kind
    numbered := p.autoIncrement
    notNull := !p.nullable && !p.autoIncrement
    unique := p.unique && !p.autoIncrement }

/-- The clause for a primary key in writing, if there is one. -/
def keyOf (columns : List Column) : List WrittenPart :=
  match Dialect.primaryColumns .sqlite columns with
  | [] => []
  | key => [.primaryKey (key.map (·.name))]

/-- The clause for a foreign key in writing, if there is one. -/
def foreignKeyOf (c : Column) : Option WrittenPart :=
  c.type.properties.foreignKey.map (.foreignKey c.name)

/-- A CREATE TABLE in writing. -/
def ofStatement (s : CreateTable) : WrittenTable :=
  ⟨{ s.table with asName := none }, s.ifNotExists,
    s.columns.map (.column ∘ columnOf) ++ keyOf s.columns ++ s.columns.filterMap foreignKeyOf⟩

end WrittenTable

namespace WrittenQuery

/-- A field in writing. -/
def fieldOf (f : SelectField) : WrittenField := ⟨.ofOperation f.op, Dialect.fieldName f⟩

/-- What a query shows, in writing. -/
def fieldsOf : List SelectField → Option (List WrittenField)
  | [] => none
  | fields => some (fields.map fieldOf)

/-- A column that rows are ordered by, in writing. -/
def orderOf (o : OrderBy) : WrittenOrder := ⟨⟨o.column.tableAlias, o.column.name⟩, o.desc⟩

/-- A query on one table in writing. -/
def ofStatement (t : Table) (q : Select) : WrittenQuery :=
  ⟨fieldsOf q.fields, t, q.filter.map .ofCondition, q.orderBy.map orderOf,
    q.limit.map UInt64.toNat⟩

end WrittenQuery

namespace Lexeme

variable {rest : List Char} {more ls : List Lexeme} {s : Schema}

/-! ### Pieces -/

/-- Lexemes with commas between them. -/
def commas : List (List Lexeme) → List Lexeme
  | [] => []
  | [piece] => piece
  | piece :: rest => piece ++ .sign "," :: commas rest

/-- The lexemes of a list of names. -/
def names (ns : List String) : List Lexeme := commas (ns.map fun n => [.name n])

/-- Lexemes in brackets. -/
def brackets (ls : List Lexeme) : List Lexeme := .sign "(" :: (ls ++ [.sign ")"])

/-- Pieces with commas between them are cut one by one. -/
theorem spells_commas {pieces : List Sql} {lexemes : List (List Lexeme)}
    (h : List.Forall₂ (fun piece ls => Spells (Dialect.chars .sqlite piece) ls) pieces lexemes) :
    Spells (Dialect.chars .sqlite (Sql.commas pieces)) (commas lexemes) := by
  induction h with
  | nil => exact fun _ _ hrest _ => hrest
  | @cons piece ls pieces lexemes hpiece htail ih =>
    cases htail with
    | nil => exact hpiece
    | cons _ _ =>
      intro rest more hrest hstops
      have hmore := hpiece ((ih hrest hstops).blank.lone ',') stops_comma
      simpa [Sql.commas, Sql.separated, commas, Token.chars] using hmore

/-- A list of items of one sort is cut item by item. -/
theorem spells_list {α : Type} {items : List α} {text : α → Sql} {lex : α → List Lexeme}
    (h : ∀ a ∈ items, Spells (Dialect.chars .sqlite (text a)) (lex a)) :
    Spells (Dialect.chars .sqlite (Sql.commas (items.map text))) (commas (items.map lex)) := by
  refine spells_commas ?_
  rw [List.forall₂_map_left_iff, List.forall₂_map_right_iff, List.forall₂_same]
  exact h

theorem spells_name (n : String) : Spells (Dialect.chars .sqlite [.name n]) [.name n] := by
  intro rest more h hrest
  have hname := h.name n (hrest.head?_ne (by decide))
  simpa [Token.chars, Dialect.identifierQuote] using hname

/-- The names of some columns. -/
theorem spells_columnNames (columns : List Column) :
    Spells (Dialect.chars .sqlite (Dialect.columnNames columns))
      (names (columns.map (·.name))) := by
  rw [names, List.map_map]
  exact spells_list fun c _ => spells_name c.name

/-- The places of some values. -/
theorem spells_places (n : Nat) : Spells (Dialect.chars .sqlite (Dialect.places n))
    (commas (List.replicate n [.sign "?"])) := by
  have hplaces : List.replicate n [Lexeme.sign "?"] = (List.range n).map fun _ => [.sign "?"] := by
    simp
  rw [hplaces]
  refine spells_list fun i _ => ?_
  intro rest more h _
  simpa [Token.chars] using h.lone '?'

/-- A piece in brackets is cut in front of any text. -/
theorem ReadsAs.bracketed {cs : List Char} (h : ReadsAs rest more) (hspells : Spells cs ls) :
    ReadsAs ('(' :: (cs ++ ')' :: rest)) (brackets ls ++ more) := by
  simpa [brackets] using (hspells (h.lone ')') stops_bracket).lone '('

theorem spells_tableName (t : Table) :
    Spells (Dialect.chars .sqlite (Dialect.tableName t)) (qualified t.schema t.name) :=
  spells_qualified t.schema t.name

/-! ### INSERT -/

/-- The lexemes of a column that takes its new value. -/
def overwriting (n : String) : List Lexeme :=
  [.name n, .sign "=", .word "excluded", .sign ".", .name n]

/-- The lexemes of what is done with a row in the way, whose columns are overwritten. -/
def ofOverwritten : List String → List Lexeme
  | [] => [.word "nothing"]
  | columns => [.word "update", .word "set"] ++ commas (columns.map overwriting)

/-- The lexemes of what is done with conflicts. -/
def ofConflict : WrittenConflict → List Lexeme
  | .resolve target columns =>
    [.word "on", .word "conflict"] ++ brackets (names target) ++ .word "do" :: ofOverwritten columns
  | _ => []

/-- The lexemes of an INSERT. -/
def ofInsert (i : WrittenInsert) : List Lexeme :=
  .word "insert" :: (if i.onConflict = .replace then [.word "or", .word "replace"] else []) ++
    .word "into" :: qualified i.table.schema i.table.name ++ brackets (names i.columns) ++
    .word "values" :: brackets (commas (List.replicate i.columns.length [.sign "?"])) ++
    ofConflict i.onConflict ++ [.sign ";"]

theorem spells_overwrite (c : Column) :
    Spells (Dialect.chars .sqlite (Dialect.overwrite .sqlite c)) (overwriting c.name) := by
  intro rest more h hrest
  have hnew := spells_name c.name h hrest
  have hword := (hnew.point rfl).keywords (endsWord_cons rfl) "excluded" [.word "excluded"] rfl rfl
  have hequal : ReadsAs ('=' :: _) (.sign "=" :: _) := hword.cons rfl (by simp) rfl (Nat.le_refl _)
  have hwhole := hequal.name c.name (by simp)
  simpa [Dialect.overwrite, overwriting, Token.chars, Dialect.identifierQuote] using hwhole

/-- The part that all INSERTs share. -/
theorem ReadsAs.insertRows (h : ReadsAs rest more) (t : Table) (columns : List Column)
    (opening : String) (words : List Lexeme)
    (hread : Lexeme.read opening.toList = some words) (hplain : opening.toList.all isPlain = true) :
    ReadsAs (Dialect.chars .sqlite (Dialect.insertRows (opening ++ " ") t columns) ++ rest)
      (words ++ qualified t.schema t.name ++ brackets (names (columns.map (·.name))) ++
        .word "values" :: brackets (commas (List.replicate columns.length [.sign "?"])) ++
          more) := by
  have hplaces := h.bracketed (spells_places columns.length)
  have hvalues := hplaces.keywords (endsWord_cons rfl) " VALUES " [.word "values"] rfl rfl
  have hcolumns := hvalues.bracketed (spells_columnNames columns)
  have htable := spells_tableName t hcolumns.blank stops_blank
  have hwhole := htable.blank.keywords (endsWord_cons rfl) opening words hread hplain
  simpa [Dialect.insertRows, Sql.between, Token.chars] using hwhole

/-- What is done with conflicts is cut into its lexemes. -/
theorem ReadsAs.onConflict (h : ReadsAs rest more) (hrest : Stops rest) (i : Insert) :
    ReadsAs (Dialect.chars .sqlite (Dialect.onConflict .sqlite i) ++ rest)
      (ofConflict (.resolve (i.constraints.map (·.name)) ((Dialect.overwritten i).map (·.name))) ++
        more) := by
  cases hcolumns : Dialect.overwritten i with
  | nil =>
    have hnothing := h.keywords hrest.endsWord " DO NOTHING" [.word "do", .word "nothing"] rfl rfl
    have htarget := hnothing.bracketed (spells_columnNames i.constraints)
    have hwhole := htarget.keywords (endsWord_cons rfl) " ON CONFLICT "
      [.word "on", .word "conflict"] rfl rfl
    simpa [Dialect.onConflict, hcolumns, Sql.between, ofConflict, ofOverwritten,
      Token.chars] using hwhole
  | cons c columns =>
    have hsets : Spells (Dialect.chars .sqlite (Sql.commas ((c :: columns).map
        (Dialect.overwrite .sqlite))))
          (commas (((c :: columns).map (·.name)).map overwriting)) := by
      rw [List.map_map]
      exact spells_list fun c _ => spells_overwrite c
    have hupdate := (hsets h hrest).blank.keywords (endsWord_cons rfl) " DO UPDATE SET"
      [.word "do", .word "update", .word "set"] rfl rfl
    have htarget := hupdate.bracketed (spells_columnNames i.constraints)
    have hwhole := htarget.keywords (endsWord_cons rfl) " ON CONFLICT "
      [.word "on", .word "conflict"] rfl rfl
    simpa [Dialect.onConflict, hcolumns, Sql.between, ofConflict, ofOverwritten,
      Token.chars] using hwhole

/-- The text of an INSERT is cut into its lexemes. -/
theorem read_insert (i : Insert) :
    Lexeme.read (Dialect.chars .sqlite (Dialect.insert .sqlite i)) =
      some (ofInsert (.ofStatement i)) := by
  have hend : ReadsAs [';'] [.sign ";"] := readsAs_nil.lone ';'
  refine ReadsAs.read ?_
  unfold Dialect.insert
  cases hreplace : i.orReplace with
  | false =>
    have hrows := hend.insertRows i.table i.columns "INSERT INTO" [.word "insert", .word "into"]
      rfl rfl
    simpa [hreplace, ofInsert, WrittenInsert.ofStatement, WrittenInsert.conflictOf, ofConflict,
      Token.chars] using hrows
  | true =>
    cases hkey : i.constraints with
    | nil =>
      have hrows := hend.insertRows i.table i.columns "INSERT OR REPLACE INTO"
        [.word "insert", .word "or", .word "replace", .word "into"] rfl rfl
      simpa [hreplace, hkey, ofInsert, WrittenInsert.ofStatement, WrittenInsert.conflictOf,
        ofConflict, Token.chars] using hrows
    | cons c key =>
      have hrows := (hend.onConflict stops_semicolon i).insertRows i.table i.columns "INSERT INTO"
        [.word "insert", .word "into"] rfl rfl
      simpa [hreplace, hkey, ofInsert, WrittenInsert.ofStatement, WrittenInsert.conflictOf,
        Token.chars] using hrows

/-! ### CREATE TABLE -/

/-- The lexemes of what a column definition says behind the type. -/
def ofRules (c : WrittenColumn) : List Lexeme :=
  (if c.numbered then [.word "primary", .word "key", .word "autoincrement"] else []) ++
    (if c.notNull then [.word "not", .word "null"] else []) ++
    if c.unique then [.word "unique"] else []

/-- The lexemes of a part of a table definition. -/
def ofPart : WrittenPart → List Lexeme
  | .column c => .name c.name :: .word c.type :: ofRules c
  | .primaryKey columns => .word "primary" :: .word "key" :: brackets (names columns)
  | .foreignKey column r =>
    .word "foreign" :: .word "key" :: brackets [.name column] ++
      .word "references" :: .name r.table :: brackets [.name r.column]

/-- The lexemes of a CREATE TABLE. -/
def ofCreateTable (w : WrittenTable) : List Lexeme :=
  .word "create" :: .word "table" ::
    (if w.ifNotExists then [.word "if", .word "not", .word "exists"] else []) ++
    qualified w.table.schema w.table.name ++ brackets (commas (w.parts.map ofPart)) ++ [.sign ";"]

/-- A type is one word. -/
theorem ReadsAs.typeName (h : ReadsAs rest more) (hrest : EndsWord rest) (kind : Kind) :
    ReadsAs ((Dialect.typeName .sqlite kind).toList ++ rest)
      (.word (WrittenTable.typeWord kind) :: more) := by
  have hinteger := h.keywords hrest "INTEGER" [.word "integer"] rfl rfl
  have hreal := h.keywords hrest "REAL" [.word "real"] rfl rfl
  have htext := h.keywords hrest "TEXT" [.word "text"] rfl rfl
  cases kind
  all_goals first | exact hinteger | exact hreal | exact htext

/-- What stands behind the type of a column begins with a blank, if there is anything. -/
theorem endsWord_propertyWords (p : Properties) (hrest : Stops rest) :
    EndsWord ((Dialect.propertyWords .sqlite p).toList ++ rest) := by
  have hblank : ∀ w : List Char, EndsWord (' ' :: w) := fun _ => endsWord_cons rfl
  cases hnumbered : p.autoIncrement <;> cases hnull : p.nullable <;> cases hunique : p.unique
  all_goals simp [Dialect.propertyWords, Dialect.autoIncrementWords, hnumbered, hnull, hunique,
    hblank, hrest.endsWord]

/-- What stands behind the type of a column is cut into its words. -/
theorem ReadsAs.propertyWords (h : ReadsAs rest more) (hrest : Stops rest) (c : Column) :
    ReadsAs ((Dialect.propertyWords .sqlite c.type.properties).toList ++ rest)
      (ofRules (WrittenTable.columnOf c) ++ more) := by
  have hends := hrest.endsWord
  cases hnumbered : c.type.properties.autoIncrement with
  | true =>
    have hwords := h.keywords hends " PRIMARY KEY AUTOINCREMENT"
      [.word "primary", .word "key", .word "autoincrement"] rfl rfl
    simpa [Dialect.propertyWords, Dialect.autoIncrementWords, ofRules, WrittenTable.columnOf,
      hnumbered] using hwords
  | false =>
    have hnotNull := h.keywords hends " NOT NULL" [.word "not", .word "null"] rfl rfl
    have hunique := h.keywords hends " UNIQUE" [.word "unique"] rfl rfl
    have hboth := h.keywords hends " NOT NULL UNIQUE" [.word "not", .word "null", .word "unique"]
      rfl rfl
    cases hnull : c.type.properties.nullable <;> cases hshared : c.type.properties.unique
    all_goals simpa [Dialect.propertyWords, ofRules, WrittenTable.columnOf, hnumbered, hnull,
      hshared]

theorem spells_columnDefinition (c : Column) :
    Spells (Dialect.chars .sqlite (Dialect.columnDefinition .sqlite c))
      (ofPart (.column (WrittenTable.columnOf c))) := by
  intro rest more h hrest
  have hwords := h.propertyWords hrest c
  have htype := hwords.typeName (endsWord_propertyWords _ hrest) c.type.kind
  have hname := spells_name c.name htype.blank stops_blank
  simpa [Dialect.columnDefinition, ofPart, WrittenTable.columnOf, Token.chars] using hname

theorem spells_primaryKey (key : List Column) :
    Spells (Dialect.chars .sqlite
        (Sql.between "PRIMARY KEY (" (Dialect.columnNames key) ")"))
      (ofPart (.primaryKey (key.map (·.name)))) := by
  intro rest more h _
  have hkey := (h.bracketed (spells_columnNames key)).keywords (endsWord_cons rfl) "PRIMARY KEY "
    [.word "primary", .word "key"] rfl rfl
  simpa [Sql.between, ofPart, Token.chars] using hkey

theorem spells_foreignKey (column : String) (r : Reference) :
    Spells (Dialect.chars .sqlite [.word "FOREIGN KEY (", .name column, .word ") REFERENCES ",
        .name r.table, .word "(", .name r.column, .word ")"])
      (ofPart (.foreignKey column r)) := by
  intro rest more h _
  have htarget := (h.bracketed (spells_name r.column)).name r.table (by simp)
  have hrefers := htarget.keywords (endsWord_cons rfl) " REFERENCES " [.word "references"] rfl rfl
  have hcolumn := (hrefers.bracketed (spells_name column)).keywords (endsWord_cons rfl)
    "FOREIGN KEY " [.word "foreign", .word "key"] rfl rfl
  simpa [ofPart, Token.chars, Dialect.identifierQuote] using hcolumn

/-- The parts of a table definition are cut one by one. -/
theorem spells_tableDefinition (s : CreateTable) :
    Spells (Dialect.chars .sqlite (Dialect.tableDefinition .sqlite s.columns))
      (commas ((WrittenTable.ofStatement s).parts.map ofPart)) := by
  refine spells_commas ?_
  rw [List.forall₂_map_right_iff]
  refine List.rel_append (List.rel_append ?_ ?_) ?_
  · rw [List.forall₂_map_left_iff, List.forall₂_map_right_iff, List.forall₂_same]
    exact fun c _ => spells_columnDefinition c
  · unfold Dialect.primaryKeyClause WrittenTable.keyOf
    cases hkey : Dialect.primaryColumns .sqlite s.columns with
    | nil => exact .nil
    | cons c key => exact .cons (spells_primaryKey (c :: key)) .nil
  · refine List.rel_filterMap (R := Eq) ?_ (List.forall₂_refl s.columns)
    rintro c _ rfl
    unfold Dialect.foreignKeyClause WrittenTable.foreignKeyOf
    cases c.type.properties.foreignKey with
    | none => exact .none
    | some r => exact .some (spells_foreignKey c.name r)

/-- The text of a CREATE TABLE is cut into its lexemes. -/
theorem read_createTable (s : CreateTable) :
    Lexeme.read (Dialect.chars .sqlite (Dialect.createTable .sqlite s)) =
      some (ofCreateTable (.ofStatement s)) := by
  have hend : ReadsAs [';'] [.sign ";"] := readsAs_nil.lone ';'
  have hparts := hend.bracketed (spells_tableDefinition s)
  have htable := (spells_tableName s.table hparts.blank stops_blank).blank
  refine ReadsAs.read ?_
  unfold Dialect.createTable Dialect.optionalWord ofCreateTable
  cases hthere : s.ifNotExists with
  | false =>
    have hwhole := htable.keywords (endsWord_cons rfl) "CREATE TABLE"
      [.word "create", .word "table"] rfl rfl
    simpa [hthere, WrittenTable.ofStatement, Sql.between, Token.chars] using hwhole
  | true =>
    have hwhole := htable.keywords (endsWord_cons rfl) "CREATE TABLE IF NOT EXISTS"
      [.word "create", .word "table", .word "if", .word "not", .word "exists"] rfl rfl
    simpa [hthere, WrittenTable.ofStatement, Sql.between, Token.chars] using hwhole

/-! ### Queries -/

/-- The lexemes of a name that something goes by, behind a word. -/
def ofField (f : SelectField) : List Lexeme :=
  ofOperation f.op ++
    match Dialect.fieldName f with
    | some a => [.word "as", .name a]
    | none => []

/-- The lexemes of what a query shows. -/
def ofFields : List SelectField → List Lexeme
  | [] => [.sign "*"]
  | fields => commas (fields.map ofField)

/-- The lexemes of a table with the name that it goes by. -/
def ofSource (t : Table) : List Lexeme :=
  qualified t.schema t.name ++ (t.asName.map Lexeme.name).toList

/-- The lexemes of a filter. -/
def ofFilter : Option Condition → List Lexeme
  | some c => .word "where" :: ofCondition c
  | none => []

/-- The lexemes of a column that rows are ordered by. -/
def ofOrder (o : OrderBy) : List Lexeme :=
  qualified o.column.tableAlias o.column.name ++ if o.desc then [.word "desc"] else []

/-- The lexemes of an order. -/
def ofOrders : List OrderBy → List Lexeme
  | [] => []
  | orders => .word "order" :: .word "by" :: commas (orders.map ofOrder)

/-- The lexemes of a limit. -/
def ofLimit : Option UInt64 → List Lexeme
  | some n => [.word "limit", .number true ⟨false, n.toNat, 0⟩]
  | none => []

/-- The lexemes of a query on one table. -/
def ofQuery (t : Table) (q : Select) : List Lexeme :=
  .word "select" :: ofFields q.fields ++ .word "from" :: ofSource t ++ ofFilter q.filter ++
    ofOrders q.orderBy ++ ofLimit q.limit

theorem spells_selectField {f : SelectField} (hop : f.op.IsBasic s) :
    Spells (Dialect.chars .sqlite (Dialect.selectField .sqlite f)) (ofField f) := by
  intro rest more h hrest
  cases hname : Dialect.fieldName f with
  | none =>
    simpa [Dialect.selectField, ofField, hname] using spells_operation hop h hrest
  | some a =>
    have has := (spells_name a h hrest).keywords (endsWord_cons rfl) " AS " [.word "as"] rfl rfl
    simpa [Dialect.selectField, ofField, hname, Token.chars] using
      spells_operation hop has stops_blank

theorem spells_selectFields {fields : List SelectField} (hops : ∀ f ∈ fields, f.op.IsBasic s) :
    Spells (Dialect.chars .sqlite (Dialect.selectFields .sqlite fields)) (ofFields fields) := by
  cases fields with
  | nil =>
    intro rest more h _
    simpa [Dialect.selectFields, ofFields, Token.chars] using h.lone '*'
  | cons f fields => exact spells_list fun g hg => spells_selectField (hops g hg)

theorem spells_tableSource (t : Table) :
    Spells (Dialect.chars .sqlite (Dialect.tableSource t)) (ofSource t) := by
  intro rest more h hrest
  cases hname : t.asName with
  | none => simpa [Dialect.tableSource, ofSource, hname] using spells_tableName t h hrest
  | some a =>
    have has := (spells_name a h hrest).blank
    simpa [Dialect.tableSource, ofSource, hname, Token.chars] using
      spells_tableName t has stops_blank

theorem spells_order (o : OrderBy) : Spells
    (Dialect.chars .sqlite (Dialect.columnName o.column ++ if o.desc then [.word " DESC"] else []))
    (ofOrder o) := by
  intro rest more h hrest
  have hcolumn : Spells (Dialect.chars .sqlite (Dialect.columnName o.column))
      (qualified o.column.tableAlias o.column.name) := spells_columnName o.column
  cases hdesc : o.desc with
  | false => simpa [ofOrder, hdesc] using hcolumn h hrest
  | true =>
    have hword := h.keywords hrest.endsWord " DESC" [.word "desc"] rfl rfl
    simpa [ofOrder, hdesc, Token.chars] using hcolumn hword stops_blank

/-! Each clause of a query may be missing; what follows it begins with a blank or is the end. -/

theorem spells_whereClause {filter : Option Condition} (hfilter : ∀ c ∈ filter, c.IsBasic s) :
    Spells (Dialect.chars .sqlite (Dialect.whereClause .sqlite filter)) (ofFilter filter) := by
  intro rest more h hrest
  cases filter with
  | none => exact h
  | some c =>
    have hcondition := spells_condition (hfilter c rfl) h hrest
    have hword := hcondition.blank.keywords (endsWord_cons rfl) " WHERE" [.word "where"] rfl rfl
    simpa [Dialect.whereClause, ofFilter, Token.chars] using hword

theorem spells_orderByClause (orders : List OrderBy) :
    Spells (Dialect.chars .sqlite (Dialect.orderByClause orders)) (ofOrders orders) := by
  intro rest more h hrest
  cases orders with
  | nil => exact h
  | cons o orders =>
    have horders : Spells (Dialect.chars .sqlite (Sql.commas ((o :: orders).map fun o =>
        Dialect.columnName o.column ++ if o.desc then [.word " DESC"] else [])))
          (commas ((o :: orders).map ofOrder)) := spells_list fun o _ => spells_order o
    have hwords := (horders h hrest).blank.keywords (endsWord_cons rfl) " ORDER BY"
      [.word "order", .word "by"] rfl rfl
    simpa [Dialect.orderByClause, ofOrders, Token.chars] using hwords

theorem spells_limitClause (limit : Option UInt64) :
    Spells (Dialect.chars .sqlite (Dialect.limitClause limit)) (ofLimit limit) := by
  intro rest more h hrest
  cases limit with
  | none => exact h
  | some n =>
    have hwords := (h.number n.toNat hrest).blank.keywords (endsWord_cons rfl) " LIMIT"
      [.word "limit"] rfl rfl
    simpa [Dialect.limitClause, ofLimit, Token.chars] using hwords

theorem stops_limitClause (limit : Option UInt64) (hrest : Stops rest) :
    Stops (Dialect.chars .sqlite (Dialect.limitClause limit) ++ rest) := by
  cases limit with
  | none => exact hrest
  | some n => simp [Dialect.limitClause, Token.chars, stops_blank]

theorem stops_orderByClause (orders : List OrderBy) (hrest : Stops rest) :
    Stops (Dialect.chars .sqlite (Dialect.orderByClause orders) ++ rest) := by
  cases orders with
  | nil => exact hrest
  | cons o orders => exact .inl rfl

theorem stops_whereClause (filter : Option Condition) (hrest : Stops rest) :
    Stops (Dialect.chars .sqlite (Dialect.whereClause .sqlite filter) ++ rest) := by
  cases filter with
  | none => exact hrest
  | some c => exact .inl rfl

/-- The text of a query on one table is cut into its lexemes. -/
theorem read_query {t : Table} {q : Select} (hq : q.IsBasic s t) :
    Lexeme.read (Dialect.chars .sqlite (Dialect.select .sqlite q)) = some (ofQuery t q) := by
  obtain ⟨source, fields, joins, filter, groupBy, orderBy, limit⟩ := q
  obtain ⟨hsource, hfields, hjoins, hfilter, hgroupBy⟩ := hq
  obtain rfl : source = .table t := hsource
  obtain rfl : joins = [] := hjoins
  obtain rfl : groupBy = [] := hgroupBy
  have hlimit := spells_limitClause limit readsAs_nil trivial
  have hlimitStops : Stops (_ ++ []) := stops_limitClause limit trivial
  have horders := spells_orderByClause orderBy hlimit hlimitStops
  have hordersStops : Stops (_ ++ _) := stops_orderByClause orderBy hlimitStops
  have hwhere := spells_whereClause hfilter horders hordersStops
  have hwhereStops : Stops (_ ++ _) := stops_whereClause filter hordersStops
  have hfrom := (spells_tableSource t hwhere hwhereStops).blank.keywords (endsWord_cons rfl)
    " FROM" [.word "from"] rfl rfl
  have hselect := (spells_selectFields hfields hfrom stops_blank).blank.keywords
    (endsWord_cons rfl) "SELECT" [.word "select"] rfl rfl
  refine ReadsAs.read ?_
  simpa [Dialect.select, Dialect.source, Dialect.joins, Dialect.groupByClause, ofQuery,
    Token.chars] using hselect

end Lexeme

end Sqlite

end SqlRecords
